import ContractCheck.Proofs.FileSystem.Alike
import ContractCheck.Proofs.Host.Following
import ContractCheck.Proofs.Host.Sparing

/-! # What logging leaves alone

Writing to the log runs no tool and never fails if the log can be opened at all.  It changes the
log's own file and nothing else, apart from the directories that are made when the log is opened
(`Log.write_logged`).  Once a record was written the log is open (`Log.write_opens`), and an open
log stays where it is (`Log.write_keepsLog`).
-/
namespace ContractCheck

open FileSystem (placeOf)

namespace Host

/-- Whether the log is still to be opened. -/
def LogPlanned (h : Host) : Prop := ∃ settings, h.log = .planned settings

/-- The places that the log is written to. -/
def AtLog (h : Host) (q : Place) : Prop := ∃ path ∈ h.logFiles, q = placeOf h.cwd path

/-- A host after nothing but logging. -/
structure Logged (h h' : Host) : Prop where
  shows : h.Shows [] h'
  opens : h'.LogPlanned → h.LogPlanned
  atLog : ∀ q, h'.AtLog q → h.AtLog q
  files : h.files.AlikeBut h.AtLog (fun _ => h.LogPlanned) h'.files

variable {h h' h'' : Host}

namespace Logged

theorem refl (h : Host) : h.Logged h := ⟨.refl h, id, fun _ => id, .refl ..⟩

theorem trans (first : h.Logged h') (second : h'.Logged h'') : h.Logged h'' where
  shows := first.shows.trans second.shows
  opens := first.opens ∘ second.opens
  atLog q := first.atLog q ∘ second.atLog q
  files := first.files.trans (second.files.mono first.atLog fun _ => first.opens)

theorem cwd (logged : h.Logged h') : h'.cwd = h.cwd := logged.shows.cwd

/-- What is printed to the standard error output is no file. -/
theorem complained (h : Host) (t : Text) : h.Logged { h with complaints := t } :=
  ⟨.of_same rfl rfl rfl rfl rfl rfl, id, fun _ => id, .refl ..⟩

/-- A log that was opened is no plan, and its file is one that the log was to be written to. -/
theorem of_opened {outputs : Log.Outputs} (cwd : h'.cwd = h.cwd)
    (environment : h'.environment = h.environment) (tools : h'.tools = h.tools)
    (runs : h'.runs = h.runs) (transcript : h'.transcript = h.transcript)
    (opened : h'.log = .opened outputs) (file : ∀ path ∈ outputs.file, h.AtLog (placeOf h.cwd path))
    (files : h.files.AlikeBut h.AtLog (fun _ => h.LogPlanned) h'.files) : h.Logged h' where
  shows :=
    { cwd, environment, tools
      ready := fun _ settings planned => by
        rw [opened] at planned
        cases planned
      runs := by rw [runs, List.append_nil]
      transcript := by rw [transcript, List.flatMap_nil, List.append_nil] }
  opens := by
    rintro ⟨settings, planned⟩
    rw [opened] at planned
    cases planned
  atLog := by
    rintro q ⟨path, mem, rfl⟩
    rw [logFiles, opened] at mem
    rw [cwd]
    exact file path (Option.mem_toList.mp mem)
  files := files

/-- Once the log is open, what does not lie at the log is as it was. -/
theorem get? (logged : h.Logged h') (opened : ¬ h.LogPlanned) {q : Place} (aside : ¬ h.AtLog q) :
    h'.files.get? q = h.files.get? q := by
  rcases logged.files.entry q with same | ⟨inside, -⟩ | ⟨planned, -⟩
  · exact same
  · exact absurd inside aside
  · exact absurd planned opened

end Logged
end Host

/-- An activity that does nothing but logging, and does not fail if the log is ready. -/
def Action.Records (act : Action Unit) : Prop :=
  ∀ h : Host, h.LogReady → ∃ h', act.perform h = (.ok ⟨⟩, h') ∧ h.Logged h'

/-- How an activity ends that logs and reads: with a value, or with a fault if something is in its
way. -/
inductive Host.Ended {α : Type} (h : Host) (value : α) (fault : Fault) (hindered : Prop) :
    Except Fault α × Host → Prop
  | given {h' : Host} (logged : h.Logged h') (free : ¬ hindered) :
    Ended h value fault hindered (.ok value, h')
  | stopped {h' : Host} (logged : h.Logged h') (caught : hindered) :
    Ended h value fault hindered (.error fault, h')

namespace Host.Ended

variable {α β : Type} {value value' : α} {b : β} {fault : Fault} {hindered hindered' : Prop}
  {h h' : Host}

theorem congr {done : Except Fault α × Host} (ended : h.Ended value fault hindered done)
    (same : value = value')
    (iff : hindered ↔ hindered') : h.Ended value' fault hindered' done := by
  obtain rfl := same
  obtain rfl := propext iff
  exact ended

/-- The second of two activities begins only if nothing was in the way of the first. -/
theorem bind {act : Action α} {f : α → Action β}
    (first : h.Ended value fault hindered (act.perform h'))
    (rest : ∀ h'', h.Logged h'' → ¬ hindered → h.Ended b fault hindered' ((f value).perform h'')) :
    h.Ended b fault (hindered ∨ hindered') ((act >>= f).perform h') := by
  rw [Action.perform_bind]
  generalize act.perform h' = done at first
  cases first with
  | given logged free => exact (rest _ logged free).congr rfl (or_iff_right free).symm
  | stopped logged caught => exact .stopped logged (.inl caught)

/-- Logging comes in nobody's way. -/
theorem record {act : Action Unit} {f : Unit → Action β} (records : act.Records)
    (logged : h.Logged h') (ready : h.LogReady)
    (rest : ∀ h'', h.Logged h'' → h.Ended b fault hindered ((f ⟨⟩).perform h'')) :
    h.Ended b fault hindered ((act >>= f).perform h') := by
  obtain ⟨h'', noted, logged'⟩ := records h' (logged.shows.ready ready)
  rw [Action.perform_bind_ok noted]
  exact rest h'' (logged.trans logged')

end Host.Ended

namespace Log

open ContractCheck.Action
open ContractCheck.Path (Usable)

variable {h : Host}

/-- Opening the log makes the file that the settings name, or says that it cannot be opened.  Only a
fault that is not the system's stops it. -/
theorem openOutputs_cases {settings : LoggingSettings} (planned : h.log = .planned settings) :
    (∃ outputs h', (openOutputs settings).perform h = (.ok outputs, h') ∧
      h.Logged { h' with log := .opened outputs }) ∨
    ∃ e h', (openOutputs settings).perform h = (.error e, h') ∧ e.fromSystem = false := by
  have will : h.LogPlanned := ⟨settings, planned⟩
  have nowhere : ∀ path ∈ (none : Option Text), h.AtLog (placeOf h.cwd path) :=
    fun _ none => absurd none (Option.not_mem_none _)
  unfold openOutputs
  rw [perform_bind_ok (perform_get h)]
  dsimp only
  split
  · exact .inr ⟨_, h, rfl, rfl⟩
  · exact .inl ⟨_, h, rfl, .of_opened rfl rfl rfl rfl rfl rfl nowhere (.refl ..)⟩
  · next path named =>
    have files : h.logFiles = [path, Path.Posix.absolute h.directory path] := by
      simp only [Host.logFiles, planned, named]
    have own : h.AtLog (placeOf h.cwd path) := ⟨path, by simp [files], rfl⟩
    have absolute : h.AtLog (placeOf h.cwd (Path.Posix.absolute h.directory path)) :=
      ⟨_, by simp [files], rfl⟩
    have made : h.files.AlikeBut h.AtLog (fun _ => h.LogPlanned)
        (h.files.makeDirectories h.cwd (Path.Posix.parent path)).1 :=
        FileSystem.makeDirectories_alike (fun _ => will) ..
    rw [perform_orSystem, perform_bind, perform_makeDirectories]
    cases (h.files.makeDirectories h.cwd (Path.Posix.parent path)).2 with
    | some e =>
      dsimp only [andThen, orElse]
      split
      · exact .inl ⟨_, _, rfl, .of_opened rfl rfl rfl rfl rfl rfl nowhere made⟩
      · next foreign => exact .inr ⟨_, _, rfl, eq_false_of_ne_true foreign⟩
    | none =>
      dsimp only [andThen]
      rw [perform_bind, perform_change]
      dsimp only
      split
      · next fs added =>
        refine .inl ⟨_, _, rfl, .of_opened rfl rfl rfl rfl rfl rfl (fun path' mem => ?_)
          (made.trans (FileSystem.update_alike added own))⟩
        obtain rfl := Option.some.inj mem
        exact absolute
      · dsimp only [andThen, orElse]
        split
        · exact .inl ⟨_, _, rfl, .of_opened rfl rfl rfl rfl rfl rfl nowhere made⟩
        · next foreign => exact .inr ⟨_, _, rfl, eq_false_of_ne_true foreign⟩

theorem open_cases (h : Host) : (∃ h', open_.perform h = (.ok ⟨⟩, h') ∧ h.Logged h') ∨
    ∃ e h', open_.perform h = (.error e, h') ∧ e.fromSystem = false := by
  unfold open_
  rw [perform_bind_ok (perform_get h)]
  split
  · next settings planned =>
    rcases openOutputs_cases planned with ⟨outputs, h', opened, logged⟩ | ⟨e, h', failed, foreign⟩
    · exact .inl ⟨_, perform_bind_ok opened, logged⟩
    · exact .inr ⟨e, h', perform_bind_error failed, foreign⟩
  · exact .inl ⟨h, rfl, .refl h⟩

theorem open_logged : Records open_ := by
  intro h ready
  obtain ⟨h', opened, -⟩ := open_logs h ready
  rcases open_cases h with logged | ⟨e, h'', failed, -⟩
  · exact logged
  · cases opened.symm.trans failed

theorem writeTo_logged {outputs : Outputs} (r : Record) (opened : h.log = .opened outputs) :
    h.Logged (writeTo outputs r h) := by
  obtain ⟨h', shows, ends⟩ := writeTo_cases outputs r h
  have shown : h.Logged h' ∧ h'.log = .opened outputs := by
    rcases shows with rfl | rfl
    · exact ⟨.refl h', opened⟩
    · exact ⟨.complained h _, opened⟩
  rcases ends with same | ⟨path, fs, file, added, filed⟩
  · exact same ▸ shown.1
  · have here : h'.AtLog (placeOf h'.cwd path) :=
      ⟨path, by simp [Host.logFiles, shown.2, file], rfl⟩
    refine filed ▸ shown.1.trans ?_
    exact ⟨.files h' fs, id, fun _ => id, FileSystem.update_alike added here⟩

theorem record_logged (r : Record) (h : Host) : h.Logged (record r h) := by
  rcases record_cases r h with same | ⟨_, -, kept⟩ | ⟨outputs, opened, written⟩
  · rw [same]
    exact .refl h
  · exact kept ▸ ⟨.logged nofun, nofun, nofun, .refl ..⟩
  · exact written ▸ writeTo_logged r opened

/-- A record goes to the log, and that is all, unless the log fails with a fault that is not the
system's. -/
theorem write_cases (level : LogLevel) (owner message : Text) (context : Fields) (h : Host) :
    (∃ h', (write level owner message context).perform h = (.ok ⟨⟩, h') ∧ h.Logged h') ∨
      ∃ e h', (write level owner message context).perform h = (.error e, h') ∧
        e.fromSystem = false := by
  unfold write
  rcases open_cases h with ⟨h', opened, logged⟩ | ⟨e, h', failed, foreign⟩
  · exact .inl ⟨_, perform_bind_ok opened, logged.trans (record_logged _ h')⟩
  · exact .inr ⟨e, h', perform_bind_error failed, foreign⟩

/-- **A record goes to the log**, and that is all. -/
theorem write_logged (level : LogLevel) (owner message : Text) (context : Fields) :
    Records (write level owner message context) := by
  intro h ready
  obtain ⟨h', written, -⟩ := write_logs level owner message context h ready
  rcases write_cases level owner message context h with logged | ⟨e, h'', failed, -⟩
  · exact logged
  · cases written.symm.trans failed

theorem debug_logged (owner : String) (message : Text) (context : Fields) :
    Records (debug owner message context) :=
  write_logged .debug owner.toList message context

end Log

/-! ## Logs that stay where they are -/

open ContractCheck.Action

variable {h h' h'' : Host}

namespace Host

/-- A host with an open log, in the files in which the log of another host is. -/
structure SameLog (h h' : Host) : Prop where
  opened : ¬ h'.LogPlanned
  cwd : h'.cwd = h.cwd
  files : h'.logFiles = h.logFiles

namespace SameLog

theorem of_log (opened : ¬ h.LogPlanned) (log : h'.log = h.log) (cwd : h'.cwd = h.cwd) :
    h.SameLog h' where
  opened := by
    rintro ⟨settings, planned⟩
    exact opened ⟨settings, log.symm.trans planned⟩
  cwd := cwd
  files := by
    rw [logFiles, logFiles, log]
    -- Only the files of a log that is still to be opened depend on more than the log.
    cases sink : h.log with
    | planned settings => exact absurd ⟨settings, sink⟩ opened
    | nowhere => rfl
    | memory records => rfl
    | opened outputs => rfl

theorem refl (opened : ¬ h.LogPlanned) : h.SameLog h := of_log opened rfl rfl

theorem trans (first : h.SameLog h') (second : h'.SameLog h'') : h.SameLog h'' :=
  ⟨second.opened, second.cwd.trans first.cwd, second.files.trans first.files⟩

theorem atLog (same : h.SameLog h') {q : Place} : h'.AtLog q ↔ h.AtLog q := by
  unfold AtLog
  rw [same.files, same.cwd]

end SameLog
end Host

/-- An activity that leaves the log where it is, once it is open. -/
def Action.KeepsLog {α : Type} (act : Action α) : Prop :=
  ∀ h : Host, ¬ h.LogPlanned → h.SameLog (act.perform h).2

namespace Action.KeepsLog

variable {α β : Type} {act : Action α}

theorem pure (a : α) : KeepsLog (Pure.pure a : Action α) := fun _ => .refl

theorem throw (e : Fault) : KeepsLog (MonadExcept.throw e : Action α) := fun _ => .refl

theorem bind {f : α → Action β} (first : act.KeepsLog) (rest : ∀ a, (f a).KeepsLog) :
    KeepsLog (act >>= f) := by
  intro h opened
  have same := first h opened
  rw [perform_bind]
  cases performed : act.perform h with
  | mk outcome h' =>
    rw [performed] at same
    cases outcome with
    | ok a => exact same.trans (rest a h' same.opened)
    | error e => exact same

theorem tryCatch {handle : Fault → Action α} (first : act.KeepsLog)
    (caught : ∀ e, (handle e).KeepsLog) :
    KeepsLog (MonadExcept.tryCatch act handle) := by
  intro h opened
  have same := first h opened
  rw [perform_tryCatch]
  cases performed : act.perform h with
  | mk outcome h' =>
    rw [performed] at same
    cases outcome with
    | ok a => exact same
    | error e => exact same.trans (caught e h' same.opened)

theorem change (f : FileSystem → Place → Text → Except FileError FileSystem) (path : Text) :
    KeepsLog (Action.change f path) := by
  intro h opened
  rw [perform_change]
  split
  · exact .of_log opened rfl rfl
  · exact .refl opened

end Action.KeepsLog

namespace Log

theorem writeTo_log (outputs : Outputs) (r : Record) (h : Host) :
    (writeTo outputs r h).log = h.log ∧ (writeTo outputs r h).cwd = h.cwd := by
  obtain ⟨h', shows, ends⟩ := writeTo_cases outputs r h
  have shown : h'.log = h.log ∧ h'.cwd = h.cwd := by
    rcases shows with rfl | rfl <;> exact ⟨rfl, rfl⟩
  rcases ends with same | ⟨path, fs, -, -, filed⟩
  · exact same ▸ shown
  · exact filed ▸ shown

theorem record_sameLog (r : Record) (opened : ¬ h.LogPlanned) : h.SameLog (record r h) := by
  rcases record_cases r h with same | ⟨rs, memory, kept⟩ | ⟨outputs, -, written⟩
  · rw [same]
    exact .refl opened
  · rw [kept]
    refine ⟨?_, rfl, ?_⟩
    · rintro ⟨settings, planned⟩
      cases planned
    · rw [Host.logFiles, Host.logFiles, memory]
  · rw [written]
    obtain ⟨log, cwd⟩ := writeTo_log outputs r h
    exact .of_log opened log cwd

theorem write_keepsLog (level : LogLevel) (owner message : Text) (context : Fields) :
    KeepsLog (write level owner message context) := by
  intro h opened
  unfold write
  rw [perform_bind_ok (perform_open fun settings planned => opened ⟨settings, planned⟩)]
  exact record_sameLog _ opened

theorem debug_keepsLog (owner : String) (message : Text) (context : Fields) :
    KeepsLog (debug owner message context) :=
  write_keepsLog .debug owner.toList message context

/-- A log that was opened is open. -/
theorem open_opens {u : Unit} (done : open_.perform h = (.ok u, h')) : ¬ h'.LogPlanned := by
  unfold open_ at done
  rw [perform_bind_ok (perform_get h)] at done
  rintro ⟨settings, planned⟩
  split at done
  · obtain ⟨outputs, h₂, -, set⟩ := ok_of_bind done
    obtain rfl := (Prod.mk.inj set).2
    cases planned
  · next other =>
    obtain rfl := (Prod.mk.inj done).2
    exact other settings planned

/-- **Once a record was written, the log is open.** -/
theorem write_opens {level : LogLevel} {owner message : Text} {context : Fields}
    (done : (write level owner message context).perform h = (.ok ⟨⟩, h')) : ¬ h'.LogPlanned := by
  unfold write at done
  obtain ⟨_, h₁, opened, recorded⟩ := ok_of_bind done
  obtain rfl := (Prod.mk.inj recorded).2
  exact (record_sameLog _ (open_opens opened)).opened

end Log

end ContractCheck
