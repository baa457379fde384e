import ContractCheck.Host.Logging
import ContractCheck.Proofs.FileSystem.Standing
import ContractCheck.Proofs.Host.Performing

/-! # Hosts after runs of tools

A tool is started in the directory and the environment of the host, and how it ended can be told
from the note of its run.  A host follows another one after runs of tools if these are what was
noted since (`Host.Follows`), and it shows them if what they wrote is what the transcript has more
(`Host.Shows`).

Writing to the log runs no tool, takes no entry away from the file system, and never fails if the
log is ready (`Log.write_logs`).  It is ready when it is off or open.  One that is still to be
opened is ready if its path can be told and is one that the system takes (`Host.LogReady`); whether
the file can be made does not matter, as a log that the system refuses is left out.  That a log may
fail to be ready is a slip of what opens it, and where the first record of an activity meets such a
log, the activity fails.  Whoever asks for `LogReady` asks for this, and for nothing about the
files.
-/
namespace ContractCheck

open ContractCheck.Path (Usable)

/-- What a tool wrote that ended: its output and its complaints, if there are any. -/
def Finished.shown (f : Finished) : List Text :=
  [Utf8.readLenient f.output, Utf8.readLenient f.errors].filter fun t => !t.isEmpty

namespace Host

/-- How a run of a tool ended. -/
def outcome (h : Host) (r : ToolRun) : Except FileError Finished :=
  (h.tools h.cwd h.environment r.invocation r.files).1

/-- The files as a run of a tool left them. -/
def filesAfter (h : Host) (r : ToolRun) : FileSystem :=
  (h.tools h.cwd h.environment r.invocation r.files).2

/-- What a run of a tool added to the transcript. -/
def written (h : Host) (r : ToolRun) : List Text :=
  match h.outcome r with
  | .ok f => f.shown
  | .error _ => []

/-- Whether the log is open, or can be opened for its first record. -/
def LogReady (h : Host) : Prop :=
  ∀ settings, h.log = .planned settings →
    ∃ file, Log.fileFor? h settings = some file ∧ ∀ path ∈ file, Usable path

/-- A host that is to keep its log in the home of somebody it does not know. -/
def homeless : Host where
  files := .blank
  log := .planned { file := true, filePath := some "~nobody/x.log".toList }

/-- A host after runs of tools, whatever became of its files. -/
structure Follows (h : Host) (new : List ToolRun) (h' : Host) : Prop where
  cwd : h'.cwd = h.cwd
  environment : h'.environment = h.environment
  tools : h'.tools = h.tools
  ready : h.LogReady → h'.LogReady
  runs : h'.runs = h.runs ++ new

/-- A host after runs of tools whose output is in the transcript. -/
structure Shows (h : Host) (new : List ToolRun) (h' : Host) : Prop extends h.Follows new h' where
  transcript : h'.transcript = h.transcript ++ new.flatMap h.written

/-- A host after nothing but logging. -/
structure Beside (h h' : Host) : Prop where
  shows : h.Shows [] h'
  grows : h.files.Grows h'.files

variable {h h' h'' : Host} {new more : List ToolRun}

theorem ready_of_same (log : h'.log = h.log) (environment : h'.environment = h.environment)
    (ready : h.LogReady) : h'.LogReady := by
  intro settings planned
  have same : Log.fileFor? h' settings = Log.fileFor? h settings := by
    simp only [Log.fileFor?, Log.defaultFile, expandHome?, home, lookUp?, environment]
  rw [same]
  exact ready settings (log.symm.trans planned)

/-- What tells how runs of tools ended is the same for all hosts that follow. -/
theorem Follows.outcome (f : h.Follows new h') : h'.outcome = h.outcome := by
  funext r
  rw [Host.outcome, Host.outcome, f.tools, f.cwd, f.environment]

theorem Follows.filesAfter (f : h.Follows new h') : h'.filesAfter = h.filesAfter := by
  funext r
  rw [Host.filesAfter, Host.filesAfter, f.tools, f.cwd, f.environment]

theorem Follows.written (f : h.Follows new h') : h'.written = h.written := by
  funext r
  rw [Host.written, Host.written, f.outcome]

theorem Follows.directory (f : h.Follows new h') : h'.directory = h.directory := by
  rw [Host.directory, Host.directory, f.cwd]

theorem Follows.trans (f : h.Follows new h') (g : h'.Follows more h'') :
    h.Follows (new ++ more) h'' where
  cwd := g.cwd.trans f.cwd
  environment := g.environment.trans f.environment
  tools := g.tools.trans f.tools
  ready := g.ready ∘ f.ready
  runs := by rw [g.runs, f.runs, List.append_assoc]

theorem Shows.trans (f : h.Shows new h') (g : h'.Shows more h'') : h.Shows (new ++ more) h'' where
  toFollows := f.toFollows.trans g.toFollows
  transcript := by
    rw [g.transcript, f.transcript, f.written, List.flatMap_append, List.append_assoc]

/-- A change of files alone, or of what is printed. -/
theorem Shows.of_same (log : h'.log = h.log) (cwd : h'.cwd = h.cwd)
    (environment : h'.environment = h.environment) (tools : h'.tools = h.tools)
    (runs : h'.runs = h.runs) (transcript : h'.transcript = h.transcript) :
    h.Shows [] h' where
  cwd := cwd
  environment := environment
  tools := tools
  ready := ready_of_same log environment
  runs := by rw [runs, List.append_nil]
  transcript := by rw [transcript, List.flatMap_nil, List.append_nil]

theorem Shows.refl (h : Host) : h.Shows [] h := .of_same rfl rfl rfl rfl rfl rfl

/-- Nothing but files changed. -/
theorem Shows.files (h : Host) (fs : FileSystem) : h.Shows [] { h with files := fs } :=
  .of_same rfl rfl rfl rfl rfl rfl

theorem Beside.refl (h : Host) : h.Beside h := ⟨.refl h, .refl _⟩

theorem Beside.trans (f : h.Beside h') (g : h'.Beside h'') : h.Beside h'' :=
  ⟨f.shows.trans g.shows, f.grows.trans g.grows⟩

/-- Of a host whose log is ready nothing but the log changes, and it is no plan then. -/
theorem Shows.logged {log : Log.Sink} (opened : ∀ settings, log ≠ .planned settings) :
    h.Shows [] { h with log } where
  cwd := rfl
  environment := rfl
  tools := rfl
  ready _ := fun settings planned => absurd planned (opened settings)
  runs := (List.append_nil _).symm
  transcript := (List.append_nil _).symm

end Host

/-! ## Activities that only log -/

/-- An activity that does nothing but logging, and does not fail if the log is ready. -/
def Action.Logs (act : Action Unit) : Prop :=
  ∀ h : Host, h.LogReady → ∃ h', act.perform h = (.ok ⟨⟩, h') ∧ h.Beside h'

namespace Action

theorem Logs.bind {act act' : Action Unit} (first : act.Logs) (rest : act'.Logs) :
    Logs (act >>= fun _ => act') := by
  intro h ready
  obtain ⟨h', performed, beside⟩ := first h ready
  obtain ⟨h'', performed', beside'⟩ := rest h' (beside.shows.ready ready)
  exact ⟨h'', (perform_bind_ok performed).trans performed', beside.trans beside'⟩

theorem Logs.pure : Logs (Pure.pure ⟨⟩) := fun h _ => ⟨h, rfl, .refl h⟩

end Action

namespace Log

open ContractCheck.Action

/-- Opening the log makes its file, or says that it cannot be opened. -/
theorem openOutputs_perform {h : Host} {settings : LoggingSettings} {file : Option Text}
    (named : fileFor? h settings = some file) (usable : ∀ path ∈ file, Usable path) :
    ∃ outputs h', (openOutputs settings).perform h = (.ok outputs, h') ∧ h.Beside h' := by
  unfold openOutputs
  rw [perform_bind_ok (perform_get h), named]
  cases file with
  | none => exact ⟨_, h, rfl, .refl h⟩
  | some path =>
    have ours := usable path rfl
    have made := FileSystem.makeDirectories_grows h.files h.cwd (Path.Posix.parent path)
    dsimp only
    rw [perform_orSystem, perform_bind, perform_makeDirectories]
    cases failed : (h.files.makeDirectories h.cwd (Path.Posix.parent path)).2 with
    | some e =>
      have own := FileSystem.makeDirectories_fromSystem ours.parent failed
      dsimp only [andThen, orElse]
      rw [if_pos (show (Fault.file e (Path.Posix.parent path)).fromSystem = true from own)]
      exact ⟨_, _, rfl, .of_same rfl rfl rfl rfl rfl rfl, made⟩
    | none =>
      dsimp only [andThen]
      rw [perform_bind, perform_change]
      dsimp only
      split
      · next fs added =>
        exact ⟨_, _, rfl, .of_same rfl rfl rfl rfl rfl rfl,
          made.trans (FileSystem.update_grows added)⟩
      · next e refused =>
        have own := FileSystem.update_fromSystem ours refused
        dsimp only [andThen, orElse]
        rw [if_pos (show (Fault.file e path).fromSystem = true from own)]
        exact ⟨_, _, rfl, .of_same rfl rfl rfl rfl rfl rfl, made⟩

theorem open_logs : Logs open_ := by
  intro h ready
  unfold open_
  rw [perform_bind_ok (perform_get h)]
  split
  · next settings planned =>
    obtain ⟨file, named, usable⟩ := ready settings planned
    obtain ⟨outputs, h', performed, beside⟩ := openOutputs_perform named usable
    rw [perform_bind_ok performed]
    exact ⟨_, rfl, beside.trans ⟨.logged nofun, .refl _⟩⟩
  · exact ⟨h, rfl, .refl h⟩

theorem writeTo_beside (outputs : Outputs) (r : Record) (h : Host) :
    h.Beside (writeTo outputs r h) := by
  obtain ⟨h', shows, ends⟩ := writeTo_cases outputs r h
  -- The standard error output is no file.
  have shown : h.Beside h' := by
    rcases shows with rfl | rfl
    · exact .refl h'
    · exact ⟨.of_same rfl rfl rfl rfl rfl rfl, .refl _⟩
  rcases ends with same | ⟨path, fs, -, added, filed⟩
  · exact same ▸ shown
  · exact filed ▸ shown.trans ⟨.files h' fs, FileSystem.update_grows added⟩

theorem record_beside (r : Record) (h : Host) : h.Beside (record r h) := by
  rcases record_cases r h with same | ⟨_, -, kept⟩ | ⟨outputs, -, written⟩
  · rw [same]
    exact .refl h
  · exact kept ▸ ⟨.logged nofun, .refl _⟩
  · exact written ▸ writeTo_beside ..

/-- **Writing to the log never fails**, if the log can be opened. -/
theorem write_logs (level : LogLevel) (owner message : Text) (context : Fields) :
    Logs (write level owner message context) :=
  open_logs.bind fun h _ => ⟨_, rfl, record_beside _ h⟩

theorem debug_logs (owner : String) (message : Text) (context : Fields) :
    Logs (debug owner message context) :=
  write_logs .debug owner.toList message context

theorem info_logs (owner : String) (message : Text) (context : Fields) :
    Logs (info owner message context) :=
  write_logs .info owner.toList message context

theorem warning_logs (owner : String) (message : Text) (context : Fields) :
    Logs (warning owner message context) :=
  write_logs .warning owner.toList message context

end Log
end ContractCheck
