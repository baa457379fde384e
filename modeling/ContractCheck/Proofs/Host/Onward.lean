import ContractCheck.Proofs.Host.Logged
import Mathlib.Order.Defs.Unbundled

/-! # What stays through an activity

What an activity may do to a host is a relation of the hosts before and after it.  If the relation
holds of a host and itself and of whatever can be reached in two steps, then an activity is within
it as soon as its parts are (`Action.Within`).

Two such relations are of use.  What only adds to files, like writing to the log, loses nothing that
was there (`Host.Adds`).  And an activity among tools that leave some paths alone leaves them alone
itself, but for those that it changes (`Premises.Step`).
-/
namespace ContractCheck

open FileSystem (placeOf)

/-- Whether an activity does no more to a host than a relation allows, whatever it gives. -/
def Action.Within {α : Type} (R : Host → Host → Prop) (act : Action α) : Prop :=
  ∀ h : Host, R h (act.perform h).2

namespace Action.Within

variable {R : Host → Host → Prop} {α β : Type} {act : Action α} {h h' : Host}

theorem after {outcome : Except Fault α} (within : Within R act)
    (done : act.perform h = (outcome, h')) : R h h' := by
  have allowed := within h
  rwa [done] at allowed

section Refl

variable [Std.Refl R]

/-- An activity that lets every host be. -/
theorem of_still (still : Within Eq act) : Within R act := by
  intro h
  rw [← still h]
  exact refl_of R h

theorem pure (a : α) : Within R (Pure.pure a : Action α) := refl_of R

theorem throw (e : Fault) : Within R (MonadExcept.throw e : Action α) := refl_of R

theorem get : Within R (MonadState.get : Action Host) := refl_of R

theorem look (f : FileSystem → Place → Text → α) (path : Text) : Within R (Action.look f path) :=
  refl_of R

theorem ask (f : FileSystem → Place → Text → Except FileError α) (path : Text) :
    Within R (Action.ask f path) := by
  refine of_still fun h => ?_
  rw [perform_ask]

end Refl

variable [IsTrans Host R]

theorem bind {f : α → Action β} (first : Within R act) (rest : ∀ a, Within R (f a)) :
    Within R (act >>= f) := by
  intro h
  rw [perform_bind]
  cases performed : act.perform h with
  | mk outcome h' =>
    have here := first.after performed
    cases outcome with
    | ok a => exact trans_of R here (rest a h')
    | error e => exact here

theorem tryCatch {handle : Fault → Action α} (first : Within R act)
    (caught : ∀ e, Within R (handle e)) :
    Within R (MonadExcept.tryCatch act handle) := by
  intro h
  rw [perform_tryCatch]
  cases performed : act.perform h with
  | mk outcome h' =>
    have here := first.after performed
    cases outcome with
    | ok a => exact here
    | error e => exact trans_of R here (caught e h')

theorem orSystem {handle : Fault → Action α} [Std.Refl R] (first : Within R act)
    (caught : ∀ e, Within R (handle e)) :
    Within R (Action.orSystem act handle) := by
  refine first.tryCatch fun e => ?_
  split
  · exact caught e
  · exact throw e

end Action.Within

/-! ## Activities that only add -/

/-- A host in which nothing is lost: what stood somewhere still does, the same files cannot be read,
and what tools wrote is there. -/
structure Host.Adds (h h' : Host) : Prop where
  grows : h.files.Grows h'.files
  locked : ∀ q, h'.files.locked q = h.files.locked q
  transcript : h.transcript <+: h'.transcript

namespace Host.Adds

instance : Std.Refl Host.Adds := ⟨fun _ => ⟨.refl _, fun _ => rfl, List.prefix_rfl⟩⟩

instance : IsTrans Host Host.Adds :=
  ⟨fun _ _ _ first second =>
    ⟨first.grows.trans second.grows, fun q => (second.locked q).trans (first.locked q),
    first.transcript.trans second.transcript⟩⟩

theorem of_same {h h' : Host} (files : h'.files = h.files)
    (transcript : h.transcript <+: h'.transcript) : h.Adds h' :=
  ⟨files ▸ .refl _, fun _ => files ▸ rfl, transcript⟩

end Host.Adds

theorem FileSystem.isThere_written {fs fs' : FileSystem} {cwd : Place} {path : Text}
    {content : Bytes}
    (written : fs.write cwd path content = .ok fs') : fs'.isThere cwd path = true := by
  obtain ⟨p, m, found⟩ := find_written written
  exact isThere_of_find found

/-- A file that may be run is the same file otherwise. -/
theorem FileSystem.makeExecutable_grows {fs fs' : FileSystem} {cwd : Place} {path : Text}
    (done : fs.makeExecutable cwd path = .ok fs') : fs.Grows fs' := by
  unfold makeExecutable at done
  cases found : fs.find cwd path with
  | error e =>
    rw [found] at done
    cases done
  | ok entry =>
    obtain ⟨p, n⟩ := entry
    rw [found] at done
    cases n with
    | directory =>
      obtain rfl := Except.ok.inj done
      exact .refl _
    | file content x =>
      obtain rfl := Except.ok.inj done
      refine grows_set fun directory => ?_
      cases (find_place found).2.symm.trans directory

namespace Action

theorem change_adds {f : FileSystem → Place → Text → Except FileError FileSystem} {path : Text}
    (adds : ∀ fs cwd fs', f fs cwd path = .ok fs' → fs.Grows fs' ∧
      ∀ q, fs'.locked q = fs.locked q) :
    Within Host.Adds (change f path) := by
  intro h
  rw [perform_change]
  split
  · next fs changed =>
    obtain ⟨grows, locked⟩ := adds h.files h.cwd fs changed
    exact ⟨grows, locked, List.prefix_rfl⟩
  · exact refl_of _ h

theorem append_adds (content : Bytes) (path : Text) :
    Within Host.Adds (change (fun fs cwd p => fs.append cwd p content) path) :=
  change_adds fun _ _ _ added => ⟨FileSystem.update_grows added, FileSystem.update_locked added⟩

theorem writeFile_adds (path : Text) (content : Bytes) :
    Within Host.Adds (writeFile path content) :=
  change_adds fun _ _ _ wrote => ⟨FileSystem.update_grows wrote, FileSystem.update_locked wrote⟩

theorem makeDirectories_adds (path : Text) : Within Host.Adds (makeDirectories path) := by
  intro h
  rw [perform_makeDirectories]
  exact ⟨FileSystem.makeDirectories_grows .., FileSystem.makeDirectories_locked _ _ _,
    List.prefix_rfl⟩

theorem writeFile_done {h h' : Host} {path : Text} {content : Bytes}
    (done : (writeFile path content).perform h = (.ok ⟨⟩, h')) :
    ∃ fs, h.files.write h.cwd path content = .ok fs ∧ h' = { h with files := fs } := by
  unfold writeFile at done
  rw [perform_change] at done
  split at done
  · next fs written => exact ⟨fs, written, (Prod.mk.inj done).2.symm⟩
  · cases done

/-- What succeeds although it is given up for any fault from the file system was not given up. -/
theorem ok_of_orSystem {α : Type} {act : Action α} {e : Fault} {a : α} {h h' : Host}
    (done : (orSystem act fun _ => throw e).perform h = (.ok a, h')) :
    act.perform h = (.ok a, h') := by
  rw [perform_orSystem] at done
  cases performed : act.perform h with
  | mk outcome h₁ =>
    rw [performed] at done
    cases outcome with
    | ok b => exact done
    | error e' =>
      dsimp only [orElse] at done
      split at done <;> cases done

/-- What changes no file and nothing that tools wrote. -/
theorem modify_adds {f : Host → Host} (files : ∀ h, (f h).files = h.files)
    (transcript : ∀ h : Host, h.transcript <+: (f h).transcript) :
    Within Host.Adds (modify f : Action PUnit) := fun h => .of_same (files h) (transcript h)

end Action

namespace Log

open ContractCheck.Action

theorem openOutputs_adds (settings : LoggingSettings) :
    Within Host.Adds (openOutputs settings) := by
  refine .bind (fun h => refl_of _ h) fun h => ?_
  dsimp only
  split
  · exact .throw _
  · exact .pure _
  · refine .orSystem (.bind (makeDirectories_adds _) fun _ => .bind (append_adds [] _) fun _ =>
      .pure _) fun e => ?_
    exact .bind (modify_adds (fun _ => rfl) fun _ => List.prefix_rfl) fun _ => .pure _

theorem record_adds (r : Record) (h : Host) : h.Adds (record r h) := by
  rcases record_cases r h with same | ⟨_, -, kept⟩ | ⟨outputs, -, written⟩
  · rw [same]
    exact refl_of _ h
  · exact kept ▸ .of_same rfl List.prefix_rfl
  · rw [written]
    obtain ⟨h', shows, ends⟩ := writeTo_cases outputs r h
    have shown : h.Adds h' := by
      rcases shows with rfl | rfl
      · exact refl_of _ h'
      · exact .of_same rfl List.prefix_rfl
    rcases ends with same | ⟨path, fs, -, added, filed⟩
    · exact same ▸ shown
    · refine filed ▸ trans_of _ shown ?_
      exact ⟨FileSystem.update_grows added, FileSystem.update_locked added, List.prefix_rfl⟩

theorem open_adds : Within Host.Adds open_ := by
  refine .bind .get fun h => ?_
  split
  · exact .bind (openOutputs_adds _) fun _ => modify_adds (fun _ => rfl) fun _ => List.prefix_rfl
  · exact .pure _

/-- **Logging only adds**, whether it fails or not. -/
theorem write_adds (level : LogLevel) (owner message : Text) (context : Fields) :
    Within Host.Adds (write level owner message context) :=
  .bind open_adds fun _ h => record_adds _ h

end Log

/-! ## Paths that are left alone -/

/-- Whether something still stands at some paths where something did, and others are still read
alike. -/
structure FileSystem.Stays (cwd : Place) (site note : Text → Prop) (fs fs' : FileSystem) :
    Prop where
  there : ∀ path, site path → fs.isThere cwd path = true → fs'.isThere cwd path = true
  read : ∀ path, note path → ∀ bytes, fs.read cwd path = .ok bytes → fs'.read cwd path = .ok bytes
  locked : ∀ path, note path → fs.locked (placeOf cwd path) = false →
    fs'.locked (placeOf cwd path) = false

namespace FileSystem

namespace Stays

variable {cwd : Place} {site note : Text → Prop} {fs fs' fs'' : FileSystem}

theorem refl (cwd : Place) (site note : Text → Prop) (fs : FileSystem) :
    Stays cwd site note fs fs :=
  ⟨fun _ _ => id, fun _ _ _ => id, fun _ _ => id⟩

theorem trans (first : Stays cwd site note fs fs') (second : Stays cwd site note fs' fs'') :
    Stays cwd site note fs fs'' where
  there path kept := second.there path kept ∘ first.there path kept
  read path kept bytes := second.read path kept bytes ∘ first.read path kept bytes
  locked path kept := second.locked path kept ∘ first.locked path kept

theorem mono {note' : Text → Prop} (stays : Stays cwd site note fs fs')
    (fewer : ∀ path, note' path → note path) :
    Stays cwd site note' fs fs' :=
  ⟨stays.there, fun path kept => stays.read path (fewer path kept),
    fun path kept => stays.locked path (fewer path kept)⟩

/-- What only adds to files, and to none that is to be read alike. -/
theorem of_grows (grows : fs.Grows fs') (locked : ∀ q, fs'.locked q = fs.locked q)
    (content : ∀ path, note path → fs'.content? (placeOf cwd path) =
      fs.content? (placeOf cwd path)) :
    Stays cwd site note fs fs' where
  there _ _ := grows.isThere
  read path kept bytes done := by
    obtain ⟨p, x, led, there, allowed⟩ := read_iff.mp done
    have same := content path kept
    rw [← resolve_place led, FileSystem.content?, FileSystem.content?, there] at same
    have there' : ∃ x', fs'.get? p = some (.file bytes x') := by
      split at same
      · next content x' here =>
        obtain rfl := Option.some.inj same
        exact ⟨x', here⟩
      · cases same
    obtain ⟨x', there'⟩ := there'
    have open_ := locked p
    rw [FileSystem.locked, FileSystem.locked, there, there'] at open_
    exact read_iff.mpr ⟨p, x', grows.resolve led, there', by simpa [allowed] using open_⟩
  locked path _ open_ := (locked _).trans open_

end Stays
end FileSystem

/-- What surrounds an activity: the tools in it, the runs of them that are expected, paths where
something is to stay, and paths that are to be read alike.  The runs leave all of these alone. -/
structure Premises where
  cwd : Place
  environment : Environment
  tools : Tools
  expected : Invocation → Prop
  site : Text → Prop
  note : Text → Prop
  gentle : ∀ i, expected i → ∀ fs, FileSystem.Stays cwd site note fs (tools cwd environment i fs).2

/-- A host on premises, with a log that is kept elsewhere. -/
structure Host.On (h : Host) (π : Premises) : Prop where
  cwd : h.cwd = π.cwd
  environment : h.environment = π.environment
  tools : h.tools = π.tools
  log : ∀ file ∈ h.logFiles, ∀ path, π.note path → placeOf π.cwd path ≠ placeOf π.cwd file
  legible : ∀ path, π.note path → h.files.locked (placeOf π.cwd path) = false

theorem Host.On.outcome {h h' : Host} {π : Premises} (on : h.On π) (on' : h'.On π) :
    h'.outcome = h.outcome := by
  funext r
  rw [Host.outcome, Host.outcome, on.tools, on.cwd, on.environment, on'.tools, on'.cwd,
    on'.environment]

namespace Premises

variable (π : Premises)

/-- The scene in which no tool is run, and what is to be read alike is kept. -/
def scene : Scene where
  cwd := π.cwd
  environment := π.environment
  tools := π.tools
  expected _ := False
  kept q := ∃ path, π.note path ∧ placeOf π.cwd path = q
  gentle _ none := none.elim

/-- What an activity leaves that changes files at some places at most, and runs only some of the
tools. -/
structure Onward (changed : Place → Prop) (run : Invocation → Prop) (h h' : Host) : Prop where
  on : h'.On π
  stays : FileSystem.Stays π.cwd π.site (fun path => π.note path ∧ ¬ changed (placeOf π.cwd path))
    h.files h'.files
  transcript : h.transcript <+: h'.transcript
  runs : ∃ new, h'.runs = h.runs ++ new ∧ ∀ r ∈ new, run r.invocation

/-- What an activity may do on the premises. -/
def Step (changed : Place → Prop) (run : Invocation → Prop) (h h' : Host) : Prop :=
  h.On π → π.Onward changed run h h'

variable {π} {changed changed' : Place → Prop} {run run' : Invocation → Prop} {h h' h'' : Host}

namespace Onward

theorem refl (on : h.On π) : π.Onward changed run h h :=
  ⟨on, .refl .., List.prefix_rfl, [], (List.append_nil _).symm, nofun⟩

theorem trans (first : π.Onward changed run h h') (second : π.Onward changed run h' h'') :
    π.Onward changed run h h'' := by
  obtain ⟨new, runs, only⟩ := first.runs
  obtain ⟨new', runs', only'⟩ := second.runs
  refine ⟨second.on, first.stays.trans second.stays, first.transcript.trans second.transcript,
    new ++ new', ?_, ?_⟩
  · rw [runs', runs, List.append_assoc]
  · intro r mem
    exact (List.mem_append.mp mem).elim (only r) (only' r)

end Onward

instance : Std.Refl (π.Step changed run) := ⟨fun _ on => .refl on⟩

instance : IsTrans Host (π.Step changed run) :=
  ⟨fun _ _ _ first second on => (first on).trans (second (first on).on)⟩

/-- What only adds to files, and to none that is to be read alike but where they are changed. -/
theorem Onward.of_adds (on : h.On π) (adds : h.Adds h') (cwd : h'.cwd = h.cwd)
    (environment : h'.environment = h.environment) (tools : h'.tools = h.tools)
    (log : ∀ file ∈ h'.logFiles, ∀ path, π.note path → placeOf π.cwd path ≠ placeOf π.cwd file)
    (runs : h'.runs = h.runs)
    (content : ∀ path, π.note path → ¬ changed (placeOf π.cwd path) →
      h'.files.content? (placeOf π.cwd path) = h.files.content? (placeOf π.cwd path)) :
      π.Onward changed run h h' where
  on := ⟨cwd.trans on.cwd, environment.trans on.environment, tools.trans on.tools, log,
    fun path kept => (adds.locked _).trans (on.legible path kept)⟩
  stays := .of_grows adds.grows adds.locked fun path kept => content path kept.1 kept.2
  transcript := adds.transcript
  runs := ⟨[], runs.trans (List.append_nil _).symm, nofun⟩

/-- Something is shown and nothing else done. -/
theorem Onward.of_shown (on : h.On π) (texts : List Text) :
    π.Onward changed run h { h with transcript := h.transcript ++ texts } :=
  .of_adds on (.of_same rfl (List.prefix_append _ _)) rfl rfl rfl on.log rfl fun _ _ _ => rfl

/-- Something is printed and nothing else done. -/
theorem Onward.of_printed (on : h.On π) (t : Text) :
    π.Onward changed run h { h with printed := t } :=
  .of_adds on (.of_same rfl List.prefix_rfl) rfl rfl rfl on.log rfl fun _ _ _ => rfl

section Steps

open ContractCheck.Action

/-- What only adds to files runs no tool and changes no file that is kept. -/
theorem step_of_adds {α : Type} {act : Action α} (adds : Within Host.Adds act)
    (spares : π.scene.Spares (fun _ => False) act) : Within (π.Step changed run) act := by
  intro h on
  have scene : h.In π.scene :=
    ⟨on.cwd, on.environment, on.tools, fun file mem ⟨path, kept, same⟩ =>
      on.log file mem path kept same⟩
  obtain ⟨scene', content, new, runs, none⟩ := spares h scene
  obtain rfl : new = [] := List.eq_nil_iff_forall_not_mem.mpr fun r mem => (none r mem).1
  refine .of_adds on (adds h) ?_ ?_ ?_ ?_ (runs.trans (List.append_nil _)) ?_
  · rw [on.cwd, scene'.cwd]
    rfl
  · rw [on.environment, scene'.environment]
    rfl
  · rw [on.tools, scene'.tools]
    rfl
  · exact fun file mem path kept same => scene'.log file mem ⟨path, kept, same⟩
  · exact fun path kept _ => content _ ⟨path, kept, rfl⟩

theorem open_step : Within (π.Step changed run) Log.open_ :=
  step_of_adds Log.open_adds Log.open_spares

theorem log_step (level : LogLevel) (owner message : Text) (context : Fields) :
    Within (π.Step changed run) (Log.write level owner message context) :=
  step_of_adds (Log.write_adds level owner message context)
    (Log.write_spares level owner message context)

theorem change_step {f : FileSystem → Place → Text → Except FileError FileSystem} {path : Text}
    (adds : Within Host.Adds (change f path))
    (content : ∀ fs fs', f fs π.cwd path = .ok fs' → ∀ q, ¬ changed q →
      fs'.content? q = fs.content? q) :
    Within (π.Step changed run) (change f path) := by
  intro h on
  have added := adds h
  rw [perform_change] at added ⊢
  split at added
  · next fs done =>
    rw [on.cwd] at done
    exact .of_adds on added rfl rfl rfl on.log rfl fun path _ kept => content _ _ done _ kept
  · exact .refl on

theorem writeFile_step {path : Text} (here : changed (placeOf π.cwd path)) (content : Bytes) :
    Within (π.Step changed run) (writeFile path content) := by
  refine change_step (writeFile_adds path content) fun fs fs' wrote q kept =>
    (FileSystem.write_content wrote).2 q ?_
  rintro rfl
  exact kept here

theorem makeDirectories_step (path : Text) :
    Within (π.Step changed run) (makeDirectories path) := by
  intro h on
  have added := makeDirectories_adds path h
  rw [perform_makeDirectories] at added ⊢
  exact .of_adds on added rfl rfl rfl on.log rfl fun _ _ _ => FileSystem.makeDirectories_content ..

/-- A tool that is expected leaves alone what is to stay. -/
theorem runTool_step {i : Invocation} (expected : π.expected i) (ok : run i) :
    Within (π.Step changed run) (Action.runTool i) := by
  intro h on
  rw [perform_runTool]
  have stays : FileSystem.Stays π.cwd π.site π.note h.files
      (h.tools h.cwd h.environment i h.files).2 := by
    rw [on.tools, on.cwd, on.environment]
    exact π.gentle i expected h.files
  exact ⟨⟨on.cwd, on.environment, on.tools, on.log,
    fun path kept => stays.locked path kept (on.legible path kept)⟩,
    stays.mono fun _ => And.left, List.prefix_rfl, [_], rfl, List.forall_mem_singleton.mpr ok⟩

end Steps
end Premises
end ContractCheck
