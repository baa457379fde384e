import ContractCheck.Host.Logging
import ContractCheck.Proofs.FileSystem.Contents
import ContractCheck.Proofs.Host.Performing

/-! # Activities that spare files

A scene is what surrounds an activity: the working directory, the environment, the tools, runs of
them that are expected, and places whose files are kept.  Neither these runs nor the log change any
of the files.  An activity that spares the scene does not change them either, and every tool that it
runs finds them as they were when the activity began (`Spares`).

The property is put together from parts: what it takes for each basic operation is said once.
-/
namespace ContractCheck

open FileSystem (placeOf)

/-- What surrounds an activity, and the places whose files are kept by the runs of tools that are
expected. -/
structure Scene where
  cwd : Place
  environment : Environment
  tools : Tools
  expected : Invocation → Prop
  kept : Place → Prop
  gentle : ∀ i, expected i → ∀ q, kept q → ∀ fs, (tools cwd environment i fs).2.content? q =
    fs.content? q

/-- The files that the log is written to, or will be once it is open. -/
def Host.logFiles (h : Host) : List Text :=
  match h.log with
  | .planned settings =>
    match Log.fileFor? h settings with
    | some (some path) => [path, Path.Posix.absolute h.directory path]
    | _ => []
  | .opened outputs => outputs.file.toList
  | _ => []

/-- A host in a scene, with a log that is not written to files that are kept. -/
structure Host.In (h : Host) (σ : Scene) : Prop where
  cwd : h.cwd = σ.cwd
  environment : h.environment = σ.environment
  tools : h.tools = σ.tools
  log : ∀ path ∈ h.logFiles, ¬ σ.kept (placeOf σ.cwd path)

namespace Scene

variable (σ : Scene)

/-- What an activity that spares the scene makes of a host: the tools that it ran are as promised,
and they found the kept files as they were. -/
structure Leaves (P : Invocation → Prop) (h h' : Host) : Prop where
  scene : h'.In σ
  content : ∀ q, σ.kept q → h'.files.content? q = h.files.content? q
  runs : ∃ new, h'.runs = h.runs ++ new ∧ ∀ r ∈ new, P r.invocation ∧
    ∀ q, σ.kept q → r.files.content? q = h.files.content? q

/-- A value that an activity may give in the scene. -/
def Gives {α : Type} (act : Action α) (a : α) : Prop := ∃ h, h.In σ ∧ (act.perform h).1 = .ok a

/-- Whether an activity spares the scene and only runs tools as promised. -/
def Spares {α : Type} (P : Invocation → Prop) (act : Action α) : Prop :=
  ∀ h, h.In σ → σ.Leaves P h (act.perform h).2

end Scene

variable {σ : Scene} {P : Invocation → Prop} {h h' : Host}

namespace Scene.Leaves

theorem same (scene : h'.In σ) (content : ∀ q, σ.kept q → h'.files.content? q = h.files.content? q)
    (runs : h'.runs = h.runs) : σ.Leaves P h h' :=
  ⟨scene, content, [], by rw [runs, List.append_nil], nofun⟩

theorem refl (scene : h.In σ) : σ.Leaves P h h := .same scene (fun _ _ => rfl) rfl

theorem trans {h'' : Host} (first : σ.Leaves P h h') (second : σ.Leaves P h' h'') :
    σ.Leaves P h h'' := by
  obtain ⟨new, runs, seen⟩ := first.runs
  obtain ⟨new', runs', seen'⟩ := second.runs
  refine ⟨second.scene, fun q kept => (second.content q kept).trans (first.content q kept),
    new ++ new', ?_, ?_⟩
  · rw [runs', runs, List.append_assoc]
  · intro r mem
    rcases List.mem_append.mp mem with mem | mem
    · exact seen r mem
    · obtain ⟨ok, same⟩ := seen' r mem
      exact ⟨ok, fun q kept => (same q kept).trans (first.content q kept)⟩

end Scene.Leaves

/-! ## Putting activities together -/

namespace Scene.Spares

open ContractCheck.Action

variable {α β : Type} {act : Action α}

/-- An activity gives a value or a fault, and leaves the scene spared either way. -/
theorem outcome (spares : σ.Spares P act) (scene : h.In σ) :
    (∃ a h', act.perform h = (.ok a, h') ∧ σ.Gives act a ∧ σ.Leaves P h h') ∨
      ∃ e h', act.perform h = (.error e, h') ∧ σ.Leaves P h h' := by
  have leaves := spares h scene
  cases performed : act.perform h with
  | mk result h' =>
    rw [performed] at leaves
    cases result with
    | ok a => exact .inl ⟨a, h', rfl, ⟨h, scene, by rw [performed]⟩, leaves⟩
    | error e => exact .inr ⟨e, h', rfl, leaves⟩

theorem pure (a : α) : σ.Spares P (Pure.pure a : Action α) := fun _ scene => .refl scene

theorem throw (e : Fault) : σ.Spares P (MonadExcept.throw e : Action α) :=
  fun _ scene => .refl scene

theorem get : σ.Spares P (MonadState.get : Action Host) := fun _ scene => .refl scene

theorem bind {f : α → Action β} (first : σ.Spares P act)
    (rest : ∀ a, σ.Gives act a → σ.Spares P (f a)) : σ.Spares P (act >>= f) := by
  intro h scene
  rcases first.outcome scene with ⟨a, h', performed, given, leaves⟩ | ⟨e, h', performed, leaves⟩
  · rw [perform_bind_ok performed]
    exact leaves.trans (rest a given h' leaves.scene)
  · rw [perform_bind_error performed]
    exact leaves

theorem tryCatch {handle : Fault → Action α} (first : σ.Spares P act)
    (caught : ∀ e, σ.Spares P (handle e)) : σ.Spares P (MonadExcept.tryCatch act handle) := by
  intro h scene
  rw [perform_tryCatch]
  rcases first.outcome scene with ⟨a, h', performed, -, leaves⟩ | ⟨e, h', performed, leaves⟩
  · rw [performed]
    exact leaves
  · rw [performed]
    exact leaves.trans (caught e h' leaves.scene)

theorem orSystem {handle : Fault → Action α} (first : σ.Spares P act)
    (caught : ∀ e, σ.Spares P (handle e)) : σ.Spares P (Action.orSystem act handle) := by
  refine first.tryCatch fun e => ?_
  split
  · exact caught e
  · exact throw e

/-! ## The values of parts -/

theorem gives_pure {a b : α} (given : σ.Gives (Pure.pure a) b) : b = a := by
  obtain ⟨_, -, value⟩ := given
  exact (Except.ok.inj value).symm

theorem gives_throw {e : Fault} {b : α} (given : σ.Gives (MonadExcept.throw e) b) : False := by
  obtain ⟨_, -, value⟩ := given
  cases value

theorem gives_bind {f : α → Action β} {b : β} (first : σ.Spares P act)
    (given : σ.Gives (act >>= f) b) : ∃ a, σ.Gives act a ∧ σ.Gives (f a) b := by
  obtain ⟨h, scene, value⟩ := given
  rcases first.outcome scene with ⟨a, h', performed, given, leaves⟩ | ⟨e, h', performed, -⟩
  · rw [perform_bind_ok performed] at value
    exact ⟨a, given, h', leaves.scene, value⟩
  · rw [perform_bind_error performed] at value
    cases value

theorem gives_tryCatch {handle : Fault → Action α} {a : α} (first : σ.Spares P act)
    (given : σ.Gives (MonadExcept.tryCatch act handle) a) :
    σ.Gives act a ∨ ∃ e, σ.Gives (handle e) a := by
  obtain ⟨h, scene, value⟩ := given
  rw [perform_tryCatch] at value
  rcases first.outcome scene with ⟨b, h', performed, given, -⟩ | ⟨e, h', performed, leaves⟩
  · rw [performed] at value
    obtain rfl := Except.ok.inj value
    exact .inl given
  · rw [performed] at value
    exact .inr ⟨e, h', leaves.scene, value⟩

theorem gives_orSystem {handle : Fault → Action α} {a : α} (first : σ.Spares P act)
    (given : σ.Gives (Action.orSystem act handle) a) :
    σ.Gives act a ∨ ∃ e, σ.Gives (handle e) a := by
  rcases first.gives_tryCatch given with value | ⟨e, value⟩
  · exact .inl value
  · split at value
    · exact .inr ⟨e, value⟩
    · exact (gives_throw value).elim

/-! ## What changes the host -/

theorem modify {f : Host → Host} (same : ∀ h, h.In σ → σ.Leaves P h (f h)) :
    σ.Spares P (modify f : Action PUnit) :=
  same

theorem look (f : FileSystem → Place → Text → α) (path : Text) : σ.Spares P (Action.look f path) :=
  fun _ scene => .refl scene

theorem ask (f : FileSystem → Place → Text → Except FileError α) (path : Text) :
    σ.Spares P (Action.ask f path) := by
  intro h scene
  rw [perform_ask]
  exact .refl scene

/-- A change to a file that is not kept. -/
theorem change {f : FileSystem → Place → Text → Except FileError FileSystem} {path : Text}
    (other : ∀ fs fs', f fs σ.cwd path = .ok fs' → ∀ q, σ.kept q → fs'.content? q = fs.content? q) :
    σ.Spares P (Action.change f path) := by
  intro h scene
  rw [perform_change]
  split
  · next fs changed =>
    rw [scene.cwd] at changed
    exact .same ⟨scene.cwd, scene.environment, scene.tools, scene.log⟩
      (other h.files fs changed) rfl
  · exact .refl scene

theorem writeFile {path : Text} (content : Bytes) (other : ¬ σ.kept (placeOf σ.cwd path)) :
    σ.Spares P (Action.writeFile path content) := by
  refine change fun fs fs' wrote q kept => (FileSystem.write_content wrote).2 q ?_
  rintro rfl
  exact other kept

theorem append {path : Text} (content : Bytes) (other : ¬ σ.kept (placeOf σ.cwd path)) :
    σ.Spares P (Action.change (fun fs cwd p => fs.append cwd p content) path) := by
  refine change fun fs fs' added q kept => FileSystem.append_content added ?_
  rintro rfl
  exact other kept

theorem remove {path : Text} (other : ∀ q, σ.kept q → ¬ placeOf σ.cwd path <+: q) :
    σ.Spares P (Action.change FileSystem.remove path) :=
  change fun _ _ removed q kept => FileSystem.remove_content removed (other q kept)

theorem makeDirectories (path : Text) : σ.Spares P (Action.makeDirectories path) := by
  intro h scene
  rw [perform_makeDirectories]
  exact .same ⟨scene.cwd, scene.environment, scene.tools, scene.log⟩
    (fun q _ => FileSystem.makeDirectories_content ..) rfl

/-- A tool that is run as promised and expected. -/
theorem runTool {invocation : Invocation} (ok : P invocation) (fine : σ.expected invocation) :
    σ.Spares P (Action.runTool invocation) := by
  intro h scene
  rw [perform_runTool]
  refine ⟨⟨scene.cwd, scene.environment, scene.tools, scene.log⟩, fun q kept => ?_, [_], rfl, ?_⟩
  -- What was expected of the tools was said of those in the scene.
  · show FileSystem.content? (h.tools h.cwd h.environment invocation h.files).2 q =
      h.files.content? q
    rw [scene.tools, scene.cwd, scene.environment, σ.gentle invocation fine q kept]
  · intro r mem
    obtain rfl := List.mem_singleton.mp mem
    exact ⟨ok, fun _ _ => rfl⟩

theorem print (t : Text) : σ.Spares P (Action.print t) :=
  fun _ scene => .same ⟨scene.cwd, scene.environment, scene.tools, scene.log⟩ (fun _ _ => rfl) rfl

theorem complain (t : Text) : σ.Spares P (Action.complain t) :=
  fun _ scene => .same ⟨scene.cwd, scene.environment, scene.tools, scene.log⟩ (fun _ _ => rfl) rfl

theorem transcribed (spares : σ.Spares P act) : σ.Spares P (Action.transcribed act) := by
  intro h scene
  rw [perform_transcribed]
  obtain ⟨scene', content, runs⟩ :=
    spares { h with transcript := [] } ⟨scene.cwd, scene.environment, scene.tools, scene.log⟩
  exact ⟨⟨scene'.cwd, scene'.environment, scene'.tools, scene'.log⟩, content, runs⟩

end Scene.Spares

/-! ## Writing to the log -/

namespace Log

open Scene

/-- Opening the log makes the file that the settings name, and no other one. -/
theorem openOutputs_leaves {settings : LoggingSettings} (scene : h.In σ)
    (planned : h.log = .planned settings) :
    σ.Leaves P h ((openOutputs settings).perform h).2 ∧
      ∀ outputs, ((openOutputs settings).perform h).1 = .ok outputs →
        ∀ path ∈ outputs.file.toList, ¬ σ.kept (placeOf σ.cwd path) := by
  have log := scene.log
  simp only [Host.logFiles, planned] at log
  unfold openOutputs
  rw [Action.perform_bind_ok (Action.perform_get h)]
  dsimp only
  split
  · exact ⟨.refl scene, fun _ given => nomatch given⟩
  · refine ⟨.refl scene, fun outputs given => ?_⟩
    obtain rfl := Except.ok.inj given
    exact nofun
  · next path named =>
    rw [named] at log
    -- The file is opened under its own path, and from then on named by the absolute one.
    obtain ⟨own, absolute⟩ : ¬ σ.kept (placeOf σ.cwd path) ∧
        ¬ σ.kept (placeOf σ.cwd (Path.Posix.absolute h.directory path)) := by simpa using log
    have spares : σ.Spares P (do
        Action.makeDirectories (Path.Posix.parent path)
        Action.change (fun fs cwd p => fs.append cwd p []) path
        pure { least := settings.level, console := settings.console
               file := some (Path.Posix.absolute h.directory path) : Outputs }) := by
      exact .bind (.makeDirectories _) fun _ _ => .bind (.append [] own) fun _ _ => .pure _
    -- The file may not open, and then the log is only shown.
    refine ⟨?_, fun outputs given => ?_⟩
    · exact spares.orSystem (fun e => .bind (.complain _) fun _ _ => .pure _) h scene
    · have given : σ.Gives _ outputs := ⟨h, scene, given⟩
      rcases spares.gives_orSystem given with given | ⟨e, given⟩
      · obtain ⟨_, -, given⟩ := Spares.gives_bind (P := P) (.makeDirectories _) given
        obtain ⟨_, -, given⟩ := Spares.gives_bind (P := P) (.append [] own) given
        obtain rfl := Spares.gives_pure given
        exact List.forall_mem_singleton.mpr absolute
      · obtain ⟨_, -, given⟩ := Spares.gives_bind (P := P) (.complain _) given
        obtain rfl := Spares.gives_pure given
        exact nofun

/-- Making the sink ready. -/
theorem open_spares : σ.Spares P open_ := by
  intro h scene
  unfold open_
  rw [Action.perform_bind_ok (Action.perform_get h)]
  split
  · next settings planned =>
    obtain ⟨leaves, file⟩ := openOutputs_leaves (P := P) scene planned
    cases performed : (openOutputs settings).perform h with
    | mk result h' =>
      rw [performed] at leaves file
      cases result with
      | error e =>
        rw [Action.perform_bind_error performed]
        exact leaves
      | ok outputs =>
        rw [Action.perform_bind_ok performed]
        have quiet := file outputs rfl
        exact leaves.trans (.same ⟨leaves.scene.cwd, leaves.scene.environment,
          leaves.scene.tools, quiet⟩
          (fun _ _ => rfl) rfl)
  · exact .refl scene

theorem writeTo_leaves {outputs : Outputs} (r : Record) (scene : h.In σ)
    (quiet : ∀ path ∈ outputs.file.toList, ¬ σ.kept (placeOf σ.cwd path)) :
    σ.Leaves P h (writeTo outputs r h) := by
  obtain ⟨h', shows, ends⟩ := writeTo_cases outputs r h
  -- The standard error output is no file.
  have shown : σ.Leaves P h h' := by
    rcases shows with rfl | rfl
    · exact .refl scene
    · exact .same ⟨scene.cwd, scene.environment, scene.tools, scene.log⟩ (fun _ _ => rfl) rfl
  rcases ends with same | ⟨path, fs, file, added, filed⟩
  · exact same ▸ shown
  · have scene := shown.scene
    rw [scene.cwd] at added
    refine filed ▸ shown.trans
      (.same ⟨scene.cwd, scene.environment, scene.tools, scene.log⟩ (fun q kept => ?_) rfl)
    refine FileSystem.append_content added ?_
    rintro rfl
    exact quiet path (by simp [file]) kept

theorem record_leaves (r : Record) (scene : h.In σ) : σ.Leaves P h (record r h) := by
  have log := scene.log
  rcases record_cases r h with same | ⟨_, -, kept⟩ | ⟨outputs, opened, written⟩
  · rw [same]
    exact .refl scene
  · exact kept ▸ .same ⟨scene.cwd, scene.environment, scene.tools, nofun⟩ (fun _ _ => rfl) rfl
  · simp only [Host.logFiles, opened] at log
    exact written ▸ writeTo_leaves r scene log

theorem write_spares (level : LogLevel) (owner message : Text) (context : Fields) :
    σ.Spares P (write level owner message context) :=
  .bind open_spares fun _ _ => .modify fun _ scene => record_leaves _ scene

theorem debug_spares (owner : String) (message : Text) (context : Fields) :
    σ.Spares P (debug owner message context) :=
  write_spares .debug owner.toList message context

theorem info_spares (owner : String) (message : Text) (context : Fields) :
    σ.Spares P (info owner message context) :=
  write_spares .info owner.toList message context

theorem warning_spares (owner : String) (message : Text) (context : Fields) :
    σ.Spares P (warning owner message context) :=
  write_spares .warning owner.toList message context

end Log
end ContractCheck
