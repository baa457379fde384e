import ContractCheck.Proofs.Host.Sparing
import ContractCheck.Toolchain.Basic

/-! # What the toolchain leaves alone

Running a component runs one tool, and installing one writes the component's own files: the program
and its version (`Component.Apart`).  Programs are asked for their versions when they are installed,
so making sure that a toolchain is there runs no tool with other arguments.
-/
namespace ContractCheck

open FileSystem (placeOf)

variable {σ : Scene} {P : Invocation → Prop}

namespace Terminal

theorem write_spares (t : Terminal) (text : Text) : σ.Spares P (t.write text) := by
  cases t with
  | silent => exact .pure _
  | keeping =>
    exact .modify fun _ scene =>
      .same ⟨scene.cwd, scene.environment, scene.tools, scene.log⟩ (fun _ _ => rfl) rfl
  | echoing => exact .print _

theorem log_spares (t : Terminal) (message : Text) : σ.Spares P (t.log message) := by
  cases t with
  | silent => exact .pure _
  | keeping =>
    exact .modify fun _ scene =>
      .same ⟨scene.cwd, scene.environment, scene.tools, scene.log⟩ (fun _ _ => rfl) rfl
  | echoing => exact .print _

theorem complain_spares (t : Terminal) (text : Text) : σ.Spares P (t.complain text) := by
  cases t with
  | echoing => exact .complain _
  | silent => exact write_spares _ _
  | keeping => exact write_spares _ _

theorem present_spares (t : Terminal) (out errors : Text) : σ.Spares P (t.present out errors) := by
  have last : σ.Spares P (if !errors.isEmpty then t.complain errors else pure ⟨⟩) := by
    split
    · exact complain_spares _ _
    · exact .pure _
  unfold present
  cases out.isEmpty with
  | true => exact last
  | false => exact .bind (write_spares _ _) fun _ _ => last

end Terminal

namespace Fetch

theorem readOn_spares (host path : Text) : σ.Spares P (readOn host path) := by
  unfold readOn
  dsimp only
  split
  · exact .throw _
  · split
    · exact .throw _
    · refine .bind .get fun _ _ => ?_
      split
      · exact .ask _ _
      · exact .throw _

theorem ask_spares (address : Text) : σ.Spares P (ask address) := by
  refine .bind .get fun _ _ => ?_
  split
  · exact .pure _
  · exact .throw _
  · exact .throw _
  · exact .throw _

theorem readHalved_spares (address : Points) (host path : Text) :
    σ.Spares P (readHalved address host path) := by
  unfold readHalved
  split
  · exact .throw _
  · split
    · exact .throw _
    · split
      · exact .throw _
      · exact .throw _

theorem read_spares (address : Points) : σ.Spares P (read address) := by
  unfold read
  dsimp only
  split
  · exact .throw _
  · split
    · split
      · exact readOn_spares _ _
      · exact ask_spares _
    · split
      · exact readHalved_spares _ _ _
      · exact .throw _

end Fetch

namespace Component

variable (c : Component)

/-! ## Running -/

theorem conclude_spares (t : Terminal) (command : Text) (finished : Finished) :
    σ.Spares P (c.conclude t command finished) := by
  refine .bind (t.present_spares _ _) fun _ _ => .bind (Log.debug_spares _ _ _) fun _ _ => ?_
  split
  · exact .pure _
  · exact .throw _

theorem conclude_gives {t : Terminal} {command : Text} {finished : Finished} {out : Text}
    (given : σ.Gives (c.conclude t command finished) out) :
    out = Utf8.readLenient finished.output := by
  unfold conclude at given
  obtain ⟨_, -, given⟩ := Scene.Spares.gives_bind (P := fun _ => True) (t.present_spares _ _) given
  obtain ⟨_, -, given⟩ := Scene.Spares.gives_bind (P := fun _ => True)
    (Log.debug_spares _ _ _) given
  split at given
  · exact Scene.Spares.gives_pure given
  · exact (Scene.Spares.gives_throw given).elim

theorem settle_spares (t : Terminal) (command : Text) (outcome : Except FileError Finished) :
    σ.Spares P (c.settle t command outcome) := by
  cases outcome with
  | error e =>
    rw [settle]
    split
    · exact .throw _
    · exact .throw _
  | ok finished => exact c.conclude_spares _ _ _

theorem settle_gives {t : Terminal} {command : Text} {outcome : Except FileError Finished}
    {out : Text} (given : σ.Gives (c.settle t command outcome) out) :
    ∃ finished, outcome = .ok finished ∧ out = Utf8.readLenient finished.output := by
  cases outcome with
  | error e =>
    rw [settle] at given
    split at given
    · exact (Scene.Spares.gives_throw given).elim
    · exact (Scene.Spares.gives_throw given).elim
  | ok finished => exact ⟨finished, rfl, c.conclude_gives given⟩

theorem run_spares (t : Terminal) {directory : Text} {arguments : List Text}
    (ok : P { program := c.path, arguments, directory })
    (fine : σ.expected { program := c.path, arguments, directory }) :
    σ.Spares P (c.run t directory arguments) := by
  unfold run
  refine .bind (.look _ _) fun there _ => ?_
  cases there with
  | false => exact .bind (.throw _) fun _ given => (Scene.Spares.gives_throw given).elim
  | true =>
    exact .bind (Log.debug_spares _ _ _) fun _ _ => .bind (.runTool ok fine) fun _ _ =>
      c.settle_spares _ _ _

/-- What a run gives is what the tool wrote. -/
theorem run_gives {t : Terminal} {directory : Text} {arguments : List Text} {out : Text}
    (fine : σ.expected { program := c.path, arguments, directory })
    (given : σ.Gives (c.run t directory arguments) out) :
    ∃ fs finished,
      (σ.tools σ.cwd σ.environment { program := c.path, arguments, directory } fs).1 =
        .ok finished ∧
        out = Utf8.readLenient finished.output := by
  have spares : σ.Spares (fun _ => True)
      (Action.runTool { program := c.path, arguments, directory }) :=
    .runTool trivial fine
  unfold run at given
  obtain ⟨there, -, given⟩ := Scene.Spares.gives_bind (P := fun _ => True) (.look _ _) given
  cases there with
  | false =>
    obtain ⟨_, thrown, -⟩ := Scene.Spares.gives_bind (P := fun _ => True) (.throw _) given
    exact (Scene.Spares.gives_throw thrown).elim
  | true =>
    obtain ⟨_, -, given⟩ := Scene.Spares.gives_bind (P := fun _ => True)
      (Log.debug_spares _ _ _) given
    obtain ⟨outcome, ⟨h, scene, ran⟩, given⟩ := spares.gives_bind given
    obtain ⟨finished, rfl, out⟩ := c.settle_gives given
    refine ⟨h.files, finished, ?_, out⟩
    rw [Action.perform_runTool, scene.tools, scene.cwd, scene.environment] at ran
    exact Except.ok.inj ran

/-! ## Installing -/

/-- The run in which a program is asked for its version. -/
def asking : Invocation :=
  { program := c.path, arguments := ["--version".toList], directory := c.home }

/-- A component that may be asked for its version, and whose own files are not kept. -/
structure Apart (σ : Scene) : Prop where
  expected : σ.expected c.asking
  program : ¬ σ.kept (placeOf σ.cwd c.path)
  version : ¬ σ.kept (placeOf σ.cwd c.versionPath)

theorem installedVersion_spares : σ.Spares P c.installedVersion := by
  have read : σ.Spares P (Action.readText c.versionPath) := by
    refine .bind (.ask _ _) fun bytes _ => ?_
    split
    · exact .pure _
    · exact .throw _
  exact (Scene.Spares.bind read fun _ _ => .pure _).orSystem fun _ => .pure _

theorem resolveVersion_spares (downloaded : Text) (ask : P c.asking) (fine : σ.expected c.asking) :
    σ.Spares P (c.resolveVersion downloaded) := by
  unfold resolveVersion
  split
  · exact .pure _
  · refine .bind (.tryCatch (c.run_spares .silent ask fine) fun e => ?_) fun _ _ => .pure _
    split
    · split
      · exact .pure _
      · exact .throw _
    · exact .throw _

theorem availableVersions_spares : σ.Spares P c.availableVersions := by
  unfold availableVersions
  refine .bind (.tryCatch (Fetch.read_spares _) fun e => ?_) fun bytes _ => ?_
  · split
    · exact .throw _
    · exact .throw _
    · split
      · exact .throw _
      · exact .throw _
  · dsimp only
    split
    · exact .throw _
    · split
      · split
        · exact .pure _
        · exact .throw _
      · exact .throw _

theorem announce_spares (t : Terminal) (version : Points) : σ.Spares P (c.announce t version) := by
  unfold announce
  dsimp only
  split
  · exact .bind (t.log_spares _) fun _ _ => Log.info_spares _ _ _
  · split
    · exact .throw _
    · exact .bind (t.log_spares _) fun _ _ => Log.open_spares

theorem unpacked_spares (version : Points) : σ.Spares P (c.unpacked version) := by
  refine .bind (.orSystem (Fetch.read_spares _) fun _ => .throw _) fun _ _ => ?_
  split
  · exact .pure _
  · exact .throw _
  · exact .throw _

variable {c}

theorem place_spares (apart : c.Apart σ) (bytes : Bytes) : σ.Spares P (c.place bytes) := by
  refine .bind (.makeDirectories _) fun _ _ => .bind (.writeFile _ apart.program) fun _ _ => ?_
  split
  · exact .change fun _ _ made q _ => FileSystem.makeExecutable_content made q
  · exact .pure _

theorem settleIn_spares (apart : c.Apart σ) (ask : P c.asking) (t : Terminal) (version : Points)
    (bytes : Bytes) :
    σ.Spares P (c.settleIn t version bytes) := by
  refine .bind (.orSystem (place_spares apart bytes) fun _ => .throw _) fun _ _ =>
    .bind (c.resolveVersion_spares _ ask apart.expected) fun resolved _ => ?_
  split
  · exact .bind (.writeFile _ apart.version) fun _ _ => .throw _
  · exact .bind (.writeFile _ apart.version) fun _ _ => t.log_spares _

theorem install_spares (apart : c.Apart σ) (ask : P c.asking) (t : Terminal) (version : Points) :
    σ.Spares P (c.install t version) :=
  .bind (c.announce_spares t version) fun _ _ => .bind (c.unpacked_spares version) fun _ _ =>
    settleIn_spares apart ask t version _

theorem fits_spares (version : Text) : σ.Spares P (c.fits version) := by
  refine .bind (.look _ _) fun there _ => ?_
  split
  · exact .pure _
  · split
    · exact .pure _
    · exact .bind c.installedVersion_spares fun _ _ => .pure _

theorem ensure_spares (apart : c.Apart σ) (ask : P c.asking) (t : Terminal) (version : Text) :
    σ.Spares P (c.ensure t version) := by
  refine .bind (fits_spares version) fun fitting _ => ?_
  split
  · exact .pure _
  · split
    · refine .bind c.availableVersions_spares fun versions _ => ?_
      split
      · exact .throw _
      · exact .bind (install_spares apart ask t _) fun _ _ => .pure _
    · exact .bind (install_spares apart ask t _) fun _ _ => .pure _

end Component

namespace Toolchain

theorem ensureEach_spares (terminal : Terminal) {wanted : List (Component × Text)}
    (apart : ∀ w ∈ wanted, w.1.Apart σ) (ask : ∀ w ∈ wanted, P w.1.asking) :
    σ.Spares P (ensureEach terminal wanted) := by
  induction wanted with
  | nil => exact .pure _
  | cons w rest ih =>
    obtain ⟨apart, others⟩ := List.forall_mem_cons.mp apart
    obtain ⟨ask, others'⟩ := List.forall_mem_cons.mp ask
    exact .bind (Component.ensure_spares apart ask terminal w.2) fun _ _ => ih others others'

/-- **Making sure that the toolchain is there** changes no files but those of its components. -/
theorem ensure_spares {t : Toolchain} (terminal : Terminal) (apart : ∀ w ∈ t.wanted, w.1.Apart σ)
    (ask : ∀ w ∈ t.wanted, P w.1.asking) : σ.Spares P (t.ensure terminal) :=
  ensureEach_spares terminal apart ask

end Toolchain
end ContractCheck
