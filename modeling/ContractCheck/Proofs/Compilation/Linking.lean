import ContractCheck.Proofs.Compilation.Staged
import ContractCheck.Proofs.Host.Logged
import ContractCheck.Proofs.Toolchain.Following

/-! # What the note of the linker's run tells

Every run of a tool is noted.  If the linker's run is among the notes of a compilation, then the
toolchain was there, the compiler did not break the compilation off, and behind the linker's run
there is only what linking does with what the linker wrote (`Compilation.run_linked`).
-/
namespace ContractCheck

open ContractCheck.Action

variable {h h' h'' : Host}

/-! ## Any surroundings -/

/-- The scene around a host in which no file is kept. -/
def Scene.around (h : Host) : Scene where
  cwd := h.cwd
  environment := h.environment
  tools := h.tools
  expected _ := True
  kept _ := False
  gentle _ _ _ kept := kept.elim

/-- A run that is noted and is not as promised is the one between two activities that only run tools
as promised. -/
theorem Scene.Leaves.eq_of_mem {σ : Scene} {P : Invocation → Prop} {h₁ h₂ : Host}
    {i : Invocation} {new : List ToolRun} {r : ToolRun}
    (before : σ.Leaves P h h₁) (behind : σ.Leaves P (h₁.ran i) h₂) (runs : h₂.runs = h.runs ++ new)
    (mem : r ∈ new)
    (other : ¬ P r.invocation) : r = { invocation := i, files := h₁.files } := by
  obtain ⟨first, runs₁, promised⟩ := before.runs
  obtain ⟨last, runs₂, promised'⟩ := behind.runs
  have noted : h₂.runs = h.runs ++ (first ++ [{ invocation := i, files := h₁.files }] ++ last) := by
    rw [runs₂, Host.ran, runs₁]
    simp only [List.append_assoc]
  obtain rfl : new = _ := List.append_cancel_left (runs.symm.trans noted)
  rcases List.mem_append.mp mem with mem | mem
  · rcases List.mem_append.mp mem with mem | mem
    · exact absurd (promised r mem).1 other
    · exact List.mem_singleton.mp mem
  · exact absurd (promised' r mem).1 other

namespace Component

variable (c : Component)

/-- **A component fails before its tool is started, or starts it** with an open log. -/
theorem run_called {P : Invocation → Prop} (scene : h'.In (.around h)) (directory : Text)
    (arguments : List Text) :
    (∃ e h₁, (c.run .keeping directory arguments).perform h' = (.error e, h₁) ∧
      (Scene.around h).Leaves P h' h₁) ∨
    ∃ h₁, ¬ h₁.LogPlanned ∧ (Scene.around h).Leaves P h' h₁ ∧
      (c.run .keeping directory arguments).perform h' =
        (c.settle .keeping (Text.join [' '] (c.path :: arguments))
          (h₁.outcome { invocation := c.running directory arguments, files := h₁.files })).perform
          (h₁.ran (c.running directory arguments)) := by
  have looked : c.isInstalled.perform h' = (.ok (h'.files.isThere h'.cwd c.path), h') := rfl
  unfold run
  dsimp only
  rw [perform_bind_ok looked]
  cases h'.files.isThere h'.cwd c.path with
  | false => exact .inl ⟨_, h', rfl, .refl scene⟩
  | true =>
    rw [if_neg (show ¬ (!true) = true by decide)]
    have logs : (Scene.around h).Spares P
        (Log.debug c.owner ("Running ".toList ++ c.path ++ [' '] ++
        (Value.list (arguments.map .text)).display ++ " in ".toList ++ directory)) :=
        Log.debug_spares _ _ _
    rcases logs.outcome scene with ⟨_, h₁, logged, -, leaves⟩ | ⟨e, h₁, failed, leaves⟩
    · rw [perform_bind_ok logged]
      exact .inr ⟨h₁, Log.write_opens logged, leaves, rfl⟩
    · rw [perform_bind_error failed]
      exact .inl ⟨e, h₁, rfl, leaves⟩

theorem settle_keepsLog (command : Text) (outcome : Except FileError Finished) :
    KeepsLog (c.settle .keeping command outcome) := by
  cases outcome with
  | error e =>
    rw [settle]
    split
    · exact .throw _
    · exact .throw _
  | ok finished =>
    have shown : KeepsLog (Terminal.keeping.present (Utf8.readLenient finished.output)
        (Utf8.readLenient finished.errors)) := by
      intro h opened
      rw [Terminal.present_keeping]
      exact .of_log opened rfl rfl
    refine .bind shown fun _ => .bind (Log.debug_keepsLog _ _ _) fun _ => ?_
    split
    · exact .pure _
    · exact .throw _

end Component

namespace Compilation

variable (c : Compilation) {file target : Text}

/-! ## Behind the linker -/

/-- What linking does with what the linker wrote. -/
def placeOutput (file target out : Text) : Action Unit :=
  match savedFile? out with
  | none => Log.debug owner "Linker did not report a contract".toList [("file".toList, .text file)]
  | some name => do
    Action.change (fun fs cwd p => fs.rename cwd p (outputOf file target Layout.bytecodeExt))
      (Path.Posix.join (directoryOf file) name)
    Action.change FileSystem.remove (outputOf file target Layout.codeExt)

theorem link_eq (file target : Text) : c.link file target =
    c.toolchain.linker.run .keeping (directoryOf file)
      ["compile".toList, outputOf file target Layout.codeExt, "--lib".toList,
        c.toolchain.stdlib.path] >>=
      placeOutput file target := rfl

/-- What is left to do when the linker has ended. -/
def afterLinker (file target : Text) (outcome : Except FileError Finished) : Action Unit :=
  orLogged (c.toolchain.linker.settle .keeping
    (Text.join [' '] (c.toolchain.linker.path ::
      ["compile".toList, outputOf file target Layout.codeExt, "--lib".toList,
        c.toolchain.stdlib.path])) outcome >>=
    placeOutput file target) true "Linking failed: " file

/-- Whether a run links. -/
def IsLink (i : Invocation) : Prop := i.arguments.head? = some "compile".toList

instance (i : Invocation) : Decidable (IsLink i) := inferInstanceAs (Decidable (_ = _))

variable {c}

theorem orLogged_congr {act act' : Action Unit} {withSystem : Bool} {lead : String}
    (same : act.perform h = act'.perform h') :
    (orLogged act withSystem lead file).perform h =
      (orLogged act' withSystem lead file).perform h' := by
  unfold orLogged
  rw [perform_tryCatch, perform_tryCatch, same]

theorem orLogged_keepsLog {act : Action Unit} (keeps : act.KeepsLog) (withSystem : Bool)
    (lead : String) :
    KeepsLog (orLogged act withSystem lead file) := by
  refine keeps.tryCatch fun e => ?_
  dsimp only
  split
  · split
    · exact Log.debug_keepsLog _ _ _
    · exact .throw _
  · split
    · exact Log.debug_keepsLog _ _ _
    · exact .throw _

theorem placeOutput_keepsLog (file target out : Text) : KeepsLog (placeOutput file target out) := by
  unfold placeOutput
  split
  · exact Log.debug_keepsLog _ _ _
  · exact .bind (.change _ _) fun _ => .change _ _

theorem afterLinker_keepsLog (file target : Text) (outcome : Except FileError Finished) :
    KeepsLog (c.afterLinker file target outcome) :=
  orLogged_keepsLog (.bind (c.toolchain.linker.settle_keepsLog _ _) fun _ =>
    placeOutput_keepsLog _ _ _) _ _

/-- Behind the linker no tool is run. -/
theorem afterLinker_spares {P : Invocation → Prop} (file target : Text)
    (outcome : Except FileError Finished) :
    (Scene.around h).Spares P (c.afterLinker file target outcome) := by
  refine orLogged_spares (.bind (c.toolchain.linker.settle_spares _ _ _) fun out _ => ?_) _ _
  unfold placeOutput
  split
  · exact Log.debug_spares _ _ _
  · exact .bind (.change fun _ _ _ _ kept => kept.elim) fun _ _ =>
      .change fun _ _ _ _ kept => kept.elim

/-! ## The notes of a compilation -/

theorem apart_around (h : Host) : ∀ w ∈ c.toolchain.wanted, w.1.Apart (.around h) :=
  fun _ _ => ⟨trivial, id, id⟩

theorem asking_not_link (a : Component) : ¬ IsLink a.asking := by
  intro same
  exact absurd (Option.some.inj same) (by decide)

/-- Linking fails before the linker is started, or starts it and then does what comes behind it. -/
theorem link_called {P : Invocation → Prop} (scene : h'.In (.around h)) (file target : Text) :
    (Scene.around h).Leaves P h' ((orLogged (c.link file target) true "Linking failed: "
      file).perform h').2 ∨
    ∃ h₁, ¬ h₁.LogPlanned ∧ (Scene.around h).Leaves P h' h₁ ∧
      (orLogged (c.link file target) true "Linking failed: " file).perform h' =
        (c.afterLinker file target (h₁.outcome
          { invocation := c.linking file target, files := h₁.files })).perform
          (h₁.ran (c.linking file target)) := by
  rw [link_eq]
  rcases c.toolchain.linker.run_called (P := P) scene (directoryOf file)
    ["compile".toList, outputOf file target Layout.codeExt, "--lib".toList,
      c.toolchain.stdlib.path] with
    ⟨e, h₁, failed, leaves⟩ | ⟨h₁, opened, leaves, called⟩
  · refine .inl ?_
    have thrown : (c.toolchain.linker.run .keeping (directoryOf file)
      ["compile".toList, outputOf file target Layout.codeExt,
        "--lib".toList, c.toolchain.stdlib.path] >>= placeOutput file target).perform h' =
          (throw e : Action Unit).perform h₁ := by
      rw [perform_bind_error failed]
      rfl
    rw [orLogged_congr thrown]
    exact leaves.trans (orLogged_spares (.throw e) _ _ h₁ leaves.scene)
  · refine .inr ⟨h₁, opened, leaves, orLogged_congr ?_⟩
    rw [perform_bind, called, ← perform_bind]
    rfl

/-- What a compilation does with the tools. -/
def tools (c : Compilation) (file : Text) : Action Unit := do
  c.toolchain.ensure .keeping
  c.runTools file (targetOf (← get) file none)

/-- A compilation of a source does what it does with the tools, and then looks at what they
wrote. -/
theorem run_tools (source : sourceExtensions.contains
    (Path.Posix.extension (Path.Posix.basename file)) = true)
    {result : Except Fault (List Text)} (ran : (c.run file none).perform h = (result, h')) :
    ∃ out h₁, (c.tools file).perform { h with transcript := [] } = (out, h₁) ∧
    h' = { h₁ with transcript := h.transcript } ∧
      (out = .ok ⟨⟩ → ∃ blocks, result = .ok blocks) := by
  unfold run at ran
  rw [source, if_neg (show ¬ (!true) = true by decide), perform_bind, perform_transcribed] at ran
  generalize performed : (do
    c.toolchain.ensure .keeping
    c.runTools file (targetOf (← get) file none) : Action Unit).perform
      { h with transcript := [] } = all at ran
  obtain ⟨out, h₁⟩ := all
  refine ⟨out, h₁, performed, ?_⟩
  dsimp only [andThen] at ran
  cases out with
  | ok _ =>
    obtain ⟨rfl, rfl⟩ := Prod.mk.inj ran
    exact ⟨rfl, fun _ => ⟨_, rfl⟩⟩
  | error e =>
    obtain ⟨rfl, rfl⟩ := Prod.mk.inj ran
    exact ⟨rfl, fun ok => by cases ok⟩

/-- Up to the linker, no tool is run that links. -/
theorem tools_called (scene : h'.In (.around h)) (file : Text) :
    (Scene.around h).Leaves (fun i => ¬ IsLink i) h' ((c.tools file).perform h').2 ∨
    ∃ h₁, ¬ h₁.LogPlanned ∧ (Scene.around h).Leaves (fun i => ¬ IsLink i) h' h₁ ∧
      (c.tools file).perform h' =
        (c.afterLinker file (targetOf h file none)
          (h₁.outcome
            { invocation := c.linking file (targetOf h file none), files := h₁.files })).perform
          (h₁.ran (c.linking file (targetOf h file none))) := by
  have ensures : (Scene.around h).Spares (fun i => ¬ IsLink i) (c.toolchain.ensure .keeping) :=
    Toolchain.ensure_spares .keeping (apart_around h) fun w _ => asking_not_link w.1
  have compiles : (Scene.around h).Spares (fun i => ¬ IsLink i) (orLogged (do
      let _ ← c.toolchain.compiler.run .keeping (directoryOf file)
        ["-o".toList, targetOf h file none, Path.Posix.basename file]) false
        "Compiler failed: " file) := by
    refine orLogged_spares (.bind (c.toolchain.compiler.run_spares .keeping ?_ trivial) fun _ _ =>
      .pure _) _ _
    exact fun same => absurd (Option.some.inj same) (by decide)
  unfold tools
  rcases ensures.outcome scene with ⟨_, h₁, ensured, -, leaves⟩ | ⟨e, h₁, failed, leaves⟩
  case inr =>
    rw [perform_bind_error failed]
    exact .inl leaves
  rw [perform_bind_ok ensured, perform_bind_ok (perform_get h₁),
    targetOf_congr leaves.scene.cwd, runTools]
  rcases compiles.outcome leaves.scene with ⟨_, h₂, compiled, -, leaves'⟩ | ⟨e, h₂, failed, leaves'⟩
  case inr =>
    rw [perform_bind_error failed]
    exact .inl (leaves.trans leaves')
  rw [perform_bind_ok compiled]
  rcases link_called leaves'.scene file (targetOf h file none) with
    leaves'' | ⟨h₃, opened, leaves'', called⟩
  · exact .inl ((leaves.trans leaves').trans leaves'')
  · exact .inr ⟨h₃, opened, (leaves.trans leaves').trans leaves'', called⟩

/-- **A compilation in which the linker ran** is, from there on, what comes behind the linker. -/
theorem run_linked (source : sourceExtensions.contains
    (Path.Posix.extension (Path.Posix.basename file)) = true)
    {result : Except Fault (List Text)} {new : List ToolRun} {r : ToolRun}
    (ran : (c.run file none).perform h = (result, h'))
    (runs : h'.runs = h.runs ++ new) (mem : r ∈ new) (link : IsLink r.invocation) :
    ∃ h₁ : Host, ∃ out h₂, ¬ h₁.LogPlanned ∧ h₁.In (.around h) ∧
      r = { invocation := c.linking file (targetOf h file none), files := h₁.files } ∧
      (c.afterLinker file (targetOf h file none) (h.outcome r)).perform
        (h₁.ran r.invocation) = (out, h₂) ∧
      h' = { h₂ with transcript := h.transcript } ∧
      (out = .ok ⟨⟩ → ∃ blocks, result = .ok blocks) := by
  have start : { h with transcript := [] }.In (.around h) := ⟨rfl, rfl, rfl, fun _ _ => id⟩
  obtain ⟨out, h₂, performed, rfl, given⟩ := run_tools source ran
  rcases tools_called (c := c) start file with leaves | ⟨h₁, opened, before, called⟩
  · -- If nothing but runs of other tools is noted, the linker's is not.
    rw [performed] at leaves
    obtain ⟨noted, same, others⟩ := leaves.runs
    obtain rfl : new = noted := List.append_cancel_left (runs.symm.trans same)
    exact absurd link (others r mem).1
  · rw [performed] at called
    have behind : (Scene.around h).Leaves (fun i => ¬ IsLink i)
      (h₁.ran (c.linking file (targetOf h file none))) h₂ := by
      have leaves := afterLinker_spares (c := c) (h := h) (P := fun i => ¬ IsLink i) file
        (targetOf h file none)
        (h₁.outcome { invocation := c.linking file (targetOf h file none), files := h₁.files })
        (h₁.ran (c.linking file (targetOf h file none)))
        ⟨before.scene.cwd, before.scene.environment, before.scene.tools, fun _ _ => id⟩
      rwa [← called] at leaves
    have own := before.eq_of_mem behind runs mem (not_not_intro link)
    have same : h₁.outcome = h.outcome := by
      funext r
      rw [Host.outcome, Host.outcome, before.scene.tools, before.scene.cwd,
        before.scene.environment]
      rfl
    refine ⟨h₁, out, h₂, opened, before.scene, own, ?_, rfl, given⟩
    rw [← same, own]
    exact called.symm

end Compilation
end ContractCheck
