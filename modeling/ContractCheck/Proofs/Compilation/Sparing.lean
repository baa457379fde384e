import ContractCheck.Compilation
import ContractCheck.Proofs.Toolchain.Sparing

/-! # What compiling a file leaves alone

To compile and link a file, programs are asked for their versions and the compiler and the linker
run once each (`Needs`).  The files that are written are the outputs of the file and those of the
toolchain, and the linker says which file it made.  When all of these are apart from the files that
are kept (`Apart`), compiling the file spares them.
-/
namespace ContractCheck.Compilation

open FileSystem (placeOf)

variable (c : Compilation)

/-- The run of the compiler on a file. -/
def compiling (file target : Text) : Invocation where
  program := c.toolchain.compiler.path
  arguments := ["-o".toList, target, Path.Posix.basename file]
  directory := directoryOf file

/-- The run of the linker on the code of a file. -/
def linking (file target : Text) : Invocation where
  program := c.toolchain.linker.path
  arguments :=
    ["compile".toList, outputOf file target Layout.codeExt, "--lib".toList, c.toolchain.stdlib.path]
  directory := directoryOf file

/-- The runs of tools that compiling a file needs. -/
inductive Needs (file target : Text) : Invocation → Prop
  | asking {w : Component × Text} (mem : w ∈ c.toolchain.wanted) : Needs file target w.1.asking
  | compiling : Needs file target (c.compiling file target)
  | linking : Needs file target (c.linking file target)

/-- Whether a run compiles, and does not only link or ask for a version. -/
def Compiles (i : Invocation) : Prop := i.arguments.head? = some "-o".toList

instance (i : Invocation) : Decidable (Compiles i) := inferInstanceAs (Decidable (_ = _))

theorem Needs.eq_compiling {c : Compilation} {file target : Text} {i : Invocation}
    (n : c.Needs file target i)
    (compiles : Compiles i) : i = c.compiling file target := by
  -- The first argument tells the three kinds of runs apart.
  have apart : "--version".toList ≠ "-o".toList ∧ "compile".toList ≠ "-o".toList := by decide
  cases n with
  | asking mem => exact absurd (Option.some.inj compiles) apart.1
  | compiling => rfl
  | linking => exact absurd (Option.some.inj compiles) apart.2

/-- A file whose outputs are apart from the files that are kept, like those of the toolchain. -/
structure Apart (σ : Scene) (file target : Text) : Prop where
  expected : ∀ i, c.Needs file target i → σ.expected i
  toolchain : ∀ w ∈ c.toolchain.wanted, w.1.Apart σ
  outputs : ∀ ext ∈ [Layout.bytecodeExt, Layout.codeExt], ∀ q, σ.kept q →
    ¬ placeOf σ.cwd (outputOf file target ext) <+: q
  saved : ∀ fs finished name,
    (σ.tools σ.cwd σ.environment (c.linking file target) fs).1 = .ok finished →
      savedFile? (Utf8.readLenient finished.output) = some name → ∀ q, σ.kept q →
        ¬ placeOf σ.cwd (Path.Posix.join (directoryOf file) name) <+: q

variable {c} {σ : Scene} {file target : Text}

theorem orLogged_spares {P : Invocation → Prop} {act : Action Unit} (spares : σ.Spares P act)
    (withSystem : Bool) (lead : String) : σ.Spares P (orLogged act withSystem lead file) := by
  refine spares.tryCatch fun e => ?_
  dsimp only
  split
  · split
    · exact Log.debug_spares _ _ _
    · exact .throw _
  · split
    · exact Log.debug_spares _ _ _
    · exact .throw _

theorem link_spares (apart : c.Apart σ file target) :
    σ.Spares (c.Needs file target) (c.link file target) := by
  have fine := apart.expected _ .linking
  refine .bind (c.toolchain.linker.run_spares .keeping .linking fine) fun out given => ?_
  obtain ⟨fs, finished, ran, rfl⟩ := c.toolchain.linker.run_gives fine given
  split
  · exact Log.debug_spares _ _ _
  · next name saved =>
    refine .bind (.change fun fs' fs'' renamed q kept => ?_) fun _ _ => .remove fun q kept => ?_
    · exact FileSystem.rename_content renamed (apart.saved fs finished name ran saved q kept)
        (apart.outputs _ (List.mem_cons_self ..) q kept)
    · exact apart.outputs _ (List.mem_cons_of_mem _ (List.mem_cons_self ..)) q kept

theorem runTools_spares (apart : c.Apart σ file target) :
    σ.Spares (c.Needs file target) (c.runTools file target) := by
  refine .bind (orLogged_spares (.bind ?_ fun _ _ => .pure _) _ _) fun _ _ =>
    orLogged_spares (link_spares apart) _ _
  exact c.toolchain.compiler.run_spares .keeping .compiling (apart.expected _ .compiling)

theorem targetOf_congr {h h' : Host} (same : h'.cwd = h.cwd) (file : Text) :
    targetOf h' file none = targetOf h file none := by
  unfold targetOf Host.directory
  rw [same]

/-- **Compiling a file** spares the files that it is apart from. -/
theorem run_spares {h : Host} (scene : h.In σ) (apart : c.Apart σ file (targetOf h file none)) :
    σ.Spares (c.Needs file (targetOf h file none)) (c.run file none) := by
  unfold run
  split
  · exact .bind (Log.info_spares _ _ _) fun _ _ => .pure _
  · refine .bind (.transcribed ?_) fun result _ => ?_
    -- The target is found only after the toolchain was installed, in the same working directory.
    · refine .bind (Toolchain.ensure_spares .keeping apart.toolchain fun w mem =>
        .asking mem) fun _ _ =>
        .bind .get fun h' given => ?_
      obtain ⟨h', scene', value⟩ := given
      obtain rfl := Except.ok.inj value
      rw [targetOf_congr (scene'.cwd.trans scene.cwd.symm)]
      exact runTools_spares apart
    · dsimp only
      split
      · exact .pure _
      · exact .throw _

end ContractCheck.Compilation
