import ContractCheck.Proofs.Compilation.Sparing

/-! # What the compiler sees of a job

The sources of a job are staged and compiled one after another.  So when the compiler starts on a
source, the copies of the sources before it are there, and instead of the copies of the sources
after it what stood in their places before the job began: they are current only if an earlier job
left them so.
-/
namespace ContractCheck

open FileSystem (placeOf)

variable {σ : Scene} {h h' : Host}

/-! ## Staging a source -/

/-- What writing a file at a place makes of a host: the other files that are kept are as they
were. -/
structure Scene.Puts (σ : Scene) (p : Place) (content : Bytes) (h h' : Host) : Prop where
  scene : h'.In σ
  runs : h'.runs = h.runs
  content : ∀ q, σ.kept q → h'.files.content? q = if q = p then some content else h.files.content? q

theorem Scene.Leaves.runs_eq (l : σ.Leaves (fun _ => False) h h') : h'.runs = h.runs := by
  obtain ⟨new, runs, seen⟩ := l.runs
  cases new with
  | nil => rw [runs, List.append_nil]
  | cons r new => exact (seen r (List.mem_cons_self ..)).1.elim

theorem Scene.Puts.after {p : Place} {content : Bytes} {h'' : Host} (puts : σ.Puts p content h' h'')
    (l : σ.Leaves (fun _ => False) h h') : σ.Puts p content h h'' :=
  ⟨puts.scene, puts.runs.trans l.runs_eq,
    fun q kept => by rw [puts.content q kept, l.content q kept]⟩

theorem Scene.Puts.before {p : Place} {content : Bytes} {h'' : Host} (puts : σ.Puts p content h h')
    (l : σ.Leaves (fun _ => False) h' h'') : σ.Puts p content h h'' :=
  ⟨l.scene, l.runs_eq.trans puts.runs, fun q kept => by rw [l.content q kept, puts.content q kept]⟩

theorem writeFile_puts {path : Text} {content : Bytes} (scene : h.In σ)
    (wrote : (Action.writeFile path content).perform h = (.ok ⟨⟩, h')) :
    σ.Puts (placeOf σ.cwd path) content h h' := by
  unfold Action.writeFile at wrote
  rw [Action.perform_change] at wrote
  split at wrote
  · next fs written =>
    rw [scene.cwd] at written
    obtain ⟨-, rfl⟩ := Prod.mk.inj wrote
    obtain ⟨here, elsewhere⟩ := FileSystem.write_content written
    refine ⟨⟨scene.cwd, scene.environment, scene.tools, scene.log⟩, rfl, fun q kept => ?_⟩
    split
    · next same => exact same ▸ here
    · next other => exact elsewhere q other
  · cases (Prod.mk.inj wrote).1

namespace Staging

variable (s : Staging)

/-- The place of the staged copy of a source. -/
def placeFor (cwd : Place) (source : Source) : Place :=
  placeOf cwd (Path.Posix.tidy (s.layout.stagedPath source.path))

/-- The bytes of the staged copy of a source. -/
def copyOf (source : Source) : Bytes := Utf8.encode (s.stagedContent source)

/-- What staging a source does, by its outcome: the copy is there, or nothing happened, or it is not
known. -/
inductive Staged (σ : Scene) (source : Source) (h : Host) :
    Except Fault (Option StagedFile) × Host → Prop
  | there {h' : Host} (puts : σ.Puts (s.placeFor σ.cwd source) (s.copyOf source) h h') :
      Staged σ source h
        (.ok (some { source := source.path, staged := s.layout.stagedPath source.path }), h')
  | passed {h' : Host} (leaves : σ.Leaves (fun _ => False) h h') : Staged σ source h (.ok none, h')
  | failed {e : Fault} {h' : Host} (runs : h'.runs = h.runs) : Staged σ source h (.error e, h')

/-- What comes after the writing of a copy. -/
theorem staged_of_wrote {source : Source} {owner : String} {message : Text}
    (puts : σ.Puts (s.placeFor σ.cwd source) (s.copyOf source) h h') :
    s.Staged σ source h ((do
      Log.debug owner message
      pure (some { source := source.path, staged := s.layout.stagedPath source.path }) :
        Action (Option StagedFile)).perform h') := by
  rcases (Log.debug_spares (P := fun _ => False) owner message []).outcome puts.scene with
    ⟨_, h'', performed, -, leaves⟩ | ⟨e, h'', performed, leaves⟩
  · rw [Action.perform_bind_ok performed]
    exact .there (puts.before leaves)
  · rw [Action.perform_bind_error performed]
    exact .failed (puts.before leaves).runs

/-- Writing a file in a directory that is made first either works or changes no file. -/
theorem write_below (scene : h.In σ) (directory path content : Text) :
    (∃ h', (do
        Action.makeDirectories directory
        Action.writeText path content
        pure true : Action Bool).perform h = (.ok true, h') ∧
          σ.Puts (placeOf σ.cwd path) (Utf8.encode content) h h') ∨
      ∃ e h', (do
        Action.makeDirectories directory
        Action.writeText path content
        pure true : Action Bool).perform h = (.error e, h') ∧ σ.Leaves (fun _ => False) h h' := by
  rcases (Scene.Spares.makeDirectories (P := fun _ => False) directory).outcome scene with
    ⟨_, h₁, made, -, leaves⟩ | ⟨e, h₁, failed, leaves⟩
  · rw [Action.perform_bind_ok made]
    cases wrote : (Action.writeText path content).perform h₁ with
    | mk result h₂ =>
      cases result with
      | ok _ =>
        rw [Action.perform_bind_ok wrote]
        exact .inl ⟨h₂, rfl, (writeFile_puts leaves.scene wrote).after leaves⟩
      | error e =>
        -- A write that fails changes nothing.
        have same : h₂ = h₁ := by
          unfold Action.writeText Action.writeFile at wrote
          rw [Action.perform_change] at wrote
          split at wrote
          · cases (Prod.mk.inj wrote).1
          · exact (Prod.mk.inj wrote).2.symm
        exact .inr ⟨e, h₂, Action.perform_bind_error wrote, same ▸ leaves⟩
  · exact .inr ⟨e, h₁, Action.perform_bind_error failed, leaves⟩

theorem writeCopy_cases (source : Source) (scene : h.In σ) :
    (∃ h', (s.writeCopy source).perform h = (.ok true, h') ∧
        σ.Puts (s.placeFor σ.cwd source) (s.copyOf source) h h') ∨
      (∃ h', (s.writeCopy source).perform h = (.ok false, h') ∧ σ.Leaves (fun _ => False) h h') ∨
      ∃ e h', (s.writeCopy source).perform h = (.error e, h') ∧ h'.runs = h.runs := by
  unfold writeCopy
  rw [Action.perform_orSystem]
  rcases write_below (σ := σ) scene (Path.Posix.parent (s.layout.stagedPath source.path))
    (Path.Posix.tidy (s.layout.stagedPath source.path)) (s.stagedContent source) with
    ⟨h', wrote, puts⟩ | ⟨e, h', failed, leaves⟩
  · rw [wrote]
    exact .inl ⟨h', rfl, puts⟩
  · rw [failed]
    refine .inr ?_
    dsimp only [Action.orElse]
    split
    · -- The failure is logged, which may fail itself.
      have logs : σ.Spares (fun _ => False)
          (Log.warning owner ("Failed to stage ".toList ++ source.path ++
          " at ".toList ++ s.layout.stagedPath source.path ++ ": ".toList ++ e.message)) :=
        Log.warning_spares _ _ _
      rcases logs.outcome leaves.scene with
        ⟨_, h'', logged, -, leaves'⟩ | ⟨e', h'', failed', leaves'⟩
      · exact .inl ⟨h'', Action.perform_bind_ok logged, leaves.trans leaves'⟩
      · exact .inr ⟨e', h'', Action.perform_bind_error failed', (leaves.trans leaves').runs_eq⟩
    · exact .inr ⟨e, h', rfl, leaves.runs_eq⟩

/-- **Staging a source** writes its copy, or spares everything. -/
theorem stageSource_staged (source : Source) (scene : h.In σ) :
    s.Staged σ source h ((s.stageSource source).perform h) := by
  unfold stageSource
  split
  · have logs : σ.Spares (fun _ => False)
        (Log.debug owner ("Skipping transient source ".toList ++ source.path)) :=
      Log.debug_spares _ _ _
    rcases logs.outcome scene with ⟨_, h', logged, -, leaves⟩ | ⟨e, h', failed, leaves⟩
    · rw [Action.perform_bind_ok logged]
      exact .passed leaves
    · rw [Action.perform_bind_error failed]
      exact .failed leaves.runs_eq
  · dsimp only
    rcases s.writeCopy_cases source scene with
      ⟨h', wrote, puts⟩ | ⟨h', failed, leaves⟩ | ⟨e, h', failed, runs⟩
    · rw [Action.perform_bind_ok wrote]
      exact s.staged_of_wrote puts
    · rw [Action.perform_bind_ok failed]
      exact .passed leaves
    · rw [Action.perform_bind_error failed]
      exact .failed runs

end Staging

namespace Compilation

variable (c : Compilation)

/-- The path of the staged copy of a source. -/
abbrev stagedPath (x : Source) : Text := c.staging.layout.stagedPath x.path

/-- Whether the staged copy of a source stands at its place, with its content. -/
def Current (fs : FileSystem) (cwd : Place) (x : Source) : Prop :=
  fs.content? (c.staging.placeFor cwd x) = some (c.staging.copyOf x)

instance (fs : FileSystem) (cwd : Place) (x : Source) : Decidable (c.Current fs cwd x) :=
  inferInstanceAs (Decidable (_ = _))

/-- The sources that are staged when sources are staged and compiled one after another. -/
def stagedIn : List Source → Host → List Source
  | [], _ => []
  | x :: rest, h =>
    (match ((c.staging.stageSource x).perform h).1 with
      | .ok (some _) => [x]
      | _ => []) ++ stagedIn rest ((c.runSource x).perform h).2

/-- What stands at a place after sources were staged: the copy of the last one whose place it is, or
else what stood there before. -/
def copyAt (cwd q : Place) (before : Option Bytes) (staged : List Source) : Option Bytes :=
  staged.foldl (fun old x =>
    if q = c.staging.placeFor cwd x then some (c.staging.copyOf x) else old) before

theorem stagedIn_subset (sources : List Source) (h : Host) : c.stagedIn sources h ⊆ sources := by
  induction sources generalizing h with
  | nil => exact List.Subset.refl _
  | cons x rest ih =>
    refine List.append_subset.mpr ⟨?_, List.subset_cons_of_subset x (ih _)⟩
    split
    · exact List.cons_subset_cons x (List.nil_subset rest)
    · exact List.nil_subset _

theorem copyAt_of_apart {cwd q : Place} {staged : List Source} (before : Option Bytes)
    (apart : ∀ x ∈ staged, q ≠ c.staging.placeFor cwd x) :
    c.copyAt cwd q before staged = before := by
  induction staged with
  | nil => rfl
  | cons x rest ih =>
    obtain ⟨first, others⟩ := List.forall_mem_cons.mp apart
    rw [copyAt, List.foldl_cons, if_neg first]
    exact ih others

/-- A run of the compiler in a job: it is on some source of the job, and finds the copies of the
sources that were staged so far. -/
def Sees (σ : Scene) (sources : List Source) (h : Host) (r : ToolRun) : Prop :=
  ∃ before x after, sources = before ++ x :: after ∧
    r.invocation = c.compiling (c.stagedPath x) (targetOf h (c.stagedPath x) none) ∧
    ∀ q, σ.kept q →
      r.files.content? q = c.copyAt σ.cwd q (h.files.content? q) (c.stagedIn (before ++ [x]) h)

/-- What staging and compiling sources does to a host in a scene. -/
structure Compiled (σ : Scene) (sources : List Source) (h : Host)
    (out : Except Fault (List Text) × Host) :
    Prop where
  done : ∀ blocks, out.1 = .ok blocks → out.2.In σ ∧ ∀ q, σ.kept q →
    out.2.files.content? q = c.copyAt σ.cwd q (h.files.content? q) (c.stagedIn sources h)
  runs : ∃ new, out.2.runs = h.runs ++ new ∧ ∀ r ∈ new, Compiles r.invocation → c.Sees σ sources h r

variable {c} {sources : List Source} {x : Source}

/-- **One source** is staged, and if it was, the compiler finds its copy. -/
theorem runSource_compiled (scene : h.In σ)
    (apart : c.Apart σ (c.stagedPath x) (targetOf h (c.stagedPath x) none)) :
    c.Compiled σ [x] h ((c.runSource x).perform h) := by
  have staged := c.staging.stageSource_staged x scene
  unfold runSource
  cases performed : (c.staging.stageSource x).perform h with
  | mk outcome h' =>
    rw [performed] at staged
    cases staged with
    | there puts =>
      have own : c.stagedIn [x] h = [x] := by simp [stagedIn, performed]
      -- Staging does not change the working directory, which outputs are relative to.
      have same : targetOf h' (c.stagedPath x) none = targetOf h (c.stagedPath x) none :=
        targetOf_congr (puts.scene.cwd.trans scene.cwd.symm) _
      have leaves := run_spares puts.scene (same ▸ apart) h' puts.scene
      rw [Action.perform_bind_ok performed]
      refine ⟨fun blocks _ => ⟨leaves.scene, fun q kept => ?_⟩, ?_⟩
      · rw [own, leaves.content q kept, puts.content q kept]
        rfl
      · obtain ⟨new, runs, seen⟩ := leaves.runs
        refine ⟨new, runs.trans (by rw [puts.runs]), fun r mem compiles => ?_⟩
        obtain ⟨needed, content⟩ := seen r mem
        refine ⟨[], x, [], rfl, ?_, fun q kept => ?_⟩
        · rw [needed.eq_compiling compiles, same]
        · rw [List.nil_append, own, content q kept, puts.content q kept]
          rfl
    | passed leaves =>
      have nothing : c.stagedIn [x] h = [] := by simp [stagedIn, performed]
      rw [Action.perform_bind_ok performed]
      refine ⟨fun blocks _ => ⟨leaves.scene, fun q kept => ?_⟩, [], ?_, nofun⟩
      · rw [nothing]
        exact leaves.content q kept
      · rw [List.append_nil]
        exact leaves.runs_eq
    | failed runs =>
      rw [Action.perform_bind_error performed]
      exact ⟨nofun, [], by rw [runs, List.append_nil], nofun⟩

theorem stagedIn_cons (x : Source) (rest : List Source) (h : Host) :
    c.stagedIn (x :: rest) h = c.stagedIn [x] h ++ c.stagedIn rest
      ((c.runSource x).perform h).2 := by
  simp [stagedIn]

theorem copyAt_append (cwd q : Place) (before : Option Bytes) (front back : List Source) :
    c.copyAt cwd q before (front ++ back) = c.copyAt cwd q (c.copyAt cwd q before front) back :=
  List.foldl_append ..

/-- Runs for the sources after one are runs for all of them. -/
theorem Sees.cons {h' : Host} {r : ToolRun} (sees : c.Sees σ sources h' r) (cwd : h'.cwd = h.cwd)
    (turn : ((c.runSource x).perform h).2 = h') (content : ∀ q, σ.kept q →
      h'.files.content? q = c.copyAt σ.cwd q (h.files.content? q) (c.stagedIn [x] h)) :
    c.Sees σ (x :: sources) h r := by
  obtain ⟨before, y, after, rfl, invocation, found⟩ := sees
  refine ⟨x :: before, y, after, rfl, ?_, fun q kept => ?_⟩
  · rw [invocation, targetOf_congr cwd]
  · rw [found q kept, content q kept, List.cons_append, stagedIn_cons x (before ++ [y]) h,
      copyAt_append, turn]

/-- **Sources in order.** -/
theorem runSources_compiled (scene : h.In σ)
    (apart : ∀ x ∈ sources, c.Apart σ (c.stagedPath x) (targetOf h (c.stagedPath x) none)) :
    c.Compiled σ sources h ((c.runSources sources).perform h) := by
  induction sources generalizing h with
  | nil => exact ⟨fun _ _ => ⟨scene, fun _ _ => rfl⟩, [], (List.append_nil _).symm, nofun⟩
  | cons x rest ih =>
    obtain ⟨first, others⟩ := List.forall_mem_cons.mp apart
    have one := runSource_compiled scene first
    obtain ⟨new, runs, sees⟩ := one.runs
    have here : ∀ r ∈ new, Compiles r.invocation → c.Sees σ (x :: rest) h r := by
      intro r mem compiles
      obtain ⟨before, y, after, split, invocation, found⟩ := sees r mem compiles
      exact ⟨before, y, after ++ rest, by rw [← List.singleton_append, split]; simp,
        invocation, found⟩
    unfold runSources
    cases performed : (c.runSource x).perform h with
    | mk outcome h' =>
      rw [performed] at one runs
      cases outcome with
      | error e =>
        rw [Action.perform_bind_error performed]
        exact ⟨nofun, new, runs, here⟩
      | ok blocks =>
        obtain ⟨scene', content⟩ := one.done blocks rfl
        have cwd : h'.cwd = h.cwd := scene'.cwd.trans scene.cwd.symm
        have others_ := ih scene' fun y mem => by rw [targetOf_congr cwd]; exact others y mem
        obtain ⟨new', runs', sees'⟩ := others_.runs
        have turn : ((c.runSource x).perform h).2 = h' := by rw [performed]
        rw [Action.perform_bind_ok performed]
        -- These are the runs, whether or not one of the other sources fails.
        have all : ∃ more, ((c.runSources rest).perform h').2.runs = h.runs ++ more ∧
            ∀ r ∈ more, Compiles r.invocation → c.Sees σ (x :: rest) h r := by
          refine ⟨new ++ new', by rw [runs', runs, List.append_assoc], fun r mem compiles => ?_⟩
          rcases List.mem_append.mp mem with mem | mem
          · exact here r mem compiles
          · exact (sees' r mem compiles).cons cwd turn content
        have done := others_.done
        cases performed' : (c.runSources rest).perform h' with
        | mk outcome' h'' =>
          rw [performed'] at all done
          cases outcome' with
          | error e =>
            rw [Action.perform_bind_error performed']
            exact ⟨nofun, all⟩
          | ok more =>
            rw [Action.perform_bind_ok performed']
            obtain ⟨scene'', content'⟩ := done more rfl
            refine ⟨fun _ _ => ⟨scene'', fun q kept => ?_⟩, all⟩
            rw [Action.perform_pure, content' q kept, content q kept, stagedIn_cons x rest h,
              copyAt_append,
              turn]

/-! ## Jobs -/

variable (c)

/-- A place whose file is left alone while sources are compiled, other than by staging: no tool that
is needed changes it, and it is apart from the outputs, the toolchain and the log. -/
structure Undisturbed (sources : List Source) (h : Host) (q : Place) : Prop where
  tools : ∀ x ∈ sources, ∀ i, c.Needs (c.stagedPath x) (targetOf h (c.stagedPath x) none) i →
    ∀ fs, (h.tools h.cwd h.environment i fs).2.content? q = fs.content? q
  saved : ∀ x ∈ sources, ∀ fs finished name,
    (h.tools h.cwd h.environment (c.linking (c.stagedPath x) (targetOf h (c.stagedPath x) none))
      fs).1
        = .ok finished →
      savedFile? (Utf8.readLenient finished.output) = some name →
        ¬ placeOf h.cwd (Path.Posix.join (directoryOf (c.stagedPath x)) name) <+: q
  outputs : ∀ x ∈ sources, ∀ ext ∈ [Layout.bytecodeExt, Layout.codeExt],
    ¬ placeOf h.cwd (outputOf (c.stagedPath x) (targetOf h (c.stagedPath x) none) ext) <+: q
  toolchain : ∀ w ∈ c.toolchain.wanted, placeOf h.cwd w.1.path ≠ q ∧
    placeOf h.cwd w.1.versionPath ≠ q
  log : ∀ path ∈ h.logFiles, placeOf h.cwd path ≠ q

/-- The scene in which sources are compiled. -/
def sceneOf (sources : List Source) (h : Host) : Scene where
  cwd := h.cwd
  environment := h.environment
  tools := h.tools
  expected i := ∃ x ∈ sources, c.Needs (c.stagedPath x) (targetOf h (c.stagedPath x) none) i
  kept := c.Undisturbed sources h
  gentle := fun i ⟨x, mem, needed⟩ _ kept fs => kept.tools x mem i needed fs

theorem in_sceneOf (sources : List Source) (h : Host) : h.In (c.sceneOf sources h) :=
  ⟨rfl, rfl, rfl, fun path mem kept => kept.log path mem rfl⟩

theorem apart_sceneOf (mem : x ∈ sources) :
    c.Apart (c.sceneOf sources h) (c.stagedPath x) (targetOf h (c.stagedPath x) none) where
  expected _ needed := ⟨x, mem, needed⟩
  toolchain w wanted := ⟨⟨x, mem, .asking wanted⟩, fun kept => (kept.toolchain w wanted).1 rfl,
    fun kept => (kept.toolchain w wanted).2 rfl⟩
  outputs ext one _ kept := kept.outputs x mem ext one
  saved fs finished name ran told _ kept := kept.saved x mem fs finished name ran told

/-- Logging what was skipped runs no tool. -/
theorem logSkipped_spares {P : Invocation → Prop} (skipped : List Malformed) :
    σ.Spares P (c.logSkipped skipped) := by
  induction skipped with
  | nil => exact .pure _
  | cons m ms ih => exact .bind (Log.debug_spares _ _ _) fun _ _ => ih

/-- The runs of a job are those of its sources. -/
theorem compile_runs (job : Job) (h : Host) :
    ((c.compile job).perform h).2.runs = ((c.runSources job.toSources).perform h).2.runs := by
  have compiled :=
    runSources_compiled (c.in_sceneOf job.toSources h) fun x mem => c.apart_sceneOf mem
  unfold compile
  cases performed : (c.runSources job.toSources).perform h with
  | mk outcome h' =>
    rw [performed] at compiled
    cases outcome with
    | error e => rw [Action.perform_bind_error performed]
    | ok output =>
      -- After the sources only the log is written to.
      have report : (c.sceneOf job.toSources h).Spares (fun _ => False) (do
          let r := c.reader (← get)
          c.logSkipped (r.skipped output)
          let ds := r.read output
          Log.debug owner ("Compiled ".toList ++ Text.ofNat job.size ++ " source(s): ".toList ++
            Text.ofNat ds.length ++ " diagnostic(s)".toList)
          pure ds) :=
        .bind .get fun _ _ => .bind (c.logSkipped_spares _) fun _ _ =>
          .bind (Log.debug_spares _ _ _) fun _ _ => .pure _
      rw [Action.perform_bind_ok performed]
      exact (report h' (compiled.done output rfl).1).runs_eq

/-- **What the compiler sees of a job.**  When it starts on a source, the sources before it were
staged and those after it were not.  So the staged copy of any source is current if and only if the
last one staged in its place so far has the same copy, or, where none was, if it was current before
the job.  The latter goes for every source that shares its place with none so far, as later sources
do. -/
theorem compiler_sees_iff (job : Job) (h : Host) :
    ∃ new, ((c.compile job).perform h).2.runs = h.runs ++ new ∧
      ∀ r ∈ new, Compiles r.invocation → ∃ before x after, job.toSources = before ++ x :: after ∧
        r.invocation = c.compiling (c.stagedPath x) (targetOf h (c.stagedPath x) none) ∧
        (∀ y, c.Undisturbed job.toSources h (c.staging.placeFor h.cwd y) →
          (c.Current r.files h.cwd y ↔
            c.copyAt h.cwd (c.staging.placeFor h.cwd y)
              (h.files.content? (c.staging.placeFor h.cwd y))
              (c.stagedIn (before ++ [x]) h) = some (c.staging.copyOf y))) ∧
        ∀ y, c.Undisturbed job.toSources h (c.staging.placeFor h.cwd y) →
          (∀ z ∈ before ++ [x], c.staging.placeFor h.cwd y ≠ c.staging.placeFor h.cwd z) →
            (c.Current r.files h.cwd y ↔ c.Current h.files h.cwd y) := by
  have compiled :=
    runSources_compiled (c.in_sceneOf job.toSources h) fun x mem => c.apart_sceneOf mem
  obtain ⟨new, runs, sees⟩ := compiled.runs
  refine ⟨new, (c.compile_runs job h).trans runs, fun r mem compiles => ?_⟩
  obtain ⟨before, x, after, split, invocation, found⟩ := sees r mem compiles
  refine ⟨before, x, after, split, invocation, fun y kept => ?_, fun y kept apart => ?_⟩
  · unfold Current
    rw [found _ kept]
    rfl
  -- None of the copies so far is at the place of `y`.
  · have unstaged : c.copyAt h.cwd (c.staging.placeFor h.cwd y)
        (h.files.content? (c.staging.placeFor h.cwd y)) (c.stagedIn (before ++ [x]) h)
          = h.files.content? (c.staging.placeFor h.cwd y) :=
      c.copyAt_of_apart _ fun z mem => apart z (c.stagedIn_subset _ h mem)
    unfold Current
    rw [found _ kept]
    exact iff_of_eq (congrArg (· = some (c.staging.copyOf y)) unstaged)

/-! A contract imports another one, and neither compiles.  Nothing was staged before. -/

/-- A job of two sources, the first of which imports the second. -/
def pair : Job := Job.ofSources
  [{ path := "/p/contracts/A.sol".toList, content := "import './B.sol';".toList },
    { path := "/p/contracts/B.sol".toList, content := "?".toList }]

/-- The imported source. -/
def imported : Source := { path := "/p/contracts/B.sol".toList, content := "?".toList }

/-- A compilation with a toolchain that is installed in a directory. -/
def installed : Compilation := { toolchain := Toolchain.at_ "/t".toList {} }

/-- A host with that toolchain.  The compiler finds errors, so there is nothing to link. -/
def fresh : Host where
  files :=
    { entries :=
      [(["t".toList], .directory), (["t".toList, "solidity".toList], .directory),
        (["t".toList, "solidity".toList, "solc".toList], .file [] .program),
        (["t".toList, "solidity".toList, "tvm_linker".toList], .file [] .program),
        (["t".toList, "solidity".toList, "stdlib_sol.tvm".toList], .file [] .plain)] }
  tools _ _ _ fs := (.ok { status := 1, output := [], errors := [] }, fs)

theorem imported_undisturbed :
    installed.Undisturbed pair.toSources fresh (installed.staging.placeFor fresh.cwd imported) where
  tools _ _ _ _ _ := rfl
  saved x mem fs finished name ran told := by
    obtain rfl : { status := 1, output := [], errors := [] } = finished := Except.ok.inj ran
    cases told
  outputs := by decide +kernel
  toolchain := by decide +kernel
  log := nofun

/-- Runs of the compiler find the imported source's copy as it is said above. -/
theorem imported_seen : ∃ r ∈ ((installed.compile pair).perform fresh).2.runs,
    Compiles r.invocation ∧
    ∃ before x after, pair.toSources = before ++ x :: after ∧
      (installed.Current r.files fresh.cwd imported ↔
        installed.copyAt fresh.cwd (installed.staging.placeFor fresh.cwd imported) none
          (installed.stagedIn (before ++ [x]) fresh) =
            some (installed.staging.copyOf imported)) := by
  obtain ⟨new, runs, sees⟩ := installed.compiler_sees_iff pair fresh
  obtain ⟨r, mem, compiles⟩ :
      ∃ r ∈ ((installed.compile pair).perform fresh).2.runs, Compiles r.invocation := by
    decide +kernel
  have added : r ∈ new := by
    rw [runs] at mem
    exact mem
  obtain ⟨before, x, after, split, -, iff, -⟩ := sees r added compiles
  exact ⟨r, mem, compiles, before, x, after, split, iff imported imported_undisturbed⟩

/-- When the first source is compiled, the copy of the one that it imports is missing; it is staged
later. -/
theorem imported_missing : ∃ r ∈ ((installed.compile pair).perform fresh).2.runs,
    Compiles r.invocation ∧
    imported ∈ pair.toSources ∧ ¬ installed.Current r.files fresh.cwd imported ∧
    installed.Current ((installed.compile pair).perform fresh).2.files fresh.cwd imported := by
  decide +kernel

end Compilation
end ContractCheck
