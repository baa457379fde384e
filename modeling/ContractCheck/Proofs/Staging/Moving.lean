import ContractCheck.Proofs.FileSystem.Carrying
import ContractCheck.Proofs.Host.Planting
import ContractCheck.Proofs.Staging.Artifacts

/-! # The turn of an output

Whatever the files are like, the turn of an output comes to one of four things: the output waits as
before, though a copy of it may have been left; a file is moved to where it is to go; a file is
moved into a directory that stands there; or a directory is moved in place of the output
(`Staging.promoteOutput_turn`).  Unless a directory is moved, files of two names change, a directory
that waited may have lost what was in it, and all other directories stay (`Staging.Onward`).
-/
namespace ContractCheck

open ContractCheck.Action
open FileSystem (placeOf folderOf OnWay Rewrites Scatters Carries)
open Layout (Stem extensions bytecodeExt interfaceExt transportExt)
open ContractCheck.Path (Usable InDirectory)

variable {h h' h'' : Host}

namespace Staging

section Paths

variable (s : Staging) (path : Text)

/-- Whether the last name of a place is one of some names. -/
def Named (names : List Text) (z : Place) : Prop := ∃ name ∈ names, z.getLast? = some name

/-- The places where the outputs of a source wait and where they go. -/
def outputPlaces (cwd : Place) : List Place :=
  [s.outputPath path bytecodeExt, s.layout.buildPath path bytecodeExt,
    s.outputPath path interfaceExt, s.layout.buildPath path interfaceExt].map (placeOf cwd)

/-- Whether a place is at or below one of an output that has one of some names. -/
def Below (names : List Text) (cwd z : Place) : Prop :=
  ∃ p ∈ s.outputPlaces path cwd, Named names p ∧ p <+: z

/-- A host after steps that changed what is at places of some names, and below them if an output
waits there or goes there.  Elsewhere only the log was written, and directories were made on the way
to the build directory; no directory went. -/
structure Onward (names : List Text) (h h' : Host) : Prop where
  changes : h.Changes (fun z => Named names z ∨ s.Below path names h.cwd z)
    (OnWay h.cwd (s.buildDirectory path)) h'
  directory : ∀ z, ¬ s.Below path names h.cwd z →
    h.files.get? z = some .directory → h'.files.get? z = some .directory
  planted : h'.Planted

/-- The directories that the paths of a promotion lead through, and the working directory. -/
def Through (cwd z : Place) : Prop :=
  z = cwd ∨ ∃ file ∈ s.involved path, OnWay cwd (Path.Posix.parent file) z

/-- A host whose files are a tree, whose log can be written and is not where a promotion puts
anything, and in which no path of the promotion leads through a place of an output.  Anything may
wait or stand in the way, and every step may fail. -/
structure Fair (h : Host) : Prop where
  planted : h.Planted
  ready : h.LogReady
  aside : ∀ file ∈ s.involved path, ¬ h.LogArea (placeOf h.cwd file)
  outside : ∀ z, s.Through path h.cwd z → ∀ p ∈ s.outputPlaces path h.cwd, ¬ p <+: z

/-- An output that can only be promoted as a file: it is one, and where it goes no directory
stands. -/
structure Plain (e : Text) (h : Host) : Prop where
  waiting : h.files.isFile h.cwd (s.outputPath path e) = true
  target : h.files.get? (placeOf h.cwd (s.layout.buildPath path e)) ≠ some .directory

end Paths

instance (s : Staging) (path e : Text) (h : Host) : Decidable (s.Plain path e h) :=
  decidable_of_iff (h.files.isFile h.cwd (s.outputPath path e) = true ∧
    h.files.get? (placeOf h.cwd (s.layout.buildPath path e)) ≠ some .directory)
    ⟨fun ⟨waiting, target⟩ => ⟨waiting, target⟩, fun ⟨waiting, target⟩ => ⟨waiting, target⟩⟩

variable {s : Staging} {path ext stem e file dir name : Text} {names names' : List Text}
  {σ : List Place} {z : Place}

theorem Below.mono {cwd : Place} (below : s.Below path names cwd z) (sub : names ⊆ names') :
    s.Below path names' cwd z := by
  obtain ⟨p, listed, ⟨own, mem, last⟩, above⟩ := below
  exact ⟨p, listed, ⟨own, sub mem, last⟩, above⟩

/-! ## Going on -/

namespace Onward

theorem refl (planted : h.Planted) : s.Onward path [] h h := ⟨.refl .., fun _ _ => id, planted⟩

theorem mono (on : s.Onward path names h h') (sub : names ⊆ names') :
    s.Onward path names' h h' where
  changes := on.changes.mono fun _ =>
    Or.imp (fun ⟨own, mem, last⟩ => ⟨own, sub mem, last⟩) fun below => below.mono sub
  directory z outside := on.directory z fun below => outside (below.mono sub)
  planted := on.planted

theorem trans (first : s.Onward path names h h') (second : s.Onward path names' h' h'') :
    s.Onward path (names ++ names') h h'' := by
  have first := first.mono (List.subset_append_left names names')
  have second := second.mono (List.subset_append_right names names')
  have changes := second.changes
  have directory := second.directory
  rw [first.changes.cwd] at changes directory
  exact ⟨first.changes.trans changes,
    fun z outside => directory z outside ∘ first.directory z outside, second.planted⟩

theorem of_noted (planted : h.Planted) (noted : h.Noted h') : s.Onward path [] h h' where
  changes := noted.touches.toChanges.widen (fun _ => False.elim) fun _ => False.elim
  directory z _ := noted.grows.directory z
  planted := noted.planted planted

/-- Files of some names change. -/
theorem of_rewrites (planted : h.Planted) {fs : FileSystem} (rewrites : Rewrites σ h.files fs)
    (named : ∀ z ∈ σ, Named names z) :
    s.Onward path names h { h with files := fs } where
  changes := .files fun z other => .inl (rewrites.rest z fun mem => other (.inl (named z mem)))
  directory _ _ := rewrites.directory
  planted := planted.rewrites rewrites

/-- The build directory is made, or some of the directories above it. -/
theorem of_made (planted : h.Planted) :
    s.Onward path [] h { h with files := (h.files.makeDirectories h.cwd (s.buildDirectory path)).1 }
      where
  changes := .files fun z _ => by
    rcases (FileSystem.makeDirectories_within (fun _ => False) h.files h.cwd
      (s.buildDirectory path)).entry z with
      same | ⟨nowhere, -⟩ | new
    · exact .inl same
    · exact nowhere.elim
    · exact .inr new
  directory z _ := (FileSystem.makeDirectories_grows ..).directory z
  planted := planted.makeDirectories _

variable (on : s.Onward path names h h')
include on

theorem cwd : h'.cwd = h.cwd := on.changes.cwd

theorem fair (fair : s.Fair path h) : s.Fair path h' where
  planted := on.planted
  ready := on.changes.shows.ready fair.ready
  aside file mem area := fair.aside file mem (on.changes.area _ (by rwa [on.cwd] at area))
  outside := by
    rw [on.cwd]
    exact fair.outside

end Onward

namespace Fair

variable (fair : s.Fair path h) (inside : InDirectory file dir name) (mem : file ∈ s.involved path)
include fair inside mem

/-- A path of another name leads neither to an output that has one of the names nor below it. -/
theorem not_below (fresh : name ∉ names) : ¬ s.Below path names h.cwd (placeOf h.cwd file) := by
  rintro ⟨p, listed, ⟨own, mem', last⟩, above⟩
  rw [inside.placeOf, List.prefix_concat_iff] at above
  rcases above with rfl | above
  · rw [List.getLast?_concat] at last
    exact fresh (Option.some.inj last ▸ mem')
  · exact fair.outside _ (.inr ⟨file, mem, inside.folder_onWay h.cwd⟩) p listed above

/-- No directory on the way of a path is at an output or below one. -/
theorem way_not_below (names : List Text) (on : OnWay h.cwd file z)
    (other : z ≠ placeOf h.cwd file) :
    ¬ s.Below path names h.cwd z := by
  rintro ⟨p, listed, -, above⟩
  exact fair.outside z (.inr ⟨file, mem, (inside.onWay on).resolve_left other⟩) p listed above

end Fair

namespace Onward

variable (on : s.Onward path names h h') (fair : s.Fair path h) (inside : InDirectory file dir name)
  (mem : file ∈ s.involved path) (fresh : name ∉ names)
include on fair inside mem fresh

/-- What a path of another name leads to stays, or a directory was made there. -/
theorem entry : h'.files.get? (placeOf h.cwd file) = h.files.get? (placeOf h.cwd file) ∨
    OnWay h.cwd (s.buildDirectory path) (placeOf h.cwd file) ∧
    h.files.get? (placeOf h.cwd file) = none := by
  have other : ¬ (Named names (placeOf h.cwd file) ∨
      s.Below path names h.cwd (placeOf h.cwd file)) := by
    rintro (⟨own, mem', last⟩ | below)
    · rw [inside.placeOf, List.getLast?_concat] at last
      exact fresh (Option.some.inj last ▸ mem')
    · exact fair.not_below inside mem fresh below
  rcases on.changes.entry _ other with same | ⟨atLog, -⟩ | ⟨logWay | way, none, -⟩
  · exact .inl same
  · exact absurd (.inl atLog) (fair.aside file mem)
  · exact absurd (.inr logWay) (fair.aside file mem)
  · exact .inr ⟨way, none⟩

/-- **At a place of an output nothing changes** if it has another name. -/
theorem same (listed : placeOf h.cwd file ∈ s.outputPlaces path h.cwd) :
    h'.files.get? (placeOf h.cwd file) = h.files.get? (placeOf h.cwd file) := by
  refine (on.entry fair inside mem fresh).resolve_right fun ⟨way, _⟩ => ?_
  have first : s.layout.buildPath path bytecodeExt ∈ s.involved path := by
    simp [involved, bytecodePaths]
  exact fair.outside _ (.inr ⟨_, first, way⟩) _ listed List.prefix_rfl

/-- **A file of another name is still found**, by its path and by the tidy one. -/
theorem find_file {route : Text} {p : Place} {b : Bytes} {x : Mode}
    (same : route = file ∨ route = Path.Posix.tidy file)
    (found : h.files.find h.cwd route = .ok (p, .file b x)) :
    h'.files.find h'.cwd route = .ok (p, .file b x) := by
  obtain ⟨led, there⟩ := FileSystem.find_iff.mp found
  obtain ⟨way, rfl⟩ : (∀ q, OnWay h.cwd route q → OnWay h.cwd file q) ∧ p = placeOf h.cwd file := by
    rcases same with rfl | rfl
    · exact ⟨fun _ => id, FileSystem.resolve_place led⟩
    · exact ⟨fun _ => FileSystem.onWay_tidy.mp,
        (FileSystem.resolve_place led).trans (FileSystem.placeOf_tidy h.cwd file)⟩
  rw [on.cwd]
  refine FileSystem.find_iff.mpr ⟨FileSystem.resolve_keeps (fun q ahead stands => ?_) led, ?_⟩
  · refine on.directory q (fair.way_not_below inside mem names (way q ahead) ?_) stands
    rintro rfl
    cases stands.symm.trans there
  · rcases on.entry fair inside mem fresh with same | ⟨-, none⟩
    · rw [same, there]
    · cases none.symm.trans there

end Onward

/-! ## Moving an output -/

/-- A move is refused if its directory cannot be made; else it is done or fails, and that is
told. -/
theorem move_cases {source target : Text} (ready : h.LogReady) (usable : Usable source)
    (usable' : Usable target) :
    (∃ h', (move source target).perform h = (.ok false, h') ∧
      { h with files := (h.files.makeDirectories h.cwd (Path.Posix.parent target)).1 }.Noted h') ∨
    (h.files.makeDirectories h.cwd (Path.Posix.parent target)).2 = none ∧ ∃ fs error h',
      (h.files.makeDirectories h.cwd (Path.Posix.parent target)).1.move h.cwd source target =
        (fs, error) ∧
      (move source target).perform h = (.ok error.isNone, h') ∧
      { h with files := fs }.Noted h' := by
  have made := perform_makeDirectories (Path.Posix.parent target) h
  generalize outcome : h.files.makeDirectories h.cwd (Path.Posix.parent target) = done at made ⊢
  obtain ⟨fs₁, error⟩ := done
  have ready' (fs : FileSystem) :
    { h with files := fs }.LogReady := Host.ready_of_same rfl rfl ready
  -- Whatever the fault is, the log tells it.
  have refused {e : Fault} {act : Action Bool} {fs : FileSystem}
      (failed : act.perform h = (.error e, { h with files := fs }))
      (system : e.fromSystem = true) : ∃ h', (do
        let moved ← orSystem act fun e => do
          Log.warning owner ("Failed to promote ".toList ++ source ++ " to ".toList ++
            target ++ ": ".toList ++ e.message)
          pure false
        if moved then Log.debug owner ("Promoted ".toList ++ source ++ " -> ".toList ++ target)
        pure moved : Action Bool).perform h = (.ok false, h') ∧
          { h with files := fs }.Noted h' := by
    obtain ⟨h', warned, noted⟩ := Log.orSystem_warned failed system (ready' fs) owner
      (fun e => "Failed to promote ".toList ++ source ++ " to ".toList ++ target ++ ": ".toList ++
        e.message) false
    exact ⟨h', (perform_bind_ok warned).trans rfl, noted⟩
  cases error with
  | some e =>
    refine .inl (refused (perform_bind_error made) ?_)
    exact FileSystem.makeDirectories_fromSystem usable'.parent (congrArg Prod.snd outcome)
  | none =>
    have changed := perform_attempt (fun fs cwd p => fs.move cwd p target) source
      { h with files := fs₁ }
    cases moved : fs₁.move h.cwd source target with
    | mk fs error =>
      simp only [moved] at changed
      refine .inr ⟨rfl, fs, error, ?_⟩
      cases error with
      | some e =>
        have system : (Fault.file e source).fromSystem = true :=
          FileSystem.move_fromSystem usable usable' (congrArg Prod.snd moved)
        have told : ∃ h', (move source target).perform h = (.ok false, h') ∧
            { h with files := fs }.Noted h' :=
          refused ((perform_bind_ok made).trans (perform_bind_error changed)) system
        obtain ⟨h', performed, noted⟩ := told
        exact ⟨h', rfl, performed, noted⟩
      | none =>
        obtain ⟨h', told, noted⟩ := Log.write_noted .debug owner.toList
          ("Promoted ".toList ++ source ++ " -> ".toList ++ target) [] (ready' fs)
        refine ⟨h', rfl, ?_, noted⟩
        unfold move
        rw [perform_bind_ok (perform_orSystem_ok
          ((perform_bind_ok made).trans ((perform_bind_ok changed).trans rfl))), if_pos rfl]
        exact (perform_bind_ok told).trans rfl

/-- What the turn of an output comes to, unless a directory is moved. -/
inductive Taking (s : Staging) (path e : Text) (marked built : Text) (h : Host) :
    Option Text → Host → Prop
  /-- Nothing waits, or what waits is not moved; if it is a file, it waits as before. -/
  | kept {h' : Host} (on : s.Onward path [marked, built] h h')
      (waits : h' = h ∨ h.files.isThere h.cwd (s.outputPath path e) = true)
      (stays : ∀ p b x, h.files.find h.cwd (s.outputPath path e) = .ok (p, .file b x) →
        h'.files.find h'.cwd (s.outputPath path e) = .ok (p, .file b x)) :
      Taking s path e marked built h none h'
  /-- A file is moved. -/
  | moved {h' : Host} {p q : Place} {b : Bytes} {x : Mode} (on : s.Onward path [marked, built] h h')
      (plain : s.Plain path e h)
      (found : h.files.find h.cwd (s.outputPath path e) = .ok (p, .file b x))
      (arrived : h'.files.find h'.cwd (s.layout.buildPath path e) = .ok (q, .file b x)) :
      Taking s path e marked built h (some (s.layout.buildPath path e)) h'
  /-- A file is moved into a directory that stands at the target. -/
  | strayed {h' : Host} {p : Place} {b : Bytes} {x : Mode} (on : s.Onward path [marked, built] h h')
      (blocked : ¬ s.Plain path e h)
      (found : h.files.find h.cwd (s.outputPath path e) = .ok (p, .file b x))
      (directory : h'.files.get? (placeOf h'.cwd (s.layout.buildPath path e)) = some .directory) :
      Taking s path e marked built h (some (s.layout.buildPath path e)) h'

namespace Taking

variable {marked built : Text} {taken : Option Text}
  (turn : Taking s path e marked built h taken h')
include turn

theorem on : s.Onward path [marked, built] h h' := by
  cases turn <;> assumption

/-- Something is done only if something waits. -/
theorem waits : taken = none ∧ h' = h ∨ h.files.isThere h.cwd (s.outputPath path e) = true := by
  cases turn with
  | kept on waits => exact waits.imp_left fun same => ⟨rfl, same⟩
  | moved on plain found => exact .inr (FileSystem.isThere_of_find found)
  | strayed on blocked found => exact .inr (FileSystem.isThere_of_find found)

/-- What is named has arrived if it was plain. -/
theorem arrives {t : Text} (named : taken = some t) (plain : s.Plain path e h) :
    ∃ q b x, h'.files.find h'.cwd (s.layout.buildPath path e) = .ok (q, .file b x) := by
  cases turn with
  | kept => cases named
  | moved on plain found arrived => exact ⟨_, _, _, arrived⟩
  | strayed on blocked => exact absurd plain blocked

end Taking

/-- A directory is moved in place of an output, and reported. -/
structure Uprooted (s : Staging) (path e : Text) (h : Host) (taken : Option Text) : Prop where
  found : ∃ p, h.files.find h.cwd (s.outputPath path e) = .ok (p, .directory)
  reported : taken = some (s.layout.buildPath path e)

/-! ## The outputs of a source -/

theorem kind_listed (kind : e ∈ [bytecodeExt, interfaceExt]) : e ∈ extensions := by
  simp only [List.mem_cons, List.not_mem_nil, or_false] at kind
  rcases kind with rfl | rfl <;> decide

theorem kind_involved (kind : e ∈ [bytecodeExt, interfaceExt]) :
    s.outputPath path e ∈ s.involved path ∧ s.layout.buildPath path e ∈ s.involved path := by
  simp only [List.mem_cons, List.not_mem_nil, or_false] at kind
  rcases kind with rfl | rfl <;> simp [involved, bytecodePaths, interfacePaths]

theorem kind_places (kind : e ∈ [bytecodeExt, interfaceExt]) (cwd : Place) :
    placeOf cwd (s.outputPath path e) ∈ s.outputPlaces path cwd ∧
      placeOf cwd (s.layout.buildPath path e) ∈ s.outputPlaces path cwd := by
  simp only [List.mem_cons, List.not_mem_nil, or_false] at kind
  rcases kind with rfl | rfl <;> simp [outputPlaces]

section Own

variable (own : Stem s.layout path ext stem)
include own

theorem output_last (listed : e ∈ extensions) (cwd : Place) :
    (placeOf cwd (s.outputPath path e)).getLast? = some (s.layout.marker ++ stem ++ e) := by
  rw [output_place own listed, List.getLast?_concat]

theorem target_last (listed : e ∈ extensions) (cwd : Place) :
    (placeOf cwd (s.layout.buildPath path e)).getLast? = some (stem ++ e) := by
  rw [target_place own listed, List.getLast?_concat]

/-- What is moved into a directory keeps its name. -/
theorem entering_last (listed : e ∈ extensions) (cwd : Place) (target : Text) :
    (placeOf cwd (FileSystem.enteringPath (s.outputPath path e) target)).getLast? =
      some (s.layout.marker ++ stem ++ e) := by
  have source := output_inside own listed
  rw [FileSystem.enteringPath_eq source]
  exact FileSystem.placeOf_endsIn source.bare source.proper (.join (.inl rfl) _) cwd

section Moved

variable (kind : e ∈ [bytecodeExt, interfaceExt]) (fair : s.Fair path h) {fs₁ fs : FileSystem}
  (on₁ : s.Onward path [] h { h with files := fs₁ })
include kind fair on₁

section File

variable {b : Bytes} {x : Mode}
  (found : h.files.find h.cwd (s.outputPath path e) =
    .ok (placeOf h.cwd (s.outputPath path e), .file b x))
include found

/-- A file that is given the place of the target has arrived. -/
theorem arrived_turn
    (led : fs₁.resolve h.cwd (s.layout.buildPath path e) =
      .ok (placeOf h.cwd (s.layout.buildPath path e)))
    (carries : Carries (placeOf h.cwd (s.outputPath path e))
      (placeOf h.cwd (s.layout.buildPath path e)) b x fs₁ fs)
    (noted : { h with files := fs }.Noted h') :
    Taking s path e (s.layout.marker ++ stem ++ e) (stem ++ e) h
      (some (s.layout.buildPath path e)) h' := by
  have listed := kind_listed kind
  have on₂ : s.Onward path [s.layout.marker ++ stem ++ e, stem ++ e] { h with files := fs₁ }
      { h with files := fs } :=
    .of_rewrites on₁.planted carries.rewrites
      (by simp [Named, output_last own listed, target_last own listed])
  have on₃ : s.Onward path [] { h with files := fs } h' := .of_noted on₂.planted noted
  have free := carries.rewrites.free (placeOf h.cwd (s.layout.buildPath path e)) (by simp)
  have target := on₁.same fair (own.target e listed) (kind_involved kind).2 List.not_mem_nil
    (kind_places kind _).2
  refine .moved ((on₁.trans on₂).trans on₃) ⟨FileSystem.isFile_iff.mpr ⟨_, b, x, found⟩,
    target ▸ free⟩ found
    (on₃.find_file (p := placeOf h.cwd (s.layout.buildPath path e)) ((on₁.trans on₂).fair fair)
      (own.target e listed)
      (kind_involved kind).2 List.not_mem_nil (.inl rfl) ?_)
  exact FileSystem.find_iff.mpr
    ⟨FileSystem.resolve_keeps (fun _ _ => carries.rewrites.directory) led, carries.arrived⟩

/-- A file that is given a place in a directory at the target has strayed. -/
theorem strayed_turn {q : Place}
    (stands : fs₁.get? (placeOf h.cwd (s.layout.buildPath path e)) = some .directory)
    (led : fs₁.resolve h.cwd (FileSystem.enteringPath (s.outputPath path e)
      (s.layout.buildPath path e)) = .ok q)
    (carries : Carries (placeOf h.cwd (s.outputPath path e)) q b x fs₁ fs)
    (noted : { h with files := fs }.Noted h') :
    Taking s path e (s.layout.marker ++ stem ++ e) (stem ++ e) h
      (some (s.layout.buildPath path e)) h' := by
  have listed := kind_listed kind
  have on₂ : s.Onward path [s.layout.marker ++ stem ++ e, stem ++ e] { h with files := fs₁ }
      { h with files := fs } :=
    .of_rewrites on₁.planted carries.rewrites
      (by simp [Named, output_last own listed, FileSystem.resolve_place led,
        entering_last own listed])
  have on₃ : s.Onward path [] { h with files := fs } h' := .of_noted on₂.planted noted
  have target := on₁.same fair (own.target e listed) (kind_involved kind).2 List.not_mem_nil
    (kind_places kind _).2
  refine .strayed ((on₁.trans on₂).trans on₃)
    (fun plain => plain.target (target.symm.trans stands)) found ?_
  rw [on₃.cwd]
  exact noted.grows.directory _ (carries.rewrites.directory stands)

/-- A file whose move failed waits as before. -/
theorem waiting_turn (found₁ : fs₁.find h.cwd (s.outputPath path e) =
      .ok (placeOf h.cwd (s.outputPath path e), .file b x))
    (left : fs = fs₁ ∨ ∃ q, (fs₁.resolve h.cwd (s.layout.buildPath path e) = .ok q ∨
        fs₁.resolve h.cwd (FileSystem.enteringPath (s.outputPath path e)
          (s.layout.buildPath path e)) = .ok q) ∧
      placeOf h.cwd (s.outputPath path e) ≠ q ∧ Rewrites [q] fs₁ fs)
    (noted : { h with files := fs }.Noted h') :
    Taking s path e (s.layout.marker ++ stem ++ e) (stem ++ e) h none h' := by
  have listed := kind_listed kind
  have there : h.files.isThere h.cwd (s.outputPath path e) = true :=
    FileSystem.isThere_of_find found
  obtain ⟨on₂, found₂⟩ : s.Onward path [s.layout.marker ++ stem ++ e, stem ++ e]
      { h with files := fs₁ }
      { h with files := fs } ∧
      fs.find h.cwd (s.outputPath path e) =
        .ok (placeOf h.cwd (s.outputPath path e), .file b x) := by
    rcases left with rfl | ⟨q, led, other, rewrites⟩
    · exact ⟨(Onward.refl on₁.planted).mono (List.nil_subset _), found₁⟩
    · obtain ⟨led₁, there₁⟩ := FileSystem.find_iff.mp found₁
      have named : Named [s.layout.marker ++ stem ++ e, stem ++ e] q := by
        rcases led with led | led
        · exact ⟨stem ++ e, by simp, FileSystem.resolve_place led ▸ target_last own listed _⟩
        · exact ⟨_, by simp, FileSystem.resolve_place led ▸ entering_last own listed _ _⟩
      refine ⟨.of_rewrites on₁.planted rewrites (by simpa using named), FileSystem.find_iff.mpr
        ⟨FileSystem.resolve_keeps (fun _ _ => rewrites.directory) led₁, ?_⟩⟩
      rw [rewrites.rest _ (List.mem_singleton.not.mpr other), there₁]
  have on₃ : s.Onward path [] { h with files := fs } h' := .of_noted on₂.planted noted
  refine .kept ((on₁.trans on₂).trans on₃) (.inr there) fun p b' x' found' => ?_
  obtain ⟨rfl, same⟩ := Prod.mk.inj (Except.ok.inj (found.symm.trans found'))
  rw [← same]
  exact on₃.find_file ((on₁.trans on₂).fair fair) (output_inside own listed) (kind_involved kind).1
    List.not_mem_nil (.inl rfl) found₂

end File

/-- A directory whose move failed may have lost what was in it. -/
theorem torn_turn (found : h.files.find h.cwd (s.outputPath path e) =
      .ok (placeOf h.cwd (s.outputPath path e), .directory)) {goal : Text}
    (goes : goal = s.layout.buildPath path e ∨
      fs₁.isDirectory h.cwd (s.layout.buildPath path e) = true ∧
      goal = FileSystem.enteringPath (s.outputPath path e) (s.layout.buildPath path e))
    (scatters : Scatters (placeOf h.cwd (s.outputPath path e)) (placeOf h.cwd goal)
      (Path.Posix.parent goal) h.cwd fs₁ fs) (noted : { h with files := fs }.Noted h') :
    Taking s path e (s.layout.marker ++ stem ++ e) (stem ++ e) h none h' := by
  have listed := kind_listed kind
  have source (z : Place) (above : placeOf h.cwd (s.outputPath path e) <+: z) :
      s.Below path [s.layout.marker ++ stem ++ e, stem ++ e] h.cwd z :=
    ⟨_, (kind_places kind _).1, ⟨_, by simp, output_last own listed _⟩, above⟩
  have target (z : Place) (above : placeOf h.cwd (s.layout.buildPath path e) <+: z) :
      s.Below path [s.layout.marker ++ stem ++ e, stem ++ e] h.cwd z :=
    ⟨_, (kind_places kind _).2, ⟨_, by simp, target_last own listed _⟩, above⟩
  -- A copy is at the target or in a directory there, and then no directory is made.
  obtain ⟨within, made⟩ : placeOf h.cwd (s.layout.buildPath path e) <+: placeOf h.cwd goal ∧
      ∀ z, OnWay h.cwd (Path.Posix.parent goal) z → fs₁.get? z = none →
        OnWay h.cwd (s.buildDirectory path) z := by
    rcases goes with rfl | ⟨directory, rfl⟩
    · exact ⟨List.prefix_rfl, fun z on _ => parent_target own listed ▸ on⟩
    · have entering :=
        FileSystem.enteringPath_eq (output_inside own listed) (s.layout.buildPath path e)
      have inside : InDirectory (FileSystem.enteringPath (s.outputPath path e)
          (s.layout.buildPath path e))
          (s.layout.buildPath path e) (s.layout.marker ++ stem ++ e) :=
        ⟨entering, (output_inside own listed).bare, (output_inside own listed).proper⟩
      refine ⟨?_, fun z on none => ?_⟩
      · rw [inside.placeOf, FileSystem.folderOf_eq_placeOf]
        exact List.prefix_append _ _
      · rw [inside.parent, FileSystem.onWay_tidy] at on
        cases none.symm.trans (FileSystem.onWay_directory directory on)
  have directory (z : Place) (outside : ¬ s.Below path [s.layout.marker ++ stem ++ e,
      stem ++ e] h.cwd z)
      (stands : fs₁.get? z = some .directory) : fs.get? z = some .directory := by
    rcases scatters.entry z with same | above | ⟨-, above⟩ | ⟨-, none, -⟩
    · rw [same, stands]
    · exact absurd (source z above) outside
    · exact absurd (target z (within.trans above)) outside
    · cases none.symm.trans stands
  have cwd : ¬ s.Below path [s.layout.marker ++ stem ++ e, stem ++ e] h.cwd h.cwd :=
    fun ⟨p, mem, _, above⟩ => fair.outside h.cwd (.inl rfl) p mem above
  have on₂ : s.Onward path [s.layout.marker ++ stem ++ e, stem ++ e] { h with files := fs₁ }
      { h with files := fs } :=
    { changes := .files fun z other => by
        rcases scatters.entry z with same | above | ⟨-, above⟩ | ⟨on, none, directory⟩
        · exact .inl same
        · exact absurd (.inr (source z above)) other
        · exact absurd (.inr (target z (within.trans above))) other
        · exact .inr ⟨made z on none, none, directory⟩
      directory := directory
      planted := ⟨scatters.tree, directory _ cwd on₁.planted.stands⟩ }
  refine .kept ((on₁.trans on₂).trans (.of_noted on₂.planted noted))
    (.inr (FileSystem.isThere_of_find found))
    fun p b x file => ?_
  cases found.symm.trans file

end Moved

/-- A move of an output is a turn of it, unless a directory is moved. -/
theorem move_turn (kind : e ∈ [bytecodeExt, interfaceExt]) (fair : s.Fair path h)
    {p : Place} {n : Node} (found : h.files.find h.cwd (s.outputPath path e) = .ok (p, n))
    {fs : FileSystem} {error : Option FileError}
    (moved : (h.files.makeDirectories h.cwd (s.buildDirectory path)).1.move
      h.cwd (s.outputPath path e) (s.layout.buildPath path e) = (fs, error))
    (noted : { h with files := fs }.Noted h') :
    s.Uprooted path e h (if error.isNone then some (s.layout.buildPath path e) else none) ∨
      Taking s path e (s.layout.marker ++ stem ++ e) (stem ++ e) h
        (if error.isNone then some (s.layout.buildPath path e) else none) h' := by
  have listed := kind_listed kind
  have on₁ : s.Onward path [] h
      { h with files := (h.files.makeDirectories h.cwd (s.buildDirectory path)).1 } :=
    .of_made fair.planted
  have grows := FileSystem.makeDirectories_grows h.files h.cwd (s.buildDirectory path)
  generalize (h.files.makeDirectories h.cwd (s.buildDirectory path)).1 = fs₁ at on₁ moved grows
  obtain ⟨rfl, there⟩ := FileSystem.find_place found
  have planted := on₁.planted
  -- What was found is found after the directory was made.
  have found₁ : fs₁.find h.cwd (s.outputPath path e) =
      .ok (placeOf h.cwd (s.outputPath path e), n) := by
    refine FileSystem.find_iff.mpr ⟨grows.resolve (FileSystem.find_iff.mp found).1, ?_⟩
    rw [← there]
    exact on₁.same fair (output_inside own listed) (kind_involved kind).1 List.not_mem_nil
      (kind_places kind _).1
  cases n with
  | file b x =>
    cases error with
    | some e' =>
      refine .inr (waiting_turn own kind fair on₁ found found₁ ?_ noted)
      exact FileSystem.move_file_failed planted.tree planted.stands found₁ moved
    | none =>
      obtain ⟨q, led, ⟨same, -⟩ | carries⟩ | ⟨directory, q, led, carries⟩ :=
        FileSystem.move_file_done planted.tree planted.stands found₁ moved
      · rw [FileSystem.resolve_place led, output_place own listed, target_place own listed] at same
        exact absurd same (marked_ne_built own listed listed _ _)
      · obtain rfl := FileSystem.resolve_place led
        exact .inr (arrived_turn own kind fair on₁ found led carries noted)
      · obtain ⟨q', found'⟩ := FileSystem.isDirectory_iff.mp directory
        obtain ⟨rfl, stands⟩ := FileSystem.find_place found'
        exact .inr (strayed_turn own kind fair on₁ found stands led carries noted)
  | directory =>
    cases error with
    | none => exact .inl ⟨⟨_, found⟩, rfl⟩
    | some e' =>
      obtain ⟨goal, goes, scatters⟩ :=
        FileSystem.move_directory_failed planted.tree planted.stands found₁
        (by rw [output_place own listed]; simp) moved
      exact .inr (torn_turn own kind fair on₁ found goes scatters noted)

/-- **The turn of an output** leaves it waiting, moves a file or reports a directory. -/
theorem promoteOutput_turn (kind : e ∈ [bytecodeExt, interfaceExt]) (ready : h.LogReady)
    (usable : Usable (s.layout.buildPath path e)) :
    ∃ taken h', (s.promoteOutput path e).perform h = (.ok taken, h') ∧ h'.LogReady ∧
      (∀ t, taken = some t → t = s.layout.buildPath path e) ∧
      (s.Fair path h → s.Uprooted path e h taken ∨
        Taking s path e (s.layout.marker ++ stem ++ e) (stem ++ e) h taken h') := by
  rcases h.files.found_or_absent h.cwd (s.outputPath path e) with ⟨p, n, found, there⟩ | ⟨-, absent⟩
  · have seen := perform_look (s.outputPath path e) h
    rw [there] at seen
    have usable' : Usable (s.outputPath path e) :=
      (FileSystem.resolve_iff.mp (FileSystem.find_iff.mp found).1).1.1
    have parent := parent_target own (kind_listed kind)
    have ready' (fs : FileSystem) :
      { h with files := fs }.LogReady := Host.ready_of_same rfl rfl ready
    obtain ⟨h', performed, noted⟩ | ⟨-, fs, error, h', moved, performed, noted⟩ :=
      move_cases ready usable' usable
    · refine ⟨none, h', (perform_bind_ok seen).trans ((perform_bind_ok performed).trans rfl),
        noted.touches.shows.ready (ready' _), nofun, fun fair => .inr ?_⟩
      rw [parent] at noted
      have on₁ : s.Onward path [] h
          { h with files := (h.files.makeDirectories h.cwd (s.buildDirectory path)).1 } :=
        .of_made fair.planted
      have on := on₁.trans (.of_noted on₁.planted noted)
      exact .kept (on.mono (List.nil_subset _)) (.inr there) fun p b x =>
        on.find_file fair (output_inside own (kind_listed kind)) (kind_involved kind).1
          List.not_mem_nil (.inl rfl)
    · rw [parent] at moved
      refine ⟨if error.isNone then some (s.layout.buildPath path e) else none, h',
        (perform_bind_ok seen).trans ((perform_bind_ok performed).trans ?_),
        noted.touches.shows.ready (ready' _), fun t same => ?_,
        fun fair => move_turn own kind fair found moved noted⟩
      · cases error <;> rfl
      · cases error with
        | none => exact (Option.some.inj same).symm
        | some e' => cases same
  · exact ⟨none, h, promoteOutput_none absent, ready, nofun, fun fair =>
      .inr (.kept ((Onward.refl fair.planted).mono (List.nil_subset _)) (.inl rfl) fun _ _ _ => id)⟩

end Own

end Staging
end ContractCheck
