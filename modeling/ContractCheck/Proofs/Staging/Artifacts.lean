import ContractCheck.Proofs.Staging.Turns

/-! # The whole effect of a promotion

A promotion is about six paths: where the bytecode of a source is, where it goes and where it is
written in base64, where the interface description is and where it goes, and the staged copy.  If no
directory is in the way there, the outputs that wait are moved and the staged copy goes, nothing
else changes, and a promotion right after finds nothing (`Staging.promote_settles`).
-/
namespace ContractCheck

open ContractCheck.Action
open FileSystem (placeOf Fits OnWay)
open Layout (Stem extensions bytecodeExt interfaceExt transportExt)

variable {h h' h₂ h₃ h₄ : Host} {made : Place → Prop} {σ : List Place}

namespace Staging

section Paths

variable (s : Staging) (path : Text)

/-- The paths of the bytecode. -/
def bytecodePaths : List Text :=
  [s.outputPath path bytecodeExt, s.layout.buildPath path bytecodeExt, s.transportPath path]

/-- The paths of the interface description. -/
def interfacePaths : List Text :=
  [s.outputPath path interfaceExt, s.layout.buildPath path interfaceExt]

/-- The paths that a promotion is about. -/
def involved : List Text :=
  s.bytecodePaths path ++ (s.interfacePaths path ++ [s.layout.stagedPath path])

/-- The places that a promotion is about. -/
def places (h : Host) : List Place := (s.involved path).map (placeOf h.cwd)

/-- Whether an output of a source waits beside its staged copy. -/
def Waits (h : Host) : Prop :=
  ∃ e ∈ [bytecodeExt, interfaceExt], h.files.isThere h.cwd (s.outputPath path e) = true

/-- The directories that a promotion makes if they are missing. -/
def Making (h : Host) (q : Place) : Prop := s.Waits path h ∧ OnWay h.cwd (s.buildDirectory path) q

/-- The places that a promotion changes: those of an output that is there, and that of a staged copy
that is there. -/
def Changed (h : Host) (q : Place) : Prop :=
  (h.files.isThere h.cwd (s.outputPath path bytecodeExt) = true ∧
    q ∈ (s.bytecodePaths path).map (placeOf h.cwd)) ∨
  (h.files.isThere h.cwd (s.outputPath path interfaceExt) = true ∧
    q ∈ (s.interfacePaths path).map (placeOf h.cwd)) ∨
  (h.files.isThere h.cwd (s.layout.stagedPath path) = true ∧
    q = placeOf h.cwd (s.layout.stagedPath path))

/-- A host in which nothing keeps the outputs of a source from being promoted: the files are a tree,
the directories can be made and written, bytecode that waits can be read and an older base64 form
written, none of the paths leads to a directory before or after that, the log is written to neither
there nor below, and the file system takes the paths that something goes to. -/
structure Unhindered (h : Host) : Prop where
  tree : h.files.IsTree
  ready : h.LogReady
  aside : ∀ p ∈ s.involved path, ∀ q, placeOf h.cwd p <+: q → ¬ h.LogArea q
  free : ∀ p ∈ s.involved path, h.files.get? (placeOf h.cwd p) ≠ some .directory
  start : s.Waits path h → h.files.get? (FileSystem.startOf h.cwd (s.buildDirectory path)) =
    some .directory
  made : s.Waits path h → (h.files.makeDirectories h.cwd (s.buildDirectory path)).2 = none ∧
    ∀ p ∈ s.involved path, (h.files.makeDirectories h.cwd (s.buildDirectory path)).1.get?
      (placeOf h.cwd p) ≠ some .directory
  writable : ∀ p ∈ s.involved path, (placeOf h.cwd p).dropLast ∉ h.files.denied
  readable : ∀ p b x, h.files.find h.cwd (s.outputPath path bytecodeExt) = .ok (p, .file b x) →
    x.readable = true
  older : h.files.isThere h.cwd (s.outputPath path bytecodeExt) = true →
    ∀ n, h.files.get? (placeOf h.cwd (s.transportPath path)) = some n → n.writable = true
  fits : ∀ e ∈ [bytecodeExt, interfaceExt], h.files.isThere h.cwd (s.outputPath path e) = true →
    Fits (s.layout.buildPath path e)
  transport : h.files.isThere h.cwd (s.outputPath path bytecodeExt) = true →
    Fits (s.transportPath path)

/-- What became of an output: if it was there, it is where it is to be, as it was, and nothing is
left of it. -/
structure Arrived (source target : Text) (h : Host) (taken : Option Text) (h' : Host) : Prop where
  moved : ∀ p n, h.files.find h.cwd source = .ok (p, n) →
    taken = some target ∧ h'.files.find h'.cwd target = .ok (placeOf h'.cwd target, n)
  absent : h.files.isThere h.cwd source = false → taken = none
  gone : h'.files.isThere h'.cwd source = false

/-- What a promotion comes to. -/
structure Settled (h : Host) (artifact : Artifact) (h' : Host) : Prop where
  bytecode : Arrived (s.outputPath path bytecodeExt) (s.layout.buildPath path bytecodeExt) h
    artifact.bytecode h'
  interface : Arrived (s.outputPath path interfaceExt) (s.layout.buildPath path interfaceExt) h
    artifact.interface h'
  transport : ∀ p n, h.files.find h.cwd (s.outputPath path bytecodeExt) = .ok (p, n) →
    artifact.transport = some (s.transportPath path) ∧ ∃ b x q t y, n = .file b x ∧
      h'.files.find h'.cwd (s.transportPath path) = .ok (q, .file (Utf8.encode t) y) ∧
      Text.Base64.decode? t = some b
  untransported : h.files.isThere h.cwd (s.outputPath path bytecodeExt) = false →
    artifact.transport = none
  source : h'.files.isThere h'.cwd (s.layout.stagedPath path) = false
  rest : h.Touches (s.Changed path h) (s.Making path h) h'

end Paths

variable {s : Staging} {path ext stem : Text} {e : Text} {n : Node} {p : Place}

/-! ## The places of a promotion -/

theorem mem_places {file : Text} (listed : file ∈ s.involved path) :
    placeOf h.cwd file ∈ s.places path h :=
  List.mem_map_of_mem listed

theorem bytecode_involved {file : Text} (listed : file ∈ s.bytecodePaths path) :
    file ∈ s.involved path :=
  List.mem_append_left _ listed

theorem interface_involved {file : Text} (listed : file ∈ s.interfacePaths path) :
    file ∈ s.involved path :=
  List.mem_append_right _ (List.mem_append_left _ listed)

theorem staged_involved : s.layout.stagedPath path ∈ s.involved path :=
  List.mem_append_right _ (List.mem_append_right _ (List.mem_singleton_self _))

/-- The places that a promotion is about are different places. -/
theorem places_nodup (own : Stem s.layout path ext stem) (h : Host) : (s.places path h).Nodup := by
  have beside (e : Text) (listed : e ∈ extensions) (e' : Text) (listed' : e' ∈ extensions)
      (here there : Place) :
      builtAt here (s.layout.marker ++ stem) e ≠ builtAt there stem e' :=
      marked_ne_built own listed listed' here there
  have source := Layout.mem_extensions own.source
  have other : bytecodeExt ≠ ext ∧ interfaceExt ≠ ext := by
    have source := own.source
    simp only [List.mem_cons, List.not_mem_nil, or_false] at source
    rcases source with rfl | rfl <;> decide
  simp only [places, involved, bytecodePaths, interfacePaths, List.cons_append,
    List.nil_append, List.map_cons, List.map_nil,
    staged_place own, output_place own (show bytecodeExt ∈ extensions by decide),
    output_place own (show interfaceExt ∈ extensions by decide),
    target_place own (show bytecodeExt ∈ extensions by decide),
    target_place own (show interfaceExt ∈ extensions by decide), transport_place own,
    List.nodup_cons, List.mem_cons,
    List.not_mem_nil, or_false, not_or, not_false_eq_true, List.nodup_nil, and_true]
  and_intros
  all_goals
    first
    | exact (beside _ source _ (by decide) _ _).symm
    | exact beside _ (by decide) _ (by decide) _ _
    | exact (beside _ (by decide) _ (by decide) _ _).symm
    | exact builtAt_ne _ _ other.1
    | exact builtAt_ne _ _ other.2
    | exact builtAt_ne _ _ (by decide)

/-- The places of the bytecode, those of the interface description, and that of the staged copy. -/
structure Separate (s : Staging) (path : Text) (h : Host) : Prop where
  bytecode : ∀ file ∈ s.bytecodePaths path,
    ∀ file' ∈ s.interfacePaths path ++ [s.layout.stagedPath path],
    placeOf h.cwd file ≠ placeOf h.cwd file'
  interface : ∀ file ∈ s.interfacePaths path,
    placeOf h.cwd file ≠ placeOf h.cwd (s.layout.stagedPath path)
  transport : placeOf h.cwd (s.outputPath path bytecodeExt) ≠ placeOf h.cwd (s.transportPath path) ∧
    placeOf h.cwd (s.layout.buildPath path bytecodeExt) ≠ placeOf h.cwd (s.transportPath path)

theorem separate (own : Stem s.layout path ext stem) (h : Host) : s.Separate path h := by
  have nodup := places_nodup own h
  rw [places, involved, List.map_append, List.nodup_append, List.map_append,
    List.nodup_append] at nodup
  obtain ⟨bytecode, ⟨-, -, interface⟩, apart⟩ := nodup
  simp only [bytecodePaths, List.map_cons, List.map_nil, List.nodup_cons, List.mem_cons,
    List.not_mem_nil, or_false,
    not_or] at bytecode
  refine ⟨fun file listed file' listed' => apart _ (List.mem_map_of_mem listed) _ ?_,
    fun file listed => interface _ (List.mem_map_of_mem listed) _ (by simp), bytecode.1.2,
      bytecode.2.1⟩
  rw [← List.map_append]
  exact List.mem_map_of_mem listed'

/-- The last two steps of a promotion are about no place of the bytecode. -/
theorem untouched (own : Stem s.layout path ext stem) {file : Text}
    (listed : file ∈ s.bytecodePaths path) :
    placeOf h.cwd file ∉ (s.interfacePaths path ++ [s.layout.stagedPath path]).map
      (placeOf h.cwd) := by
  intro inside
  obtain ⟨file', listed', same⟩ := List.mem_map.mp inside
  exact (separate own h).bytecode file listed file' listed' same.symm

/-! ## Making the build directory -/

/-- Places as they are before a promotion. -/
theorem Unhindered.apart (un : s.Unhindered path h) : h.Apart (s.places path h) where
  ready := un.ready
  free := List.forall_mem_map.mpr un.free
  clear := List.forall_mem_map.mpr fun p mem => un.tree.clear (un.free p mem)
  aside := List.forall_mem_map.mpr un.aside

/-- The build directory can be made for an output that waits. -/
theorem Unhindered.opens (un : s.Unhindered path h) (own : Stem s.layout path ext stem)
    (waits : s.Waits path h) :
    ∃ h₁, s.Opens path (s.places path h) (s.Making path h) h h₁ := by
  obtain ⟨done, free⟩ := un.made waits
  obtain ⟨apart, touches⟩ :=
    Host.Apart.makeDirectories (fun _ => False) un.tree (un.start waits) un.ready
    (List.forall_mem_map.mpr un.aside) (List.forall_mem_map.mpr free) fun q on => And.intro waits on
  refine ⟨_, ?_, apart, touches, ?_⟩
  · rw [perform_makeDirectories, done]
  · have tidy : s.buildDirectory path = Path.Posix.tidy (s.layout.buildingOf path) :=
      (own.target bytecodeExt (by decide)).parent
    have start := un.start waits
    rw [tidy] at done start ⊢
    exact FileSystem.standing_of_made un.tree start done

/-- A build directory that stands is not made again. -/
theorem Opens.of_standing (own : Stem s.layout path ext stem) (apart : h.Apart σ)
    (checked : '\x00' ∉ s.buildDirectory path ∧ (Utf8.encode (s.buildDirectory path)).length ≤
      FileSystem.maxPath)
    (building : h.files.Standing h.cwd (s.layout.buildingOf path)) : s.Opens path σ made h h := by
  refine ⟨?_, apart, .refl .., building⟩
  have tidy : s.buildDirectory path = Path.Posix.tidy (s.layout.buildingOf path) :=
    (own.target bytecodeExt (by decide)).parent
  rw [tidy] at checked ⊢
  rw [perform_makeDirectories, FileSystem.made_of_standing checked building]

/-! ## What is found later -/

section Kept

variable {touched : Place → Prop} {file dir name : Text} (inside : Path.InDirectory file dir name)
  (touches : h.Touches touched made h') (apart : h.Apart σ) (apart' : h'.Apart σ)
  (mem : placeOf h.cwd file ∈ σ)
  (other : ¬ touched (placeOf h.cwd file)) (stands : h.files.Standing h.cwd dir)
  (stands' : h'.files.Standing h'.cwd dir)
include inside touches apart apart' mem other stands stands'

/-- A path that nothing touched leads to what it led to. -/
theorem find_kept : h'.files.find h'.cwd file = .ok (p, n) ↔
    h.files.find h.cwd file = .ok (p, n) := by
  have same := touches.same apart apart' mem other
  rw [inside.placeOf] at same
  rw [inside.find_iff, inside.find_iff, touches.cwd]
  constructor
  · rintro ⟨nameable, -, rfl, there⟩
    exact ⟨nameable, stands, rfl, same ▸ there⟩
  · rintro ⟨nameable, -, rfl, there⟩
    exact ⟨nameable, touches.cwd ▸ stands', rfl, same.trans there⟩

theorem isThere_kept : h'.files.isThere h'.cwd file = h.files.isThere h.cwd file := by
  rcases h'.files.found_or_absent h'.cwd file with ⟨p, n, found, there⟩ | ⟨missing, absent⟩ <;>
    rcases h.files.found_or_absent h.cwd file with ⟨p', n', found', there'⟩ | ⟨missing', absent'⟩
  · rw [there, there']
  · exact absurd ((find_kept inside touches apart apart' mem other stands stands').mp found)
      (missing' p n)
  · exact absurd ((find_kept inside touches apart apart' mem other stands stands').mpr found')
      (missing p' n')
  · rw [absent, absent']

end Kept

/-- What became of an output by some step of a promotion. -/
structure Carried (s : Staging) (path e : Text) (h : Host) (taken : Option Text) (h' : Host) :
    Prop where
  moved : ∀ p n, h.files.find h.cwd (s.outputPath path e) = .ok (p, n) →
    taken = some (s.layout.buildPath path e) ∧
    h'.files.Standing h'.cwd (s.layout.buildingOf path) ∧
    h'.files.get? (placeOf h.cwd (s.layout.buildPath path e)) = some n ∧
    h'.files.get? (placeOf h.cwd (s.outputPath path e)) = none
  absent : h.files.isThere h.cwd (s.outputPath path e) = false →
    taken = none ∧ h'.files.isThere h'.cwd (s.outputPath path e) = false

namespace Carried

variable {taken : Option Text} (carried : s.Carried path e h taken h')
  (own : Stem s.layout path ext stem)
  (listed : e ∈ extensions) (cwd : h'.cwd = h.cwd)
include carried own listed cwd

/-- It is so after every later step that does not touch the output. -/
theorem later {touched : Place → Prop} {h'' : Host} (touches : h'.Touches touched made h'')
    (apart : h'.Apart σ) (apart' : h''.Apart σ) (mem : placeOf h.cwd (s.outputPath path e) ∈ σ)
    (mem' : placeOf h.cwd (s.layout.buildPath path e) ∈ σ)
    (other : ¬ touched (placeOf h.cwd (s.outputPath path e)))
    (other' : ¬ touched (placeOf h.cwd (s.layout.buildPath path e)))
    (inside : ∀ q, touched q → q ∈ σ)
    (staging : h'.files.Standing h'.cwd (s.layout.stagingOf path)) :
    s.Carried path e h taken h'' where
  moved p n found := by
    obtain ⟨named, building, arrived, gone⟩ := carried.moved p n found
    exact ⟨named, touches.standing apart inside building,
      (touches.same apart apart' mem' other').trans arrived,
      (touches.same apart apart' mem other).trans gone⟩
  absent none := by
    obtain ⟨named, absent⟩ := carried.absent none
    refine ⟨named, ?_⟩
    rw [← cwd] at mem other
    rw [isThere_kept (output_inside own listed) touches apart apart' mem
      other staging (touches.standing apart inside staging), absent]

/-- At the end it has arrived. -/
theorem arrived (fits : h.files.isThere h.cwd (s.outputPath path e) = true →
    Fits (s.layout.buildPath path e)) :
    Arrived (s.outputPath path e) (s.layout.buildPath path e) h taken h' where
  moved p n found := by
    obtain ⟨named, building, arrived, -⟩ := carried.moved p n found
    have there : h.files.isThere h.cwd (s.outputPath path e) = true := by
      unfold FileSystem.isThere
      rw [found]
      rfl
    have inside := own.target e listed
    refine ⟨named, inside.find_iff.mpr ⟨inside.nameable (fits there), building,
      inside.placeOf h'.cwd, ?_⟩⟩
    rw [cwd, arrived]
  absent none := (carried.absent none).1
  gone := by
    rcases h.files.found_or_absent h.cwd (s.outputPath path e) with ⟨p, n, found, -⟩ | ⟨-, none⟩
    · obtain ⟨-, -, -, gone⟩ := carried.moved p n found
      have inside := output_inside own listed
      rw [← cwd, inside.placeOf] at gone
      rw [Bool.eq_false_iff, Ne, inside.isThere_iff]
      exact fun ⟨_, _, given⟩ => given gone
    · exact (carried.absent none).2

end Carried

/-! ## The bytecode in both forms -/

/-- What the first two steps of a promotion come to. -/
structure Halved (s : Staging) (path : Text) (h : Host) (taken transport : Option Text)
    (h' : Host) : Prop where
  apart : h'.Apart (s.places path h)
  touches : h.Touches (fun q => h.files.isThere h.cwd (s.outputPath path bytecodeExt) = true ∧
    q ∈ (s.bytecodePaths path).map (placeOf h.cwd)) (s.Making path h) h'
  carried : s.Carried path bytecodeExt h taken h'
  written : ∀ p n, h.files.find h.cwd (s.outputPath path bytecodeExt) = .ok (p, n) →
    transport = some (s.transportPath path) ∧ ∃ b x x', n = .file b x ∧
      h'.files.get? (placeOf h.cwd (s.transportPath path)) =
        some (.file (Utf8.encode (Text.Base64.encode b)) x')
  absent : h.files.isThere h.cwd (s.outputPath path bytecodeExt) = false → transport = none ∧ h' = h

/-- What the steps of a promotion come to, one after the other. -/
structure Course (s : Staging) (path : Text) (h : Host) (artifact : Artifact) (h₂ h₃ h₄ : Host) :
    Prop where
  half : s.Halved path h artifact.bytecode artifact.transport h₂
  apart₃ : h₃.Apart (s.places path h)
  touches₃ : h₂.Touches (fun q => h.files.isThere h.cwd (s.outputPath path interfaceExt) = true ∧
    q ∈ (s.interfacePaths path).map (placeOf h.cwd)) (s.Making path h) h₃
  carried₃ : s.Carried path interfaceExt h artifact.interface h₃
  staging₂ : h₂.files.Standing h₂.cwd (s.layout.stagingOf path)
  staging₃ : h₃.files.Standing h₃.cwd (s.layout.stagingOf path)
  apart₄ : h₄.Apart (s.places path h)
  touches₄ : h₃.Touches (fun q => h.files.isThere h.cwd (s.layout.stagedPath path) = true ∧
    q = placeOf h.cwd (s.layout.stagedPath path)) (s.Making path h) h₄
  cleared : h₄.files.isThere h₄.cwd (s.layout.stagedPath path) = false

section Whole

variable (un : s.Unhindered path h) (own : Stem s.layout path ext stem)
include un own

/-- **The bytecode is promoted in both forms.** -/
theorem bytecode_halved :
    ∃ taken transport h₁ h₂, (s.promoteOutput path bytecodeExt).perform h = (.ok taken, h₁) ∧
    (transported taken).perform h₁ = (.ok transport, h₂) ∧ s.Halved path h taken transport h₂ := by
  have first : s.outputPath path bytecodeExt ∈ s.bytecodePaths path := by simp [bytecodePaths]
  have second : s.layout.buildPath path bytecodeExt ∈ s.bytecodePaths path := by
    simp [bytecodePaths]
  have third : s.transportPath path ∈ s.bytecodePaths path := by simp [bytecodePaths]
  have mem {file : Text} (listed : file ∈ s.bytecodePaths path) :
      placeOf h.cwd file ∈ s.places path h :=
    mem_places (bytecode_involved listed)
  obtain ⟨taken, h₁, performed, turned⟩ :=
    promoteOutput_turned own (by decide) un.apart (mem first) (mem second)
    (fun there => un.opens own ⟨bytecodeExt, by simp, there⟩) (un.fits bytecodeExt (by simp))
    (un.writable _ (bytecode_involved first)) (un.writable _ (bytecode_involved second))
  obtain ⟨output_transport, target_transport⟩ := (separate own h).transport
  rcases h.files.found_or_absent h.cwd (s.outputPath path bytecodeExt) with
    ⟨p, n, found, there⟩ | ⟨missing, absent⟩
  · obtain ⟨rfl, building, arrived, gone⟩ := turned.moved p n found
    have cwd := turned.touches.cwd
    have denied := turned.touches.denied
    obtain ⟨b, x, rfl⟩ : ∃ b x, n = .file b x := by
      cases n with
      | directory => exact absurd arrived (turned.apart.free _ (mem second))
      | file b x => exact ⟨b, x, rfl⟩
    have older : ∀ n, h₁.files.get? (placeOf h₁.cwd (s.transportPath path)) = some n →
        n.writable = true := by
      rw [cwd, turned.touches.same un.apart turned.apart (mem third)
        fun ⟨_, same⟩ => same.elim (output_transport ·.symm) (target_transport ·.symm)]
      exact un.older there
    obtain ⟨h₂, x', wrote, apart₂, touches₂, written⟩ :=
      writeTransport_touches (h := h₁) (s.Making path h) own turned.apart
      (cwd ▸ mem third) building (cwd ▸ arrived) (un.fits bytecodeExt (by simp) there)
        (un.transport there)
      (un.readable _ b x found) older
      (by rw [cwd, denied]; exact un.writable _ (bytecode_involved third))
    rw [cwd] at touches₂ written
    refine ⟨_, _, h₁, h₂, performed, wrote, apart₂, ?_, ⟨fun p' n' found' => ?_, fun absent => ?_⟩,
      fun p' n' found' => ?_, fun absent => ?_⟩
    · refine (turned.touches.mono ?_).trans (touches₂.mono ?_)
      · rintro q ⟨-, rfl | rfl⟩
        · exact ⟨there, List.mem_map_of_mem first⟩
        · exact ⟨there, List.mem_map_of_mem second⟩
      · rintro q rfl
        exact ⟨there, List.mem_map_of_mem third⟩
    · obtain ⟨-, rfl⟩ := Prod.mk.inj (Except.ok.inj (found.symm.trans found'))
      refine ⟨rfl, touches₂.standing turned.apart (by rintro q rfl; exact mem third) building, ?_,
        ?_⟩
      · exact (touches₂.same turned.apart apart₂ (mem second) target_transport).trans arrived
      · exact (touches₂.same turned.apart apart₂ (mem first) output_transport).trans gone
    · cases there.symm.trans absent
    · obtain ⟨-, rfl⟩ := Prod.mk.inj (Except.ok.inj (found.symm.trans found'))
      exact ⟨rfl, b, x, x', rfl, written⟩
    · cases there.symm.trans absent
  · obtain ⟨rfl, rfl⟩ := turned.absent absent
    exact ⟨none, none, h₁, h₁, performed, rfl, turned.apart, .refl ..,
      ⟨fun p n found => absurd found (missing p n),
      fun _ => ⟨rfl, absent⟩⟩, fun p n found => absurd found (missing p n), fun _ => ⟨rfl, rfl⟩⟩

variable {taken transport : Option Text}
  (staging : h.files.Standing h.cwd (s.layout.stagingOf path))
  (half : s.Halved path h taken transport h₂)
include staging half

omit own in
/-- The directory beside the staged copy stands when the bytecode was promoted. -/
theorem staging_kept : h₂.files.Standing h₂.cwd (s.layout.stagingOf path) := by
  refine half.touches.standing un.apart ?_ staging
  rintro q ⟨-, inside⟩
  obtain ⟨file, listed, rfl⟩ := List.mem_map.mp inside
  exact mem_places (bytecode_involved listed)

/-- **The interface description is promoted**, if it was there at first. -/
theorem interface_carried :
    ∃ interface h₃, (s.promoteOutput path interfaceExt).perform h₂ = (.ok interface, h₃) ∧
    h₃.Apart (s.places path h) ∧
    h₂.Touches (fun q => h.files.isThere h.cwd (s.outputPath path interfaceExt) = true ∧
      q ∈ (s.interfacePaths path).map (placeOf h.cwd)) (s.Making path h) h₃ ∧
    s.Carried path interfaceExt h interface h₃ := by
  have first : s.outputPath path interfaceExt ∈ s.interfacePaths path := by simp [interfacePaths]
  have second : s.layout.buildPath path interfaceExt ∈ s.interfacePaths path := by
    simp [interfacePaths]
  have mem {file : Text} (listed : file ∈ s.interfacePaths path) :
      placeOf h.cwd file ∈ s.places path h :=
    mem_places (interface_involved listed)
  have listed : interfaceExt ∈ extensions := by decide
  have cwd := half.touches.cwd
  have denied := half.touches.denied
  have staging₂ := staging_kept un staging half
  have other : ¬ (h.files.isThere h.cwd (s.outputPath path bytecodeExt) = true ∧
      placeOf h.cwd (s.outputPath path interfaceExt) ∈ (s.bytecodePaths path).map
        (placeOf h.cwd)) := by
    rintro ⟨-, inside⟩
    obtain ⟨file, listed, same⟩ := List.mem_map.mp inside
    exact (separate own h).bytecode file listed _ (List.mem_append_left _ first) same
  have waiting := isThere_kept (output_inside own listed) half.touches
    un.apart half.apart (mem first) other staging staging₂
  have found_iff {p : Place} {n : Node} :=
    find_kept (p := p) (n := n) (output_inside own listed) half.touches un.apart half.apart
    (mem first) other staging staging₂
  -- The build directory stands if the bytecode went there, and can be made as at first if there was
  -- none.
  have opens (there : h₂.files.isThere h₂.cwd (s.outputPath path interfaceExt) = true) :
      ∃ h₁, s.Opens path (s.places path h) (s.Making path h) h₂ h₁ := by
    have waits : s.Waits path h := ⟨interfaceExt, by simp, waiting ▸ there⟩
    rcases h.files.found_or_absent h.cwd (s.outputPath path bytecodeExt) with
      ⟨p, n, found, -⟩ | ⟨-, absent⟩
    · obtain ⟨-, building, -⟩ := half.carried.moved p n found
      exact ⟨h₂, .of_standing own half.apart
        (FileSystem.checked_of_made (un.made waits).1) building⟩
    · obtain ⟨-, rfl⟩ := half.absent absent
      exact un.opens own waits
  obtain ⟨interface, h₃, performed, turned⟩ := promoteOutput_turned own (h := h₂) listed half.apart
    (cwd ▸ mem first)
    (cwd ▸ mem second) opens (fun there => un.fits interfaceExt (by simp) (waiting ▸ there))
    (by rw [cwd, denied]; exact un.writable _ (interface_involved first))
    (by rw [cwd, denied]; exact un.writable _ (interface_involved second))
  have touches := turned.touches
  have moved := turned.moved
  rw [waiting, cwd] at touches
  simp only [found_iff] at moved
  rw [cwd] at moved
  refine ⟨interface, h₃, performed, turned.apart, touches.mono ?_, moved, fun absent => ?_⟩
  · rintro q ⟨there, rfl | rfl⟩
    · exact ⟨there, List.mem_map_of_mem first⟩
    · exact ⟨there, List.mem_map_of_mem second⟩
  · obtain ⟨rfl, rfl⟩ := turned.absent (waiting.trans absent)
    exact ⟨rfl, waiting.trans absent⟩

omit half in
/-- **The four steps of a promotion** out of a directory that stands. -/
theorem promote_course : ∃ artifact h₂ h₃ h₄, (s.promote path).perform h = (.ok artifact, h₄) ∧
    s.Course path h artifact h₂ h₃ h₄ := by
  obtain ⟨bytecode, transport, h₁, h₂, first, second, half⟩ := bytecode_halved un own
  obtain ⟨interface, h₃, third, apart₃, touches₃, carried₃⟩ := interface_carried un own staging half
  have cwd₃ := touches₃.cwd.trans half.touches.cwd
  have denied₃ := touches₃.denied.trans half.touches.denied
  have staging₂ := staging_kept un staging half
  have staging₃ : h₃.files.Standing h₃.cwd (s.layout.stagingOf path) := by
    refine touches₃.standing half.apart ?_ staging₂
    rintro q ⟨-, inside⟩
    obtain ⟨file, listed, rfl⟩ := List.mem_map.mp inside
    exact mem_places (interface_involved listed)
  obtain ⟨h₄, fourth, apart₄, touches₄, gone₄, same₄⟩ := clearStaged_touches (h := h₃)
    (s.Making path h) own apart₃
    (cwd₃ ▸ mem_places staged_involved) (by rw [cwd₃, denied₃]; exact un.writable _ staged_involved)
  -- The staged copy is there at the end if it was there at first.
  have copied : h₃.files.isThere h₃.cwd (s.layout.stagedPath path) =
    h.files.isThere h.cwd (s.layout.stagedPath path) := by
    have early : h.Touches (fun q => q ∈ (s.bytecodePaths path ++ s.interfacePaths path).map
        (placeOf h.cwd)) (s.Making path h) h₃ := by
      rw [List.map_append]
      exact (half.touches.mono fun q inside => List.mem_append_left _ inside.2).trans
        (touches₃.mono fun q inside => List.mem_append_right _ inside.2)
    refine isThere_kept own.staged early un.apart apart₃ (mem_places staged_involved)
      (fun inside => ?_) staging staging₃
    obtain ⟨file, listed, same⟩ := List.mem_map.mp inside
    rcases List.mem_append.mp listed with listed | listed
    · exact (separate own h).bytecode file listed _ (by simp) same
    · exact (separate own h).interface file listed same
  have cleared : h₄.files.isThere h₄.cwd (s.layout.stagedPath path) = false := by
    cases there : h₃.files.isThere h₃.cwd (s.layout.stagedPath path) with
    | false => rw [same₄ there, there]
    | true =>
      have gone := gone₄ there
      rw [← touches₄.cwd, own.staged.placeOf] at gone
      rw [Bool.eq_false_iff, Ne, own.staged.isThere_iff]
      exact fun ⟨_, _, given⟩ => given gone
  rw [copied, cwd₃] at touches₄
  exact ⟨_, h₂, h₃, h₄, promote_of_steps first second third fourth, half,
    apart₃, touches₃, carried₃, staging₂, staging₃, apart₄, touches₄, cleared⟩

end Whole

/-! ## The end of a promotion -/

namespace Course

variable {artifact : Artifact} (course : s.Course path h artifact h₂ h₃ h₄)
  (own : Stem s.layout path ext stem)
include course

theorem cwd : h₄.cwd = h.cwd :=
  course.touches₄.cwd.trans (course.touches₃.cwd.trans course.half.touches.cwd)

/-- The last two steps touch no place of the bytecode. -/
theorem late :
    h₂.Touches (fun q => q ∈ (s.interfacePaths path ++ [s.layout.stagedPath path]).map
      (placeOf h.cwd))
    (s.Making path h) h₄ := by
  rw [List.map_append]
  exact (course.touches₃.mono fun q inside => List.mem_append_left _ inside.2).trans
    (course.touches₄.mono fun q inside => List.mem_append_right _ (by simp [inside.2]))

/-- What was changed in the end. -/
theorem rest : h.Touches (s.Changed path h) (s.Making path h) h₄ :=
  ((course.half.touches.mono fun _ => .inl).trans
    (course.touches₃.mono fun _ inside => .inr (.inl inside))).trans
    (course.touches₄.mono fun _ inside => .inr (.inr inside))

include own

theorem bytecode : s.Carried path bytecodeExt h artifact.bytecode h₄ := by
  have first : s.outputPath path bytecodeExt ∈ s.bytecodePaths path := by simp [bytecodePaths]
  have second : s.layout.buildPath path bytecodeExt ∈ s.bytecodePaths path := by
    simp [bytecodePaths]
  refine course.half.carried.later own (by decide) course.half.touches.cwd course.late
    course.half.apart course.apart₄
    (mem_places (bytecode_involved first)) (mem_places (bytecode_involved second))
    (untouched own first)
    (untouched own second) (fun q inside => ?_) course.staging₂
  obtain ⟨file, listed, rfl⟩ := List.mem_map.mp inside
  exact mem_places (List.mem_append_right _ listed)

theorem interface : s.Carried path interfaceExt h artifact.interface h₄ := by
  have first : s.outputPath path interfaceExt ∈ s.interfacePaths path := by simp [interfacePaths]
  have second : s.layout.buildPath path interfaceExt ∈ s.interfacePaths path := by
    simp [interfacePaths]
  refine course.carried₃.later own (by decide) (course.touches₃.cwd.trans course.half.touches.cwd)
    course.touches₄ course.apart₃
    course.apart₄ (mem_places (interface_involved first)) (mem_places (interface_involved second))
    ?_ ?_ ?_ course.staging₃
  · exact fun inside => (separate own h).interface _ first inside.2
  · exact fun inside => (separate own h).interface _ second inside.2
  · rintro q ⟨-, rfl⟩
    exact mem_places staged_involved

/-- The bytecode is found in base64. -/
theorem transport (un : s.Unhindered path h)
    (found : h.files.find h.cwd (s.outputPath path bytecodeExt) = .ok (p, n)) :
    artifact.transport = some (s.transportPath path) ∧ ∃ b x q t y, n = .file b x ∧
      h₄.files.find h₄.cwd (s.transportPath path) = .ok (q, .file (Utf8.encode t) y) ∧
      Text.Base64.decode? t = some b := by
  have third : s.transportPath path ∈ s.bytecodePaths path := by simp [bytecodePaths]
  have inside := transport_inside own
  obtain ⟨named, b, x, x', rfl, written⟩ := course.half.written p n found
  obtain ⟨-, building, -⟩ := (course.bytecode own).moved p _ found
  have there : h.files.isThere h.cwd (s.outputPath path bytecodeExt) = true := by
    unfold FileSystem.isThere
    rw [found]
    rfl
  have written₄ :=
    (course.late.same course.half.apart course.apart₄ (mem_places (bytecode_involved third))
    (untouched own third)).trans written
  exact ⟨named, b, x, placeOf h.cwd (s.transportPath path), Text.Base64.encode b, x', rfl,
    inside.find_iff.mpr ⟨inside.nameable (un.transport there), building,
      by rw [course.cwd, inside.placeOf], written₄⟩, Text.Base64.decode?_encode b⟩

/-- **All of it together.** -/
theorem settled (un : s.Unhindered path h) : s.Settled path h artifact h₄ where
  bytecode :=
    (course.bytecode own).arrived own (by decide) course.cwd (un.fits bytecodeExt (by simp))
  interface :=
    (course.interface own).arrived own (by decide) course.cwd (un.fits interfaceExt (by simp))
  transport p n found := course.transport own un found
  untransported absent := (course.half.absent absent).1
  source := course.cleared
  rest := course.rest

end Course

/-! ## The whole promotion -/

/-- Where nothing waits and no copy is staged, a promotion comes to nothing. -/
theorem settled_of_nothing (absent : ∀ e ∈ [bytecodeExt, interfaceExt],
    h.files.isThere h.cwd (s.outputPath path e) = false)
    (source : h.files.isThere h.cwd (s.layout.stagedPath path) = false) :
    s.Settled path h {} h := by
  have missing {e : Text} (listed : e ∈ [bytecodeExt, interfaceExt]) {p : Place} {n : Node} :
      h.files.find h.cwd (s.outputPath path e) ≠ .ok (p, n) := by
    rcases h.files.found_or_absent h.cwd (s.outputPath path e) with ⟨-, -, -, there⟩ | ⟨missing, -⟩
    · cases there.symm.trans (absent e listed)
    · exact missing p n
  have arrived {e : Text} (listed : e ∈ [bytecodeExt, interfaceExt]) :
      Arrived (s.outputPath path e) (s.layout.buildPath path e) h none h :=
    ⟨fun p n found => absurd found (missing listed), fun _ => rfl, absent e listed⟩
  exact
    { bytecode := arrived (by simp)
      interface := arrived (by simp)
      transport := fun p n found => absurd found (missing (by simp))
      untransported := fun _ => rfl
      source := source
      rest := .refl .. }

/-- **The whole effect of a promotion**, and there is nothing left to promote. -/
theorem promote_settles (marker : s.layout.marker ≠ []) (marked : '/' ∉ s.layout.marker)
    (source : ext ∈ [".sol".toList, ".tsol".toList]) (ends : ext <:+ path)
    (un : s.Unhindered path h) :
    ∃ artifact h', (s.promote path).perform h = (.ok artifact, h') ∧ s.Settled path h artifact h' ∧
      (s.promote path).perform h' = (.ok {}, h') := by
  obtain ⟨stem, own⟩ := Layout.stem_of_source marker marked source ends
  have done : ∃ artifact h', (s.promote path).perform h = (.ok artifact, h') ∧
      s.Settled path h artifact h' := by
    by_cases staging : h.files.Standing h.cwd (s.layout.stagingOf path)
    · obtain ⟨artifact, h₂, h₃, h₄, performed, course⟩ := promote_course un own staging
      exact ⟨artifact, h₄, performed, course.settled own un⟩
    · -- Nothing is found in a directory that cannot be reached.
      have absent {file name : Text}
          (inside : Path.InDirectory file (s.layout.stagingOf path) name) :
          h.files.isThere h.cwd file = false := by
        rw [Bool.eq_false_iff, Ne, inside.isThere_iff]
        exact fun ⟨_, stands, _⟩ => staging stands
      have outputs : ∀ e ∈ [bytecodeExt, interfaceExt],
          h.files.isThere h.cwd (s.outputPath path e) = false := by
        intro e listed
        simp only [List.mem_cons, List.not_mem_nil, or_false] at listed
        rcases listed with rfl | rfl <;> exact absent (output_inside own (by decide))
      exact ⟨{}, h, promote_nothing outputs (absent own.staged),
        settled_of_nothing outputs (absent own.staged)⟩
  obtain ⟨artifact, h', performed, settled⟩ := done
  refine ⟨artifact, h', performed, settled, promote_nothing (fun e listed => ?_) settled.source⟩
  simp only [List.mem_cons, List.not_mem_nil, or_false] at listed
  rcases listed with rfl | rfl
  · exact settled.bytecode.gone
  · exact settled.interface.gone

/-! ## A promotion, and what is not promoted -/

/-- A project with some files in its directory of staged copies, and some more. -/
def projectOf (staged : List (Text × Bytes)) (more : List (Place × Node)) (log : Log.Sink) :
    Host where
  files :=
    { entries := [(["p".toList], .directory), (["p".toList, ".temp".toList], .directory)] ++
        staged.map (fun f => (["p".toList, ".temp".toList, f.1], .file f.2 .plain)) ++ more }
  log

/-- A project with all outputs of a source, an older interface description, and a log beside
them. -/
def wholeProject : Host :=
  projectOf [("~A.sol".toList, []), ("~A.tvc".toList, [104, 105]),
    ("~A.abi.json".toList, [123, 125])]
    [(["p".toList, "build".toList], .directory),
      (["p".toList, "build".toList, "A.abi.json".toList], .file [] .program)]
    (.opened { least := .debug, console := false, file := some "/p/build/check.log".toList })

theorem wholeProject_unhindered : Unhindered {} "/p/contracts/A.sol".toList wholeProject where
  tree := FileSystem.isTree_of_entries (by decide +kernel)
  start _ := rfl
  ready := nofun
  aside p listed q below area := by
    have other : ∀ p ∈ involved {} "/p/contracts/A.sol".toList,
        ¬ placeOf wholeProject.cwd p <+: placeOf wholeProject.cwd "/p/build/check.log".toList := by
        decide +kernel
    rcases area with ⟨path, mem, rfl⟩ | ⟨settings, path, planned, -⟩
    · obtain rfl := List.mem_singleton.mp mem
      exact other p listed below
    · cases planned
  free := by decide +kernel
  made _ := by decide +kernel
  writable := by decide +kernel
  readable p b x found := by
    have file : wholeProject.files.find wholeProject.cwd
        (outputPath {} "/p/contracts/A.sol".toList bytecodeExt) =
        .ok (["p".toList, ".temp".toList, "~A.tvc".toList], .file [104, 105] .plain) := by
        decide +kernel
    obtain ⟨-, same⟩ := Prod.mk.inj (Except.ok.inj (file.symm.trans found))
    rw [← (Node.file.inj same).2]
  older _ n given := by
    have none : wholeProject.files.get? (placeOf wholeProject.cwd
      (transportPath {} "/p/contracts/A.sol".toList)) = none := by decide +kernel
    cases none.symm.trans given
  fits := by decide +kernel
  transport := by decide +kernel

/-- All outputs of a source are promoted. -/
theorem wholeProject_settled :
    (∀ file ∈ [outputPath {} "/p/contracts/A.sol".toList bytecodeExt,
      outputPath {} "/p/contracts/A.sol".toList interfaceExt,
      Layout.stagedPath {} "/p/contracts/A.sol".toList],
      wholeProject.files.isThere wholeProject.cwd file = true) ∧
    ∃ artifact h', (promote {} "/p/contracts/A.sol".toList).perform wholeProject =
      (.ok artifact, h') ∧
      Settled {} "/p/contracts/A.sol".toList wholeProject artifact h' ∧
      (promote {} "/p/contracts/A.sol".toList).perform h' = (.ok {}, h') :=
  ⟨by decide +kernel,
    promote_settles (by decide) (by decide) (show ".sol".toList ∈ _ by decide) (by decide)
      wholeProject_unhindered⟩

/-- Whether none of the paths of a promotion leads to a directory, and all directories can be made
and written. -/
def Uncluttered (path : Text) (h : Host) : Prop :=
  (∀ file ∈ involved {} path, h.files.isDirectory h.cwd file = false) ∧
  h.files.denied = [] ∧
  (h.files.makeDirectories h.cwd (buildDirectory {} path)).2 = none

instance (path : Text) (h : Host) : Decidable (Uncluttered path h) :=
  inferInstanceAs (Decidable (_ ∧ _ ∧ _))

/-- The artifact of a promotion, if it gives one. -/
def artifactOf? (path : Text) (h : Host) : Option Artifact :=
  ((promote {} path).perform h).1.toOption

/-- A source whose bytecode in base64 has too long a name, while all its other outputs have not. -/
def longPath : Text := "/p/contracts/".toList ++ List.replicate 249 'n' ++ ".sol".toList

/-- A project with the bytecode of that source. -/
def longProject : Host :=
  projectOf [('~' :: List.replicate 249 'n' ++ bytecodeExt, [104, 105])] [] .nowhere

/-- A project with the bytecode of a source, and an older base64 form that cannot be written. -/
def guardedProject : Host :=
  projectOf [("~A.tvc".toList, [104, 105])]
    [(["p".toList, "build".toList], .directory),
      (["p".toList, "build".toList, "A.base64".toList], .file [] { writable := false })] .nowhere

/-- A project with bytecode of a source that cannot be read. -/
def sealedProject : Host :=
  projectOf [] [(["p".toList, ".temp".toList, "~A.tvc".toList],
    .file [104, 105] { readable := false })] .nowhere

/-- A project with the bytecode of a source and its staged copy, whose log is its base64 form. -/
def loggedProject : Host :=
  projectOf [("~A.sol".toList, []), ("~A.tvc".toList, [104, 105])] []
    (.planned { level := .debug, filePath := some "/p/build/A.base64".toList })

/-- A source in a directory whose path leads over the name of an interface description. -/
def climbingPath : Text := "/p/contracts/~A.abi.json/../../build/A.sol".toList

/-- A project with the bytecode of that source and no interface description. -/
def climbingProject : Host :=
  projectOf [] [(["p".toList, ".temp".toList, "~A.abi.json".toList], .directory),
    (["p".toList, "build".toList], .directory),
    (["p".toList, "build".toList, "~A.tvc".toList], .file [104, 105] .plain)] .nowhere

/-- That no path leads to a directory is not enough.  The base64 form is missing if its name is too
long, or if it cannot be written or the bytecode cannot be read, and wrong if the log is written to
it; and a directory that was just made is promoted for an interface description. -/
theorem promote_unsettled :
    (Uncluttered longPath longProject ∧
      (artifactOf? longPath longProject).map (fun a => (a.bytecode.isSome, a.transport)) =
        some (true, none)) ∧
    (∀ h ∈ [guardedProject, sealedProject], Uncluttered "/p/contracts/A.sol".toList h ∧
      (artifactOf? "/p/contracts/A.sol".toList h).map (fun a => (a.bytecode.isSome, a.transport)) =
        some (true, none)) ∧
    (Uncluttered "/p/contracts/A.sol".toList loggedProject ∧
      (((promote {} "/p/contracts/A.sol".toList).perform loggedProject).2.files.read []
        "/p/build/A.base64".toList).toOption.bind
          (fun bytes => Text.Base64.decode? (Utf8.readLenient bytes)) ≠ some [104, 105]) ∧
    (Uncluttered climbingPath climbingProject ∧
      climbingProject.files.isThere [] (outputPath {} climbingPath interfaceExt) = false ∧
      (artifactOf? climbingPath climbingProject).map (·.interface.isSome) = some true) := by
  refine ⟨by decide +kernel, fun h listed => ?_, by decide +kernel, by decide +kernel⟩
  simp only [List.mem_cons, List.not_mem_nil, or_false] at listed
  rcases listed with rfl | rfl <;> decide +kernel

end Staging
end ContractCheck
