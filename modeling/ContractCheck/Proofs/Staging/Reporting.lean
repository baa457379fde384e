import ContractCheck.Proofs.Staging.Moving

/-! # What an artifact says

A promotion gives an artifact whatever the files are like and whichever steps fail.  The artifact is
to say no more than what came to be: an output that it names is a file with the bytes that waited,
its base64 form is one of the bytecode, and an output that it does not name still waits.  It says
more exactly if a directory waited in place of an output, or stood where an output was to go
(`Staging.promote_truthful_iff`): then what it names is a directory.
-/
namespace ContractCheck

open ContractCheck.Action
open FileSystem (placeOf OnWay)
open Layout (Stem extensions bytecodeExt interfaceExt transportExt)
open ContractCheck.Path (Usable)

variable {h h' h'' : Host}

namespace Staging

section Paths

variable (s : Staging) (path : Text)

/-- What an artifact says of an output is so: if it is named, a file with the bytes that waited is
there, and if not, they still wait. -/
structure Told (source target : Text) (h : Host) (taken : Option Text) (h' : Host) : Prop where
  named : ∀ t, taken = some t → t = target ∧ ∃ p q b x y,
    h.files.find h.cwd source = .ok (p, .file b x) ∧
    h'.files.find h'.cwd target = .ok (q, .file b y)
  kept : taken = none → ∀ p b x, h.files.find h.cwd source = .ok (p, .file b x) →
    h'.files.find h'.cwd source = .ok (p, .file b x)

/-- Whether a path that is written by its tidy form leads to the base64 form of some bytes, which is
read back to them. -/
def Encoded (t : Text) (b : Bytes) (h : Host) : Prop := ∃ q text y,
  h.files.find h.cwd (Path.Posix.tidy t) = .ok (q, .file (Utf8.encode text) y) ∧
  text = Text.Base64.encode b ∧
    Text.Base64.decode? text = some b

/-- What an artifact says is so, of both outputs and of the base64 form. -/
structure Truthful (h : Host) (artifact : Artifact) (h' : Host) : Prop where
  bytecode : Told (s.outputPath path bytecodeExt) (s.layout.buildPath path bytecodeExt) h
    artifact.bytecode h'
  interface : Told (s.outputPath path interfaceExt) (s.layout.buildPath path interfaceExt) h
    artifact.interface h'
  transport : ∀ t, artifact.transport = some t → t = s.transportPath path ∧
    ∃ target p b x, artifact.bytecode = some target ∧
    h'.files.find h'.cwd target = .ok (p, .file b x) ∧ Encoded t b h'

end Paths

variable {s : Staging} {path ext stem e : Text} {names : List Text}

/-! ## What is said of an output -/

section Own

variable (own : Stem s.layout path ext stem)
include own

/-- **What the turn of an output reports is so to the end exactly if the output was plain**, or if
it is not reported. -/
theorem Taking.told_iff {taken : Option Text}
    (turn : Taking s path e (s.layout.marker ++ stem ++ e) (stem ++ e) h taken h')
    (kind : e ∈ [bytecodeExt, interfaceExt]) (fair : s.Fair path h)
    (on : s.Onward path names h' h'') (fresh : s.layout.marker ++ stem ++ e ∉ names)
    (fresh' : stem ++ e ∉ names) :
    Told (s.outputPath path e) (s.layout.buildPath path e) h taken h'' ↔
    (taken.isSome → s.Plain path e h) := by
  have listed := kind_listed kind
  have fair' := turn.on.fair fair
  cases turn with
  | kept on₁ waits stays =>
    refine iff_of_true ⟨nofun, fun _ p b x found => ?_⟩ nofun
    exact on.find_file fair' (output_inside own listed) (kind_involved kind).1 fresh (.inl rfl)
      (stays p b x found)
  | moved on₁ plain found arrived =>
    refine iff_of_true ⟨fun t same => ⟨(Option.some.inj same).symm, ?_⟩, nofun⟩ fun _ => plain
    exact ⟨_, _, _, _, _, found,
      on.find_file fair' (own.target e listed) (kind_involved kind).2 fresh' (.inl rfl) arrived⟩
  | strayed on₁ blocked found stands =>
    refine iff_of_false (fun told => ?_) fun plain => blocked (plain rfl)
    obtain ⟨-, -, q, b, -, y, -, file⟩ := told.named _ rfl
    obtain ⟨rfl, file⟩ := FileSystem.find_place file
    have outside := fair'.not_below (own.target e listed) (kind_involved kind).2 fresh'
    have stands' := on.directory _ outside stands
    rw [← on.cwd, file] at stands'
    cases stands'

end Own

namespace Uprooted

variable {taken : Option Text} (uprooted : s.Uprooted path e h taken)
include uprooted

/-- What is said of a directory is not so. -/
theorem untold : ¬ Told (s.outputPath path e) (s.layout.buildPath path e) h taken h' := by
  obtain ⟨⟨p, found⟩, rfl⟩ := uprooted
  intro told
  obtain ⟨-, p', -, b, x, -, file, -⟩ := told.named _ rfl
  cases found.symm.trans file

theorem blocked : ¬ (taken.isSome → s.Plain path e h) := by
  obtain ⟨⟨p, found⟩, rfl⟩ := uprooted
  intro plain
  obtain ⟨p', b, x, file⟩ := FileSystem.isFile_iff.mp (plain rfl).waiting
  cases found.symm.trans file

end Uprooted

/-! ## After other steps -/

section Later

variable (own : Stem s.layout path ext stem) (on : s.Onward path names h h')
  (waits : h' = h ∨ ∃ e' ∈ extensions, h.files.isThere h.cwd (s.outputPath path e') = true)
  (kind : e ∈ [bytecodeExt, interfaceExt]) (fair : s.Fair path h)
  (fresh : s.layout.marker ++ stem ++ e ∉ names)
include own on waits kind fair fresh

/-- A file waits after steps that did not touch it exactly if it waited before. -/
theorem waiting_iff {p : Place} {b : Bytes} {x : Mode} :
    h'.files.find h'.cwd (s.outputPath path e) = .ok (p, .file b x) ↔
    h.files.find h.cwd (s.outputPath path e) = .ok (p, .file b x) := by
  have inside := output_inside own (kind_listed kind)
  have mem : s.outputPath path e ∈ s.involved path := (kind_involved kind).1
  refine ⟨fun found => ?_, on.find_file fair inside mem fresh (.inl rfl)⟩
  rcases waits with rfl | ⟨e', listed', there⟩
  · exact found
  · -- The directory that it is in was there when the other output was.
    obtain ⟨-, staging, -⟩ := (output_inside own listed').isThere_iff.mp there
    obtain ⟨nameable, -, rfl, file⟩ := inside.find_iff.mp found
    refine inside.find_iff.mpr ⟨nameable, staging, by rw [on.cwd], ?_⟩
    rw [← inside.placeOf, on.cwd] at file ⊢
    rw [← on.same fair inside mem fresh (kind_places kind _).1, file]

theorem told_before {taken : Option Text} :
    Told (s.outputPath path e) (s.layout.buildPath path e) h' taken h'' ↔
    Told (s.outputPath path e) (s.layout.buildPath path e) h taken h'' := by
  have waiting {p : Place} {b : Bytes} {x : Mode} := waiting_iff own on waits kind fair fresh
    (p := p) (b := b) (x := x)
  constructor
  · rintro ⟨named, kept⟩
    simp only [waiting] at named kept
    exact ⟨named, kept⟩
  · rintro ⟨named, kept⟩
    simp only [← waiting] at named kept
    exact ⟨named, kept⟩

theorem plain_before (fresh' : stem ++ e ∉ names) : s.Plain path e h' ↔ s.Plain path e h := by
  have file : h'.files.isFile h'.cwd (s.outputPath path e) = true ↔
    h.files.isFile h.cwd (s.outputPath path e) = true := by
    simp only [FileSystem.isFile_iff, waiting_iff own on waits kind fair fresh]
  have target := on.same fair (own.target e (kind_listed kind)) (kind_involved kind).2 fresh'
    (kind_places kind _).2
  constructor
  · rintro ⟨waiting, free⟩
    rw [on.cwd, target] at free
    exact ⟨file.mp waiting, free⟩
  · rintro ⟨waiting, free⟩
    refine ⟨file.mpr waiting, ?_⟩
    rwa [on.cwd, target]

end Later

/-! ## The other steps -/

section Own

variable (own : Stem s.layout path ext stem)
include own

theorem transport_last (cwd : Place) :
    (placeOf cwd (Path.Posix.tidy (s.transportPath path))).getLast? =
    some (stem ++ transportExt) := by
  rw [FileSystem.placeOf_tidy, transport_place own, List.getLast?_concat]

/-- **The base64 form** is written of the file that is where the bytecode went, or not reported. -/
theorem transported_cases {taken : Option Text} (ready : h.LogReady)
    (usable : Usable (s.layout.buildPath path bytecodeExt))
    (named : ∀ t, taken = some t → t = s.layout.buildPath path bytecodeExt) :
    ∃ transport h', (transported taken).perform h = (.ok transport, h') ∧
    h'.LogReady ∧ (taken = none → transport = none ∧ h' = h) ∧
      (s.Fair path h → s.Onward path [stem ++ transportExt] h h') ∧
      ∀ t, transport = some t → t = s.transportPath path ∧ ∀ p b x,
        h.files.find h.cwd (s.layout.buildPath path bytecodeExt) = .ok (p, .file b x) →
        Encoded t b h' := by
  have nothing (fair : s.Fair path h) : s.Onward path [stem ++ transportExt] h h :=
    (Onward.refl fair.planted).mono (List.nil_subset _)
  cases taken with
  | none => exact ⟨none, h, rfl, ready, fun _ => ⟨rfl, rfl⟩, nothing, nofun⟩
  | some target =>
    obtain rfl := named _ rfl
    have source := own.target bytecodeExt (by decide)
    have usable' : Usable (s.transportPath path) :=
      Layout.usable_replaceExtension usable (by decide)
    have warned {e : Fault} (failed : (do
        let content ← readFile (Path.Posix.tidy (s.layout.buildPath path bytecodeExt))
        writeText (Path.Posix.tidy (s.transportPath path)) (Text.Base64.encode content)
        pure (some (s.transportPath path)) : Action (Option Text)).perform h = (.error e, h))
        (system : e.fromSystem = true) :=
      Log.orSystem_warned failed system ready owner
        (fun e => "Failed to write base64 artifact for ".toList ++
        s.layout.buildPath path bytecodeExt ++ ": ".toList ++ e.message) none
    cases read : h.files.read h.cwd (Path.Posix.tidy (s.layout.buildPath path bytecodeExt)) with
    | error e =>
      obtain ⟨h', performed, noted⟩ := warned (perform_bind_error (readFile_fails read))
        (FileSystem.read_fromSystem usable.tidy read)
      exact ⟨none, h', performed, noted.touches.shows.ready ready, nofun, fun fair =>
        (Onward.of_noted fair.planted noted).mono (List.nil_subset _), nofun⟩
    | ok content =>
      have changed :=
        perform_change (fun fs cwd p => fs.write cwd p (Utf8.encode (Text.Base64.encode content)))
        (Path.Posix.tidy (s.transportPath path)) h
      cases written : h.files.write h.cwd (Path.Posix.tidy (s.transportPath path))
        (Utf8.encode (Text.Base64.encode content)) with
      | error e =>
        simp only [written] at changed
        obtain ⟨h', performed, noted⟩ :=
          warned ((perform_bind_ok (readFile_ok read)).trans (perform_bind_error changed))
          (FileSystem.update_fromSystem usable'.tidy written)
        exact ⟨none, h', performed, noted.touches.shows.ready ready, nofun, fun fair =>
          (Onward.of_noted fair.planted noted).mono (List.nil_subset _), nofun⟩
      | ok fs =>
        simp only [written] at changed
        refine ⟨some (s.transportPath path), { h with files := fs }, ?_,
          Host.ready_of_same rfl rfl ready, nofun, fun fair => ?_,
          fun t same => ⟨(Option.some.inj same).symm, fun p b x found => ?_⟩⟩
        · exact perform_orSystem_ok ((perform_bind_ok (readFile_ok read)).trans
            ((perform_bind_ok changed).trans rfl))
        · exact .of_rewrites fair.planted
            (FileSystem.update_rewrites fair.planted.tree fair.planted.stands written)
            (by simp [Named, transport_last own])
        · obtain rfl := Option.some.inj same
          -- The tidy path leads to the bytecode as well.
          obtain ⟨led, there⟩ := FileSystem.find_iff.mp found
          obtain ⟨p', x', led', there', -⟩ := FileSystem.read_iff.mp read
          obtain rfl := Except.ok.inj ((source.resolve_tidy led).symm.trans led')
          obtain ⟨rfl, -⟩ := Node.file.inj (Option.some.inj (there.symm.trans there'))
          obtain ⟨q, y, led₁, file, -⟩ := FileSystem.write_get? written
          exact ⟨q, _, y, FileSystem.find_iff.mpr
            ⟨(FileSystem.update_grows written).resolve led₁, file⟩, rfl,
            Text.Base64.decode?_encode _⟩

/-- Removing the staged copy, which may fail. -/
theorem clearStaged_onward (ready : h.LogReady) :
    ∃ h', (s.clearStaged path).perform h = (.ok ⟨⟩, h') ∧
    (s.Fair path h → s.Onward path [s.layout.marker ++ stem ++ ext] h h') := by
  have nothing (fair : s.Fair path h) : s.Onward path [s.layout.marker ++ stem ++ ext] h h :=
    (Onward.refl fair.planted).mono (List.nil_subset _)
  rcases h.files.found_or_absent h.cwd (s.layout.stagedPath path) with
    ⟨p, n, found, there⟩ | ⟨-, absent⟩
  · have seen := perform_look (s.layout.stagedPath path) h
    rw [there] at seen
    have usable : Usable (s.layout.stagedPath path) :=
      (FileSystem.resolve_iff.mp (FileSystem.find_iff.mp found).1).1.1
    have changed := perform_change FileSystem.remove (s.layout.stagedPath path) h
    cases removed : h.files.remove h.cwd (s.layout.stagedPath path) with
    | error e =>
      simp only [removed] at changed
      obtain ⟨h', told, noted⟩ := Log.write_noted .warning owner.toList
        ("Failed to remove staged source ".toList ++ s.layout.stagedPath path ++ ": ".toList ++
          (Fault.file e (s.layout.stagedPath path)).message) [] ready
      refine ⟨h', (perform_bind_ok seen).trans
        ((perform_orSystem_handled (perform_bind_error changed) ?_).trans told), fun fair => ?_⟩
      · exact FileSystem.remove_fromSystem usable removed
      · exact (Onward.of_noted fair.planted noted).mono (List.nil_subset _)
    | ok fs =>
      simp only [removed] at changed
      obtain ⟨h', told, noted⟩ := Log.write_noted .debug owner.toList
        ("Removed staged source ".toList ++ s.layout.stagedPath path) []
        (h := { h with files := fs })
        (Host.ready_of_same rfl rfl ready)
      refine ⟨h', (perform_bind_ok seen).trans
        (perform_orSystem_ok ((perform_bind_ok changed).trans told)), fun fair => ?_⟩
      have on : s.Onward path [s.layout.marker ++ stem ++ ext] h { h with files := fs } :=
        .of_rewrites fair.planted (FileSystem.remove_rewrites fair.planted.tree removed)
          (by simp [Named, staged_place own])
      exact (on.trans (.of_noted on.planted noted)).mono (by simp)
  · exact ⟨h, clearStaged_absent absent, nothing⟩

end Own

/-! ## The whole of it -/

/-- A base64 form that nothing touches stays. -/
theorem Encoded.later {b : Bytes} (own : Stem s.layout path ext stem)
    (encoded : Encoded (s.transportPath path) b h) (on : s.Onward path names h h')
    (fair : s.Fair path h) (fresh : stem ++ transportExt ∉ names) :
    Encoded (s.transportPath path) b h' := by
  obtain ⟨q, text, y, found, whole⟩ := encoded
  refine ⟨q, text, y, on.find_file fair (transport_inside own) ?_ fresh (.inr rfl) found, whole⟩
  exact bytecode_involved (by simp [bytecodePaths])

/-- None of the names that the outputs have, beside the staged copy and in the build directory, is
changed by the steps for the others. -/
structure Fresh (marker ext stem : Text) : Prop where
  bytecode : marker ++ stem ++ bytecodeExt ∉
    [stem ++ transportExt] ++ ([marker ++ stem ++ interfaceExt, stem ++ interfaceExt] ++
      [marker ++ stem ++ ext])
  builtBytecode : stem ++ bytecodeExt ∉
    [stem ++ transportExt] ++ ([marker ++ stem ++ interfaceExt, stem ++ interfaceExt] ++
      [marker ++ stem ++ ext])
  transport : stem ++ transportExt ∉ [marker ++ stem ++ interfaceExt, stem ++ interfaceExt] ++
    [marker ++ stem ++ ext]
  interface : marker ++ stem ++ interfaceExt ∉ [marker ++ stem ++ bytecodeExt,
    stem ++ bytecodeExt] ++ [stem ++ transportExt]
  builtInterface : stem ++ interfaceExt ∉ [marker ++ stem ++ bytecodeExt, stem ++ bytecodeExt] ++
    [stem ++ transportExt]
  last : marker ++ stem ++ interfaceExt ∉ [marker ++ stem ++ ext]
  builtLast : stem ++ interfaceExt ∉ [marker ++ stem ++ ext]

theorem fresh_of_stem (own : Stem s.layout path ext stem) : Fresh s.layout.marker ext stem := by
  have listed : ext ∈ extensions ∧ bytecodeExt ∈ extensions ∧ interfaceExt ∈ extensions ∧
      transportExt ∈ extensions :=
    ⟨Layout.mem_extensions own.source, by decide⟩
  have unlike : bytecodeExt ≠ interfaceExt ∧ bytecodeExt ≠ transportExt ∧
    transportExt ≠ interfaceExt := by decide
  have unlike' : bytecodeExt ≠ ext ∧ interfaceExt ≠ ext := by
    have source := own.source
    simp only [List.mem_cons, List.not_mem_nil, or_false] at source
    rcases source with rfl | rfl <;> decide
  have beside {e e' : Text} (listed : e ∈ extensions) (listed' : e' ∈ extensions) :
      s.layout.marker ++ stem ++ e ≠ stem ++ e' :=
    Layout.marked_ne own.marker listed listed'
  have beside' {e e' : Text} (listed : e ∈ extensions) (listed' : e' ∈ extensions) :
      stem ++ e' ≠ s.layout.marker ++ stem ++ e :=
    (beside listed listed').symm
  constructor <;> simp [-List.append_assoc, beside, beside', listed, unlike, unlike', unlike.1.symm,
    unlike.2.2.symm]

/-- **What an artifact says is so exactly if each output that it names was a file, and no directory
stood where it went.** -/
theorem promote_truthful_iff (marker : s.layout.marker ≠ []) (marked : '/' ∉ s.layout.marker)
    (source : ext ∈ [".sol".toList, ".tsol".toList]) (ends : ext <:+ path) (ready : h.LogReady)
    (usable : ∀ e ∈ [bytecodeExt, interfaceExt], Usable (s.layout.buildPath path e)) :
    ∃ artifact h', (s.promote path).perform h = (.ok artifact, h') ∧ (s.Fair path h →
      (s.Truthful path h artifact h' ↔ (artifact.bytecode.isSome → s.Plain path bytecodeExt h) ∧
        (artifact.interface.isSome → s.Plain path interfaceExt h))) := by
  obtain ⟨stem, own⟩ := Layout.stem_of_source marker marked source ends
  have fresh := fresh_of_stem own
  have first : bytecodeExt ∈ [bytecodeExt, interfaceExt] := by simp
  have second : interfaceExt ∈ [bytecodeExt, interfaceExt] := by simp
  obtain ⟨bytecode, h₁, performed₁, ready₁, named, turn⟩ :=
    promoteOutput_turn own first ready (usable _ first)
  obtain ⟨transport, h₂, performed₂, ready₂, nothing, copied, encoded⟩ :=
    transported_cases own ready₁ (usable _ first) named
  obtain ⟨interface, h₃, performed₃, ready₃, -, turn'⟩ :=
    promoteOutput_turn own second ready₂ (usable _ second)
  obtain ⟨h₄, performed₄, cleared⟩ := clearStaged_onward own ready₃
  refine ⟨_, h₄, promote_of_steps performed₁ performed₂ performed₃ performed₄, fun fair => ?_⟩
  rcases turn fair with uprooted | turn
  · exact iff_of_false (fun truthful => uprooted.untold truthful.bytecode) fun both =>
      uprooted.blocked both.1
  have fair₁ := turn.on.fair fair
  have copy := copied fair₁
  have half := turn.on.trans copy
  have fair₂ := half.fair fair
  have waits : h₂ = h ∨ ∃ e ∈ extensions, h.files.isThere h.cwd (s.outputPath path e) = true := by
    rcases turn.waits with ⟨none, rfl⟩ | there
    · exact .inl (nothing none).2
    · exact .inr ⟨bytecodeExt, kind_listed first, there⟩
  have before : Told (s.outputPath path interfaceExt) (s.layout.buildPath path interfaceExt) h₂
      interface h₄ ↔
      Told (s.outputPath path interfaceExt) (s.layout.buildPath path interfaceExt) h interface h₄ :=
    told_before own half waits second fair fresh.interface
  have plain := plain_before own half waits second fair fresh.interface fresh.builtInterface
  rcases turn' fair₂ with uprooted | turn'
  · exact iff_of_false (fun truthful => uprooted.untold (before.mpr truthful.interface)) fun both =>
      uprooted.blocked fun given => plain.mpr (both.2 given)
  have clear := cleared (turn'.on.fair fair₂)
  have late := turn'.on.trans clear
  have told := turn.told_iff own first fair (copy.trans late) fresh.bytecode fresh.builtBytecode
  have told' := turn'.told_iff own second fair₂ clear fresh.last fresh.builtLast
  rw [before, plain] at told'
  refine ⟨fun truthful => ⟨told.mp truthful.bytecode, told'.mp truthful.interface⟩, fun both =>
    ⟨told.mpr both.1, told'.mpr both.2, fun t written => ?_⟩⟩
  -- A base64 form that is reported is one of bytecode that is reported, and that was plain.
  have reported : bytecode = some (s.layout.buildPath path bytecodeExt) := by
    cases bytecode with
    | none => cases (nothing rfl).1.symm.trans written
    | some t' => rw [named t' rfl]
  obtain ⟨q, b, x, arrived⟩ := turn.arrives reported (both.1 (reported ▸ rfl))
  obtain ⟨rfl, encoded⟩ := encoded t written
  refine ⟨rfl, _, q, b, x, reported, ?_,
    (encoded q b x arrived).later own late fair₂ fresh.transport⟩
  exact (copy.trans late).find_file fair₁ (own.target bytecodeExt (kind_listed first))
    (kind_involved first).2
    fresh.builtBytecode (.inl rfl) arrived

/-! ## Promotions in the way of which something stands -/

/-- A project with both outputs of a source, where a directory stands in place of the staged copy
and of the base64 form. -/
def clutteredProject : Host :=
  projectOf [("~A.tvc".toList, [104, 105]), ("~A.abi.json".toList, [123, 125])]
    [(["p".toList, ".temp".toList, "~A.sol".toList], .directory),
      (["p".toList, "build".toList], .directory),
      (["p".toList, "build".toList, "A.base64".toList], .directory)]
    (.opened { least := .debug, console := false, file := some "/p/build/check.log".toList })

theorem clutteredProject_fair : Fair {} "/p/contracts/A.sol".toList clutteredProject where
  planted := ⟨FileSystem.isTree_of_entries (by decide +kernel), by decide +kernel⟩
  ready := nofun
  aside p listed area := by
    have other : ∀ p ∈ involved {} "/p/contracts/A.sol".toList,
        placeOf clutteredProject.cwd p ≠
          placeOf clutteredProject.cwd "/p/build/check.log".toList := by decide +kernel
    rcases area with ⟨path, mem, same⟩ | ⟨settings, path, planned, -⟩
    · obtain rfl := List.mem_singleton.mp mem
      exact other p listed same
    · cases planned
  outside := by
    have ways : ∀ file ∈ involved {} "/p/contracts/A.sol".toList,
        ∀ front ∈ (Text.splitOn ['/'] (Path.Posix.parent file)).inits,
          ∀ p ∈ outputPlaces {} "/p/contracts/A.sol".toList clutteredProject.cwd,
            ¬ p <+: FileSystem.lead (FileSystem.startOf clutteredProject.cwd
              (Path.Posix.parent file)) front := by
      decide +kernel
    rintro z (rfl | ⟨file, listed, front, ahead, rfl⟩) p mem
    · revert p
      decide +kernel
    · exact ways file listed front ((List.mem_inits _ _).mpr ahead) p mem

/-- What the artifact says is so, though the base64 form cannot be written and the staged copy
cannot be removed. -/
theorem clutteredProject_truthful : clutteredProject.LogReady ∧
    Fair {} "/p/contracts/A.sol".toList clutteredProject ∧
    (∀ e ∈ [bytecodeExt, interfaceExt],
      Usable (Layout.buildPath {} "/p/contracts/A.sol".toList e)) ∧
      ∃ artifact h', (promote {} "/p/contracts/A.sol".toList).perform clutteredProject =
        (.ok artifact, h') ∧
        Truthful {} "/p/contracts/A.sol".toList clutteredProject artifact h' :=
  ⟨clutteredProject_fair.ready, clutteredProject_fair, by decide +kernel,
    (promote_truthful_iff (by decide) (by decide) (show ".sol".toList ∈ _ by decide) (by decide)
      clutteredProject_fair.ready (by decide +kernel)).imp fun _ => Exists.imp fun _ =>
      And.imp_right fun iff =>
        (iff clutteredProject_fair).mpr ⟨fun _ => by decide +kernel, fun _ => by decide +kernel⟩⟩

/-- A project with the bytecode of a source, and a directory where it is to go. -/
def occupiedProject : Host :=
  projectOf [("~A.tvc".toList, [104, 105])]
    [(["p".toList, "build".toList], .directory),
      (["p".toList, "build".toList, "A.tvc".toList], .directory)] .nowhere

/-- A project with a directory in place of the bytecode of a source. -/
def hollowProject : Host :=
  projectOf [] [(["p".toList, ".temp".toList, "~A.tvc".toList], .directory)] .nowhere

/-- An artifact that names something else than a file says what is not so. -/
theorem untruthful_of_missing {t : Text} (named : (artifactOf? path h).bind (·.bytecode) = some t)
    (missing : ((promote {} path).perform h).2.files.isFile ((promote {} path).perform h).2.cwd
      t = false) :
    ∃ artifact h', (promote {} path).perform h = (.ok artifact, h') ∧
      ¬ Truthful {} path h artifact h' := by
  unfold artifactOf? at named
  cases performed : (promote {} path).perform h with
  | mk outcome h' =>
    rw [performed] at named missing
    cases outcome with
    | error e => cases named
    | ok artifact =>
      refine ⟨artifact, h', rfl, fun truthful => ?_⟩
      obtain ⟨same, -, q, b, -, y, -, file⟩ := truthful.bytecode.named _ named
      rw [← same] at file
      exact Bool.false_ne_true (missing.symm.trans (FileSystem.isFile_iff.mpr ⟨q, b, y, file⟩))

/-- A directory where bytecode is to go, or in its place, is reported as bytecode. -/
theorem directory_untruthful :
    (∃ artifact h', (promote {} "/p/contracts/A.sol".toList).perform occupiedProject =
      (.ok artifact, h') ∧
      ¬ Truthful {} "/p/contracts/A.sol".toList occupiedProject artifact h') ∧
    (∃ artifact h', (promote {} "/p/contracts/A.sol".toList).perform hollowProject =
      (.ok artifact, h') ∧
      ¬ Truthful {} "/p/contracts/A.sol".toList hollowProject artifact h') :=
  ⟨untruthful_of_missing (show _ = some "/p/build/A.tvc".toList by decide +kernel)
    (by decide +kernel),
    untruthful_of_missing (show _ = some "/p/build/A.tvc".toList by decide +kernel)
      (by decide +kernel)⟩

end Staging
end ContractCheck
