import ContractCheck.Proofs.Import.Needed

/-! # Imports that cannot be read

An import that leads to no file, or to one that may not be read, is passed over.  A file that can be
read but holds no text is not: if an import of a needed source means such a file, resolving the
document is given up, whatever else the document imports (`Project.resolve_settles`).  The
document's own file may hold anything, as it is not read.
-/
namespace ContractCheck.Import

variable {fs : FileSystem} {cwd : Place}

theorem illegible_iff {path : Text} : Illegible fs cwd path ↔
    (fs.read cwd path).toOption.any (fun bytes => (Utf8.read? bytes).isNone) = true := by
  unfold Illegible
  cases fs.read cwd path with
  | error e => exact ⟨nofun, nofun⟩
  | ok bytes => simp [Except.toOption]

instance (path : Text) : Decidable (Illegible fs cwd path) := decidable_of_iff _ illegible_iff.symm

namespace Project

variable {project : Project} {root : Source}

/-! ## What imports mean can be computed -/

/-- The paths that the imports of a source mean. -/
def meanings (project : Project) (fs : FileSystem) (cwd : Place) (root : Source) (importer : Text) :
    List Text :=
  (((textOf? fs cwd root importer).map find).getD []).filterMap (project.locate? fs cwd importer)

theorem mem_meanings {importer path : Text} : path ∈ project.meanings fs cwd root importer ↔
    ∃ text target, textOf? fs cwd root importer = some text ∧ target ∈ find text ∧
      project.locate? fs cwd importer target = some path := by
  unfold meanings
  cases textOf? fs cwd root importer with
  | none => simp
  | some text => simp

theorem leads_iff_meanings {importer path : Text} : project.Leads fs cwd root importer path ↔
    path ∈ project.meanings fs cwd root importer ∧ (textAt? fs cwd path).isSome := by
  rw [mem_meanings]
  exact ⟨fun ⟨text, target, given, mem, located, read⟩ =>
    ⟨⟨text, target, given, mem, located⟩, read⟩,
    fun ⟨⟨text, target, given, mem, located⟩, read⟩ => ⟨text, target, given, mem, located, read⟩⟩

theorem hindered_iff_meanings {importer : Text} : project.Hindered fs cwd root importer ↔
    ∃ path ∈ project.meanings fs cwd root importer, path ≠ root.path ∧ Illegible fs cwd path := by
  simp only [mem_meanings]
  exact ⟨fun ⟨text, target, path, given, mem, located, other⟩ =>
    ⟨path, ⟨text, target, given, mem, located⟩, other⟩,
    fun ⟨path, ⟨text, target, given, mem, located⟩, other⟩ =>
      ⟨text, target, path, given, mem, located, other⟩⟩

instance (importer : Text) : Decidable (project.Hindered fs cwd root importer) :=
  decidable_of_iff _ hindered_iff_meanings.symm

/-- What is needed can be told from a list that holds the document and all that its members lead
to. -/
theorem Needed.mem_of_closed {listed : List Text} (document : root.path ∈ listed)
    (closed : ∀ importer ∈ listed, ∀ path ∈ project.meanings fs cwd root importer,
      (textAt? fs cwd path).isSome → path ∈ listed)
    {path : Text} (needed : project.Needed fs cwd root path) : path ∈ listed := by
  induction needed with
  | document => exact document
  | imported _ leads ih =>
    obtain ⟨mem, read⟩ := leads_iff_meanings.mp leads
    exact closed _ ih _ mem read

/-! ## Resolving -/

/-- A host that keeps no log is a setting for whatever is resolved in it. -/
theorem Setting.of_nowhere {h : Host} (tree : h.files.IsTree)
    (stands : h.files.get? h.cwd = some .directory)
    (nowhere : h.log = .nowhere) : project.Setting h root where
  tree := tree
  stands := stands
  ready settings planned := by
    rw [nowhere] at planned
    cases planned
  aside := by
    rintro - - - - - - - - ⟨path, mem, -⟩
    rw [Host.logFiles, nowhere] at mem
    cases mem

/-- How resolving a document may end: with a complete job, or, if an import of a needed source means
an illegible file, with the fault of that file. -/
def Settled (project : Project) (fs : FileSystem) (cwd : Place) (root : Source) :
    Except Fault Job → Prop
  | .ok job =>
      (∀ importer, project.Needed fs cwd root importer → ¬ project.Hindered fs cwd root importer) ∧
      project.Complete fs cwd root job
  | .error fault =>
      (∃ importer, project.Needed fs cwd root importer ∧ project.Hindered fs cwd root importer) ∧
      fault = .notText

theorem resolve_ended {h : Host} {path text : Text}
    (around : project.Setting h ⟨Path.Posix.normalise path, text⟩) :
    ∃ job, project.Complete h.files h.cwd ⟨Path.Posix.normalise path, text⟩ job ∧
      h.Ended job .notText (∃ importer,
        project.Needed h.files h.cwd ⟨Path.Posix.normalise path, text⟩ importer ∧
        project.Hindered h.files h.cwd ⟨Path.Posix.normalise path, text⟩ importer)
        ((project.resolve path text).perform h) := by
  obtain ⟨n, last⟩ : ∃ n, layer (project.importsOf h.files h.cwd) ⟨Path.Posix.normalise path,
    text⟩ n = [] :=
    exists_layer_nil length_above
  have ended := collect_ended around (.refl h) rounds (.inl ⟨rfl, rfl⟩)
    (fun s mem _ => List.mem_singleton.mp mem ▸ ⟨.document, own_root⟩) nofun nofun
  have empty : jobOf [] = {} := rfl
  rw [walk_eq last (length_above n), empty] at ended
  -- The sources of the job are the needed ones, by their paths.
  have reached : (∃ s ∈ above (project.importsOf h.files h.cwd) ⟨Path.Posix.normalise path, text⟩ n,
      project.Hindered h.files h.cwd ⟨Path.Posix.normalise path, text⟩ s.path) ↔
        ∃ importer, project.Needed h.files h.cwd ⟨Path.Posix.normalise path, text⟩ importer ∧
          project.Hindered h.files h.cwd ⟨Path.Posix.normalise path, text⟩ importer := by
    simp only [← mem_above_last last, List.mem_map]
    exact ⟨fun ⟨s, mem, hindered⟩ => ⟨s.path, ⟨s, mem, rfl⟩, hindered⟩,
      fun ⟨_, ⟨s, mem, same⟩, hindered⟩ => ⟨s, mem, same ▸ hindered⟩⟩
  refine ⟨_, complete_layers last, ?_⟩
  unfold resolve
  dsimp only
  refine .congr (.bind (ended.congr rfl reached) fun h₁ logged _ =>
    .record (Log.debug_logged _ _ _) logged around.ready fun h₂ logged =>
      .given logged not_false) rfl (or_false _ ▸ Iff.rfl)

/-- **Resolving a document ends with a complete job, unless an import of a needed source means an
illegible file.** -/
theorem resolve_settles (project : Project) (h : Host) (path text : Text)
    (around : project.Setting h ⟨Path.Posix.normalise path, text⟩) :
    ∃ outcome h', (project.resolve path text).perform h = (outcome, h') ∧ h.Logged h' ∧
      project.Settled h.files h.cwd ⟨Path.Posix.normalise path, text⟩ outcome := by
  obtain ⟨job, complete, ended⟩ := resolve_ended around
  generalize (project.resolve path text).perform h = done at ended
  cases ended with
  | given logged free =>
    exact ⟨_, _, rfl, logged, fun importer needed hindered =>
      free ⟨importer, needed, hindered⟩, complete⟩
  | stopped logged caught => exact ⟨_, _, rfl, logged, caught, rfl⟩

/-- A document with imports of a directory, of a file that may not be read, of one that is not
there, and of itself, though its own file holds no text.  One more file without text is imported by
nobody. -/
def oddments : Host where
  files :=
    { entries := [(["p".toList], .directory), (["p".toList, "D.sol".toList], .directory),
        (["p".toList, "A.sol".toList], .file [0xff] .plain),
        (["p".toList, "B.sol".toList],
          .file (Utf8.encode "import './Gone.sol'; import './C.sol';".toList) .plain),
        (["p".toList, "C.sol".toList],
          .file (Utf8.encode "import './A.sol'; import './D.sol';".toList) .plain),
        (["p".toList, "No.sol".toList], .file [0xff] { readable := false }),
        (["p".toList, "Stray.sol".toList], .file [0xff] .plain)] }

/-- The text of the document. -/
def oddmentsText : Text :=
  "import './No.sol'; import './D.sol'; import './B.sol'; import './A.sol';".toList

theorem oddments_resolved :
    ∃ job h', (resolve { root := "/p".toList } "/p/A.sol".toList oddmentsText).perform oddments
    = (.ok job, h') ∧ Complete { root := "/p".toList } oddments.files oddments.cwd
      ⟨Path.Posix.normalise "/p/A.sol".toList, oddmentsText⟩ job := by
  obtain ⟨outcome, h', performed, -, settled⟩ := resolve_settles { root := "/p".toList } oddments
    "/p/A.sol".toList oddmentsText
    (.of_nowhere (FileSystem.isTree_of_entries (by decide +kernel)) rfl rfl)
  cases outcome with
  | ok job => exact ⟨job, h', performed, settled.2⟩
  | error fault =>
    obtain ⟨⟨importer, needed, hindered⟩, -⟩ := settled
    have mem : importer ∈ ["/p/A.sol".toList, "/p/B.sol".toList, "/p/C.sol".toList] :=
      needed.mem_of_closed (by decide +kernel) (by decide +kernel)
    have clear : ∀ importer ∈ ["/p/A.sol".toList, "/p/B.sol".toList, "/p/C.sol".toList],
        ¬ Hindered { root := "/p".toList } oddments.files oddments.cwd
          ⟨Path.Posix.normalise "/p/A.sol".toList, oddmentsText⟩ importer := by decide +kernel
    exact absurd hindered (clear importer mem)

/-- A document that imports two files, the first of which holds no text. -/
def spoiled : Host where
  files := { entries := [(["p".toList], .directory),
    (["p".toList, "B.sol".toList], .file [0xff] .plain),
    (["p".toList, "C.sol".toList], .file [] .plain)] }

/-- The text of the document. -/
def spoiledText : Text := "import './B.sol'; import './C.sol';".toList

theorem spoiled_given_up : Needed { root := "/p".toList } spoiled.files spoiled.cwd
      ⟨Path.Posix.normalise "/p/A.sol".toList, spoiledText⟩ "/p/C.sol".toList ∧
    ∃ h', (resolve { root := "/p".toList } "/p/A.sol".toList spoiledText).perform spoiled =
      (.error .notText, h') := by
  have leads : Leads { root := "/p".toList } spoiled.files spoiled.cwd
      ⟨Path.Posix.normalise "/p/A.sol".toList, spoiledText⟩ (Path.Posix.normalise "/p/A.sol".toList)
      "/p/C.sol".toList :=
    leads_iff_meanings.mpr (by decide +kernel)
  have hindered : Hindered { root := "/p".toList } spoiled.files spoiled.cwd
      ⟨Path.Posix.normalise "/p/A.sol".toList, spoiledText⟩
      (Path.Posix.normalise "/p/A.sol".toList) := by decide +kernel
  refine ⟨.imported .document leads, ?_⟩
  obtain ⟨job, -, ended⟩ := @resolve_ended { root := "/p".toList } spoiled
    "/p/A.sol".toList spoiledText
    (.of_nowhere (FileSystem.isTree_of_entries (by decide +kernel)) rfl rfl)
  generalize (resolve _ _ _).perform spoiled = done at ended ⊢
  cases ended with
  | given _ free => exact absurd ⟨_, .document, hindered⟩ free
  | stopped => exact ⟨_, rfl⟩

end Project
end ContractCheck.Import
