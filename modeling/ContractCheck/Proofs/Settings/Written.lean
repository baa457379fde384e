import ContractCheck.Proofs.FileSystem.Ascending
import ContractCheck.Proofs.Host.Planting
import ContractCheck.Proofs.Settings.Broken

/-! # Where settings are written

A change is written to the configuration file that the search finds, or to the one of the directory
where the search starts.  Either way the next search finds the file that was written
(`assign_found`).  What a search sees of a directory is whether its configuration file is there, and
its project file (`SameSight`).  Notes in the log change neither, as long as the log is kept apart
(`Searchable.sight`), and a configuration file that is written anew is still there
(`sameSight_written`).  So the directories that were passed over are passed over again, and if none
of them held a configuration file, the one where the search starts does now.

A search tells the log what is wrong with the project files that it passes over, so a log that
cannot be opened would end it.  But a search that gave a result has told all that there was to tell
(`findIn_done`), and whatever could be told then can be told again.
-/
namespace ContractCheck.Settings

open ContractCheck.Action
open FileSystem (placeOf folderOf Rewrites)

variable {h h' g : Host} {fs fs' : FileSystem} {cwd : Place} {start : Option Text}
  {base directory path name t : Text} {v : Value}

/-! ## Searching and reading -/

section Notes

theorem isThere_notes (path : Text) : (isThere path).Notes := by
  refine .of_still fun h => ?_
  unfold isThere
  rw [perform_bind_ok (perform_get h)]
  split
  · rfl
  · split <;> rfl

theorem readToml_notes (path : Text) : (readToml path).Notes := by
  refine .bind (.of_still (.ask _ _)) fun bytes => ?_
  split
  · exact .pure _
  · exact .pure _
  · exact .throw _
  · exact .throw _

theorem hasConfiguration_notes (fields : Fields) : (hasConfiguration fields).Notes := by
  unfold hasConfiguration
  split
  · exact .pure _
  · split
    · exact .pure _
    · exact .throw _

theorem isConfiguration_notes (path : Text) : (isConfiguration path).Notes := by
  refine .bind (isThere_notes path) fun there => ?_
  split
  · refine .orSystem (.bind (readToml_notes path) fun fields => ?_) fun e =>
      .bind (Log.write_notes _ _ _ _) fun _ => .pure _
    split
    · exact hasConfiguration_notes _
    · exact .bind (Log.write_notes _ _ _ _) fun _ => .pure _
  · exact .pure _

theorem findIn_notes (directories : List Text) : (findIn directories).Notes := by
  induction directories with
  | nil => exact .pure none
  | cons directory rest ih =>
    refine .bind (isThere_notes _) fun there => ?_
    split
    · exact .pure _
    · refine .bind (isConfiguration_notes _) fun configured => ?_
      split
      · exact .pure _
      · exact ih

theorem find_notes (start : Option Text) : (find start).Notes := by
  intro h
  rw [find_perform]
  exact findIn_notes _ h

theorem readLayer_notes (path : Text) : (readLayer path).Notes := by
  refine .orSystem (.bind (readToml_notes path) fun fields => ?_) fun e =>
    .bind (Log.write_notes _ _ _ _) fun _ => .pure _
  split
  · exact .bind (Log.write_notes _ _ _ _) fun _ => .pure _
  · have part : ∀ fields, (configurationPart path fields).Notes := by
      intro fields
      unfold configurationPart
      split
      · split
        · exact .pure _
        · exact .throw _
      · exact .pure _
    refine .bind (part _) fun value => ?_
    split
    · exact .pure _
    · exact .throw _

theorem layer_notes (start : Option Text) : (layer none start).Notes := by
  rw [layer_none]
  refine .bind (find_notes start) fun found => ?_
  split
  · exact readLayer_notes _
  · exact .pure _

/-- Loading settings does no more than write to the log. -/
theorem load_notes (start : Option Text) : (load none start).Notes := by
  refine .bind (.of_still fun h => rfl) fun h => ?_
  split
  · exact .throw _
  · refine .bind (layer_notes start) fun base => ?_
    split
    · exact .throw _
    · exact .bind (layer_notes start) fun notes => .pure _

end Notes

/-! ## What a search sees -/

/-- File systems in which a search sees the same of a directory. -/
structure SameSight (cwd : Place) (directory : Text) (fs fs' : FileSystem) : Prop where
  there : fs'.isThere cwd (fileIn directory) = fs.isThere cwd (fileIn directory)
  tooLong : TooLong fs' cwd (fileIn directory) ↔ TooLong fs cwd (fileIn directory)
  project : fs'.find cwd (projectFileIn directory) = fs.find cwd (projectFileIn directory)

namespace SameSight

variable (same : SameSight cwd directory fs fs')
include same

theorem symm : SameSight cwd directory fs' fs :=
  ⟨same.there.symm, same.tooLong.symm, same.project.symm⟩

theorem lacks (lacks : Lacks fs cwd (fileIn directory)) : Lacks fs' cwd (fileIn directory) :=
  ⟨same.there.trans lacks.1, fun long => lacks.2 (same.tooLong.mp long)⟩

theorem projectThere :
    fs'.isThere cwd (projectFileIn directory) = fs.isThere cwd (projectFileIn directory) := by
  rw [FileSystem.isThere, FileSystem.isThere, same.project]

theorem projectTooLong : TooLong fs' cwd (projectFileIn directory) ↔
    TooLong fs cwd (projectFileIn directory) := by
  rw [TooLong, TooLong, same.project]

theorem read : fs'.read cwd (projectFileIn directory) = fs.read cwd (projectFileIn directory) := by
  rw [FileSystem.read, FileSystem.read, same.project]

theorem parsed {fields : Fields} (parsed : Parsed fs cwd (projectFileIn directory) fields) :
    Parsed fs' cwd (projectFileIn directory) fields := by
  rwa [Parsed, same.read]

theorem unread {note : Text} (unread : Unread fs cwd (projectFileIn directory) note) :
    Unread fs' cwd (projectFileIn directory) note := by
  cases unread with
  | unreadable failed system => exact .unreadable (same.read.trans failed) system
  | malformed read broken => exact .malformed (same.read.trans read) broken

theorem hasUnread (unread : HasUnread fs cwd directory) : HasUnread fs' cwd directory := by
  obtain ⟨there, note, unread⟩ := unread
  exact ⟨same.projectThere.trans there, note, same.unread unread⟩

theorem holds (holds : Holds fs cwd directory path) : Holds fs' cwd directory path := by
  cases holds with
  | own there => exact .own (same.there.trans there)
  | project lacks there parsed configured =>
    exact .project (same.lacks lacks) (same.projectThere.trans there)
      (same.parsed parsed) configured

theorem passedOver (passed : PassedOver fs cwd directory) : PassedOver fs' cwd directory := by
  cases passed with
  | bare lacks none =>
    exact .bare (same.lacks lacks) ⟨same.projectThere.trans none.1,
      fun long => none.2 (same.projectTooLong.mp long)⟩
  | unread lacks there unread =>
    exact .unread (same.lacks lacks) (same.projectThere.trans there) (same.unread unread)
  | unconfigured lacks there parsed silent =>
    exact .unconfigured (same.lacks lacks) (same.projectThere.trans there)
      (same.parsed parsed) silent

end SameSight

/-- What a search sees of directories decides which of them is the first that is not passed over. -/
theorem First.congr {kind kind' : Text → Prop} {directories : List Text}
    (sight : ∀ d ∈ directories, SameSight cwd d fs fs')
    (kinds : ∀ d ∈ directories, kind d → kind' d)
    (first : First fs cwd kind directories) : First fs' cwd kind' directories := by
  obtain ⟨passed, directory, rest, rfl, passes, own⟩ := first
  have mem : directory ∈ passed ++ directory :: rest := by simp
  exact ⟨passed, directory, rest, rfl,
    fun d inside => (sight d (List.mem_append_left _ inside)).passedOver (passes d inside),
    kinds directory mem own⟩

/-- Whether a file is the configuration file of the first directory that is not passed over, and is
there. -/
def FirstOwn (fs : FileSystem) (cwd : Place) (path : Text) (directories : List Text) : Prop :=
  First fs cwd (fun d => path = fileIn d ∧ fs.isThere cwd (fileIn d) = true) directories

theorem FirstOwn.congr {directories : List Text} (sight : ∀ d ∈ directories, SameSight cwd d fs fs')
    (own : FirstOwn fs cwd path directories) : FirstOwn fs' cwd path directories :=
  First.congr sight (fun d mem ⟨same, there⟩ => ⟨same, (sight d mem).there.trans there⟩) own

theorem FirstOwn.holds {directories : List Text} (own : FirstOwn fs cwd path directories) :
    First fs cwd (Holds fs cwd · path) directories := by
  obtain ⟨passed, directory, rest, rfl, passes, rfl, there⟩ := own
  exact ⟨passed, directory, rest, rfl, passes, .own there⟩

theorem FirstOwn.leaf {directories : List Text} (own : FirstOwn fs cwd path directories) :
    Path.Posix.leaf path = fileName := by
  obtain ⟨_, directory, _, -, -, rfl, -⟩ := own
  exact fileIn_leaf directory

theorem projectFileIn_leaf (directory : Text) :
    Path.Posix.leaf (projectFileIn directory) = projectFileName :=
  (Path.EndsIn.child projectFileName_proper.1 directory projectFileName_proper.2).leaf
    projectFileName_proper.1
    projectFileName_proper.2.1 projectFileName_proper.2.2.1

/-- A file that is held is no project file if its name is that of a configuration file. -/
theorem firstOwn_of_holds {directories : List Text}
    (first : First fs cwd (Holds fs cwd · path) directories)
    (leaf : Path.Posix.leaf path = fileName) : FirstOwn fs cwd path directories := by
  obtain ⟨passed, directory, rest, rfl, passes, holds⟩ := first
  cases holds with
  | own there => exact ⟨passed, directory, rest, rfl, passes, rfl, there⟩
  | project =>
    rw [projectFileIn_leaf] at leaf
    exact absurd leaf (by decide)

/-- A configuration file that is written anew makes no difference to what is seen. -/
theorem sameSight_written {content : Bytes}
    (written : fs.write cwd (fileIn directory) content = .ok fs')
    (there : fs.isThere cwd (fileIn directory) = true) (other : Text) :
    SameSight cwd other fs fs' := by
  have same := write_sameBut written (FileSystem.isFile_of_written written there)
  have apart := placeOf_apart other directory cwd
  refine ⟨?_, ?_, ?_⟩
  · unfold FileSystem.isThere
    rcases same.find cwd (fileIn other) with alike | ⟨-, p, content, x, content', x', found, found'⟩
    · rw [alike]
    · rw [found, found']
      rfl
  · unfold TooLong
    rcases same.find cwd (fileIn other) with alike | ⟨-, p, content, x, content', x', found, found'⟩
    · rw [alike]
    · rw [found, found']
      exact ⟨nofun, nofun⟩
  · rcases same.find cwd (projectFileIn other) with alike | ⟨here, -⟩
    · exact alike
    · exact absurd here apart

/-! ## Where a search can start -/

/-- A host in which a search can start at a directory: it stands in a tree. -/
structure Searchable (base : Text) (h : Host) : Prop where
  planted : h.Planted
  stands : h.files.isDirectory h.cwd base = true

/-- Whether the log is kept apart from the files that a search looks at. -/
def LogAside (base : Text) (h : Host) : Prop :=
  ∀ d ∈ Path.Posix.lineage base,
    ¬ h.LogArea (placeOf h.cwd (fileIn d)) ∧ ¬ h.LogArea (placeOf h.cwd (projectFileIn d))

theorem short_names : FileSystem.tooLong directoryName = false ∧
    FileSystem.tooLong fileName = false ∧
    FileSystem.tooLong projectFileName = false := by decide

theorem directoryName_proper : '/' ∉ directoryName ∧ Path.Proper directoryName := by decide

/-- In a tree the configuration file of a directory that stands is there if something is at its
place. -/
theorem isThere_fileIn_iff (tree : fs.IsTree) (standing : fs.Standing cwd directory) :
    fs.isThere cwd (fileIn directory) = true ↔
      FileSystem.Takes (fileIn directory) ∧ fs.get? (placeOf cwd (fileIn directory)) ≠ none :=
  FileSystem.isThere_grandchild_iff fileName_proper.1 fileName_proper.2 short_names.2.1
    directoryName_proper.1
    directoryName_proper.2 short_names.1 tree standing

/-- Whether its path is too long does not depend on what is there. -/
theorem tooLong_fileIn_iff (standing : fs.Standing cwd directory) :
    TooLong fs cwd (fileIn directory) ↔
      '\x00' ∉ fileIn directory ∧ fileIn directory ≠ [] ∧ FileSystem.maxPath <
      (Utf8.encode (fileIn directory)).length :=
  FileSystem.find_grandchild_nameTooLong_iff fileName_proper.1 fileName_proper.2 short_names.2.1
    directoryName_proper.1
    directoryName_proper.2 short_names.1 standing

theorem LogAside.of_area (aside : LogAside base h) (cwd : h'.cwd = h.cwd)
    (area : ∀ q, h'.LogArea q → h.LogArea q) :
    LogAside base h' := by
  intro d mem
  obtain ⟨own, project⟩ := aside d mem
  rw [cwd]
  exact ⟨own ∘ area _, project ∘ area _⟩

theorem LogAside.noted (aside : LogAside base h) (noted : h.Noted h') : LogAside base h' :=
  aside.of_area noted.touches.cwd noted.touches.area

namespace Searchable

variable (searchable : Searchable base h)
include searchable

theorem noted (noted : h.Noted h') : Searchable base h' where
  planted := noted.planted searchable.planted
  stands := by
    rw [noted.touches.cwd]
    exact FileSystem.isDirectory_keeps noted.grows.directory searchable.stands

theorem rewrites {σ : List Place} (rewrites : Rewrites σ h.files fs) :
    Searchable base { h with files := fs } where
  planted := searchable.planted.rewrites rewrites
  stands := FileSystem.isDirectory_keeps (fun _ => rewrites.directory) searchable.stands

variable (aside : LogAside base h)
include aside

/-- **Notes in the log make no difference to what is seen on the way up.** -/
theorem sight (noted : h.Noted h') (mem : directory ∈ Path.Posix.lineage base) :
    SameSight h.cwd directory h.files h'.files := by
  obtain ⟨own, project⟩ := aside directory mem
  have standing := FileSystem.standing_lineage searchable.stands mem
  have standing' := standing.keeps noted.grows.directory
  have tree := searchable.planted.tree
  have tree' := (noted.planted searchable.planted).tree
  refine ⟨?_, ?_, ?_⟩
  · rw [Bool.eq_iff_iff, isThere_fileIn_iff tree' standing', isThere_fileIn_iff tree standing,
      noted.same own]
  · rw [tooLong_fileIn_iff standing', tooLong_fileIn_iff standing]
  · refine FileSystem.find_child_congr projectFileName_proper.1 projectFileName_proper.2
      short_names.2.2 standing standing' ?_
    rw [← FileSystem.placeOf_child projectFileName_proper.1 projectFileName_proper.2,
      noted.same project]

theorem firstOwn_iff (noted : h.Noted h') :
    FirstOwn h'.files h'.cwd path (Path.Posix.lineage base) ↔
    FirstOwn h.files h.cwd path (Path.Posix.lineage base) := by
  rw [noted.touches.cwd]
  exact ⟨.congr fun d mem => (searchable.sight aside noted mem).symm,
    .congr fun d mem => searchable.sight aside noted mem⟩

end Searchable

/-! ## What a search finds -/

theorem baseOf_congr (cwd : h'.cwd = h.cwd) (start : Option Text) :
    baseOf start h' = baseOf start h := by
  unfold baseOf
  rw [Host.directory, Host.directory, cwd]

/-- A directory that a search passes over: if its project file is unread, that can be told to the
log. -/
structure Passes (h : Host) (directory : Text) : Prop where
  passed : PassedOver h.files h.cwd directory
  told : HasUnread h.files h.cwd directory → h.LogReady

/-- Whether a search among directories comes to one of a kind. -/
def Reaches (h : Host) (kind : Text → Prop) (directories : List Text) : Prop :=
  ∃ passed directory rest, directories = passed ++ directory :: rest ∧ (∀ d ∈ passed, Passes h d) ∧
    kind directory

theorem Passes.congr (passes : Passes h directory) (cwd : g.cwd = h.cwd)
    (ready : h.LogReady → g.LogReady)
    (sight : SameSight h.cwd directory h.files g.files) : Passes g directory where
  passed := by
    rw [cwd]
    exact sight.passedOver passes.passed
  told := by
    intro unread
    rw [cwd] at unread
    exact ready (passes.told (sight.symm.hasUnread unread))

namespace Reaches

variable {kind kind' : Text → Prop} {directories : List Text}

theorem first (reaches : Reaches h kind directories) : First h.files h.cwd kind directories := by
  obtain ⟨passed, directory, rest, rfl, passes, own⟩ := reaches
  exact ⟨passed, directory, rest, rfl, fun d mem => (passes d mem).passed, own⟩

/-- A search comes to the same directory wherever it sees the same, and the log is as ready. -/
theorem congr (reaches : Reaches h kind directories) (cwd : g.cwd = h.cwd)
    (ready : h.LogReady → g.LogReady) (sight : ∀ d ∈ directories, SameSight h.cwd d h.files g.files)
    (kinds : ∀ d ∈ directories, kind d → kind' d) :
    Reaches g kind' directories := by
  obtain ⟨passed, directory, rest, rfl, passes, own⟩ := reaches
  exact ⟨passed, directory, rest, rfl,
    fun d mem => (passes d mem).congr cwd ready (sight d (List.mem_append_left _ mem)),
    kinds directory (List.mem_append_right _ List.mem_cons_self) own⟩

/-- A search comes to a configuration file that is written anew. -/
theorem written {content : Bytes} (reaches : Reaches h (Holds h.files h.cwd · path) directories)
    (leaf : Path.Posix.leaf path = fileName) (written : h.files.write h.cwd path content = .ok fs) :
    Reaches { h with files := fs } (Holds fs h.cwd · path) directories := by
  obtain ⟨directory, rfl, there⟩ : ∃ directory, path = fileIn directory ∧
      h.files.isThere h.cwd (fileIn directory) = true := by
    obtain ⟨_, directory, _, -, -, own⟩ := firstOwn_of_holds reaches.first leaf
    exact ⟨directory, own⟩
  have sight := sameSight_written written there
  exact reaches.congr rfl (Host.ready_of_same rfl rfl) (fun d _ => sight d) fun d _ =>
    (sight d).holds

theorem behind (passes : Passes h directory) (reaches : Reaches h kind directories) :
    Reaches h kind (directory :: directories) := by
  obtain ⟨passed, d, rest, rfl, others, own⟩ := reaches
  exact ⟨directory :: passed, d, rest, rfl, List.forall_mem_cons.mpr ⟨passes, others⟩, own⟩

end Reaches

/-- Once an unread project file was passed over, the log is open. -/
theorem opened_of_unread {b : Bool} (unread : HasUnread h.files h.cwd directory)
    (done : (isConfiguration (projectFileIn directory)).perform h = (.ok b, h')) :
    b = false ∧ ¬ h'.LogPlanned := by
  obtain ⟨there, note, unread⟩ := unread
  unfold isConfiguration at done
  rw [perform_bind_ok (isThere_there there), if_pos rfl] at done
  -- Either way a note is written, and what is given then is that there is no configuration.
  have noted {message : Text} (done : (Log.debug owner message >>= fun _ => pure false).perform h =
      (.ok b, h')) :
      b = false ∧ ¬ h'.LogPlanned := by
    obtain ⟨_, h₁, written, last⟩ := ok_of_bind done
    obtain ⟨same, rfl⟩ := Prod.mk.inj last
    exact ⟨(Except.ok.inj same).symm, Log.write_opens written⟩
  rcases readToml_unread unread with ⟨e, failed, system, -⟩ | ⟨malformed, -⟩
  · rw [perform_orSystem_handled (perform_bind_error failed) system] at done
    exact noted done
  · let message :=
      "Failed to parse pyproject.toml at ".toList ++ projectFileIn directory ++ ": not TOML".toList
    rcases Log.write_cases .debug owner.toList message [] h with
      ⟨h₁, written, -⟩ | ⟨e, h₁, failed, foreign⟩
    · have gives : (Log.debug owner message >>= fun _ => pure false).perform h = (.ok false, h₁) :=
        perform_bind_ok written
      rw [perform_orSystem_ok ((perform_bind_ok malformed).trans gives)] at done
      exact noted (gives.trans done)
    · have fails : (Log.debug owner message >>= fun _ => pure false).perform h = (.error e, h₁) :=
        perform_bind_error failed
      rw [perform_orSystem_foreign ((perform_bind_ok malformed).trans fails) foreign] at done
      cases done

/-- What one directory does to a search that gives a result: it holds the file, or it is passed
over, and what is wrong with its project file has been told. -/
theorem findIn_step {rest : List Text} {found : Option Text}
    (done : (findIn (directory :: rest)).perform h = (.ok found, h')) :
    (∃ p, Holds h.files h.cwd directory p ∧ found = some p ∧ h' = h) ∨
    PassedOver h.files h.cwd directory ∧ ∃ h₁, h.Noted h₁ ∧
    (findIn rest).perform h₁ = (.ok found, h') ∧
      (HasUnread h.files h.cwd directory → h₁.LogReady) := by
  rcases directory_cases h.files h.cwd directory with ⟨p, holds⟩ | passed | breaks
  · obtain ⟨same, rfl⟩ := Prod.mk.inj (done.symm.trans (findIn_holds rest holds))
    exact .inl ⟨p, holds, Except.ok.inj same, rfl⟩
  · refine .inr ⟨passed, ?_⟩
    by_cases unread : HasUnread h.files h.cwd directory
    · have lacks : Lacks h.files h.cwd (fileIn directory) := by
        cases passed <;> assumption
      rw [findIn, perform_bind_ok (isThere_lacking lacks)] at done
      obtain ⟨b, h₁, looked, onward⟩ := ok_of_bind done
      obtain ⟨rfl, opened⟩ := opened_of_unread unread looked
      exact ⟨h₁, (isConfiguration_notes _).after looked, onward,
        fun _ settings planned => absurd ⟨settings, planned⟩ opened⟩
    · have silent : ∃ h₁, (findIn (directory :: rest)).perform h =
          (findIn rest).perform h₁ ∧ h₁ = h :=
        findIn_passedOver rest rfl (fun told => absurd told unread) passed
      obtain ⟨h₁, onward, rfl⟩ := silent
      exact ⟨h₁, .refl h₁, onward.symm.trans done, fun told => absurd told unread⟩
  · obtain ⟨e, failed⟩ := findIn_breaks rest breaks
    cases done.symm.trans failed

section Find

variable (searchable : Searchable base h) (aside : LogAside base h) {directories : List Text}
include searchable aside

/-- **A search that gives a result gives the file that the first directory holds that is not passed
over, or passes over all of them.** -/
theorem findIn_done {found : Option Text} (inside : ∀ d ∈ directories, d ∈ Path.Posix.lineage base)
    (done : (findIn directories).perform h = (.ok found, h')) :
    (∃ p, found = some p ∧ Reaches h' (Holds h'.files h'.cwd · p) directories) ∨
      found = none ∧ ∀ d ∈ directories, Passes h' d := by
  induction directories generalizing h with
  | nil =>
    obtain ⟨same, -⟩ := Prod.mk.inj done
    exact .inr ⟨(Except.ok.inj same).symm, nofun⟩
  | cons directory rest ih =>
    obtain ⟨here, others⟩ := List.forall_mem_cons.mp inside
    rcases findIn_step done with ⟨p, holds, rfl, rfl⟩ | ⟨passed, h₁, noted, onward, told⟩
    · exact .inl ⟨p, rfl, [], directory, rest, rfl, nofun, holds⟩
    · have noted' := (findIn_notes rest).after onward
      -- What is seen of the directory is the same in the end, and the log is as ready.
      have passes : Passes h₁ directory := by
        have sight := searchable.sight aside noted here
        refine ⟨?_, fun unread => told (sight.symm.hasUnread ?_)⟩
        · rw [noted.touches.cwd]
          exact sight.passedOver passed
        · rwa [noted.touches.cwd] at unread
      have passes' := passes.congr noted'.touches.cwd noted'.touches.shows.ready
        ((searchable.noted noted).sight (aside.noted noted) noted' here)
      rcases ih (searchable.noted noted) (aside.noted noted) others onward with
        ⟨p, rfl, reaches⟩ | ⟨rfl, later⟩
      · exact .inl ⟨p, rfl, reaches.behind passes'⟩
      · exact .inr ⟨rfl, List.forall_mem_cons.mpr ⟨passes', later⟩⟩

/-- Directories that a search passes over leave nothing but notes in the log. -/
theorem findIn_passes (rest : List Text) {passed : List Text}
    (inside : ∀ d ∈ passed, d ∈ Path.Posix.lineage base) (passes : ∀ d ∈ passed, Passes h d) :
    ∃ h', (findIn (passed ++ rest)).perform h = (findIn rest).perform h' ∧ h.Noted h' := by
  induction passed generalizing h with
  | nil => exact ⟨h, rfl, .refl h⟩
  | cons directory passed ih =>
    obtain ⟨first, others⟩ := List.forall_mem_cons.mp passes
    obtain ⟨-, inside'⟩ := List.forall_mem_cons.mp inside
    obtain ⟨h₁, here, noted⟩ := findIn_passedOver (passed ++ rest) (Host.Noted.refl h)
      (fun unread message => Log.write_noted .debug owner.toList message [] (first.told unread))
      first.passed
    have others' : ∀ d ∈ passed, Passes h₁ d := fun d mem =>
      (others d mem).congr noted.touches.cwd noted.touches.shows.ready
        (searchable.sight aside noted (inside' d mem))
    obtain ⟨h₂, onward, noted'⟩ := ih (searchable.noted noted) (aside.noted noted) inside' others'
    exact ⟨h₂, here.trans onward, noted.trans noted'⟩

end Find

section Find

variable (searchable : Searchable (baseOf start h) h) (aside : LogAside (baseOf start h) h)
include searchable aside

/-- A search comes to the file that a directory holds, and leaves nothing but notes in the log. -/
theorem find_reaches (reaches : Reaches h (Holds h.files h.cwd · path)
    (Path.Posix.lineage (baseOf start h))) :
    ((find start).perform h).1 = .ok (some path) := by
  obtain ⟨passed, directory, rest, shape, passes, holds⟩ := reaches
  have inside : ∀ d ∈ passed ++ directory :: rest, d ∈ Path.Posix.lineage (baseOf start h) :=
    fun d mem => shape ▸ mem
  obtain ⟨h₁, onward, noted⟩ := findIn_passes searchable aside (directory :: rest)
    (fun d mem => inside d (List.mem_append_left _ mem)) passes
  have sight :=
    searchable.sight aside noted (inside directory (List.mem_append_right _ List.mem_cons_self))
  have holds' := sight.holds holds
  rw [← noted.touches.cwd] at holds'
  rw [find_perform, shape, onward, findIn_holds rest holds']

/-- What a search gives is what it comes to in the end, and what the first directory holds that was
not passed over. -/
theorem find_done {found : Option Text} (done : (find start).perform h = (.ok found, h')) :
    (∃ p, found = some p ∧ Reaches h' (Holds h'.files h'.cwd · p)
      (Path.Posix.lineage (baseOf start h)) ∧
      First h.files h.cwd (Holds h.files h.cwd · p) (Path.Posix.lineage (baseOf start h))) ∨
    found = none ∧ ∀ d ∈ Path.Posix.lineage (baseOf start h), PassedOver h.files h.cwd d := by
  have noted := (find_notes start).after done
  have sight (d : Text) (mem : d ∈ Path.Posix.lineage (baseOf start h)) :
      SameSight h.cwd d h'.files h.files := (searchable.sight aside noted mem).symm
  rw [find_perform] at done
  rcases findIn_done searchable aside (fun _ => id) done with ⟨p, rfl, reaches⟩ | ⟨rfl, passes⟩
  · refine .inl ⟨p, rfl, reaches, ?_⟩
    have first := reaches.first
    rw [noted.touches.cwd] at first
    exact first.congr sight fun d mem => (sight d mem).holds
  · refine .inr ⟨rfl, fun d mem => (sight d mem).passedOver ?_⟩
    rw [← noted.touches.cwd]
    exact (passes d mem).passed

end Find

/-- Whether every search from a start gives a file, and the settings are read from it, whatever was
noted in the log since. -/
def LeadsTo (start : Option Text) (path : Text) (h : Host) : Prop :=
  ∀ g, h.Noted g → ∃ g', h.Noted g' ∧ (find start).perform g = (.ok (some path), g') ∧
    (layer none start).perform g = (readLayer path).perform g'

theorem leadsTo_of_found (found : ∀ g, h.Noted g → ((find start).perform g).1 = .ok (some path)) :
    LeadsTo start path h := by
  intro g noted
  have searched : (find start).perform g = (.ok (some path), ((find start).perform g).2) :=
    Prod.ext (found g noted) rfl
  refine ⟨_, noted.trans ((find_notes start).after searched), searched, ?_⟩
  rw [layer_none]
  exact perform_bind_ok searched

/-- The configuration file of the directory where a search starts is found once it is there. -/
theorem leadsTo_fresh (there : h.files.isThere h.cwd (fileIn (baseOf start h)) = true) :
    LeadsTo start (fileIn (baseOf start h)) h := by
  refine leadsTo_of_found fun g noted => ?_
  obtain ⟨rest, shape⟩ := Path.lineage_eq (baseOf start h)
  have own : Holds g.files g.cwd (Path.Posix.tidy (baseOf start h))
      (fileIn (Path.Posix.tidy (baseOf start h))) := by
    refine .own ?_
    rw [fileIn_tidy, noted.touches.cwd]
    exact noted.grows.isThere there
  rw [find_perform, baseOf_congr noted.touches.cwd, shape, findIn_holds rest own, fileIn_tidy]

/-- A configuration file is found again if a search comes to it. -/
theorem leadsTo_own (searchable : Searchable (baseOf start h) h)
    (aside : LogAside (baseOf start h) h)
    (reaches : Reaches h (Holds h.files h.cwd · path) (Path.Posix.lineage (baseOf start h))) :
    LeadsTo start path h := by
  refine leadsTo_of_found fun g noted => ?_
  have base := baseOf_congr noted.touches.cwd start
  have sight (d : Text) (mem : d ∈ Path.Posix.lineage (baseOf start h)) :
      SameSight h.cwd d h.files g.files := searchable.sight aside noted mem
  refine find_reaches (base.symm ▸ searchable.noted noted) (base.symm ▸ aside.noted noted) ?_
  rw [base]
  refine reaches.congr noted.touches.cwd noted.touches.shows.ready sight fun d mem holds => ?_
  rw [noted.touches.cwd]
  exact (sight d mem).holds holds

/-! ## What is written -/

/-- A host after a step that spares project files, but where the log is written, and in which a
search can still start. -/
structure Spares (base : Text) (h h' : Host) : Prop where
  searchable : Searchable base h'
  cwd : h'.cwd = h.cwd
  area : ∀ q, h'.LogArea q → h.LogArea q
  project : ∀ q, q.getLast? = some projectFileName → ¬ h.LogArea q →
    h'.files.get? q = h.files.get? q

theorem Spares.trans {h'' : Host} (first : Spares base h h') (second : Spares base h' h'') :
    Spares base h h'' where
  searchable := second.searchable
  cwd := second.cwd.trans first.cwd
  area q := first.area q ∘ second.area q
  project q last aside :=
    (second.project q last fun inside => aside (first.area q inside)).trans
      (first.project q last aside)

theorem Searchable.spares_noted (searchable : Searchable base h) (noted : h.Noted h') :
    Spares base h h' :=
  ⟨searchable.noted noted, noted.touches.cwd, noted.touches.area, fun _ _ => noted.same⟩

/-- A change at a place of another name spares project files. -/
theorem Searchable.spares_rewrites (searchable : Searchable base h)
    (rewrites : Rewrites [placeOf h.cwd path] h.files fs)
    {endName : Text} (bare : '/' ∉ endName) (proper : Path.Proper endName)
    (ends : Path.EndsIn endName path)
    (other : endName ≠ projectFileName) : Spares base h { h with files := fs } where
  searchable := searchable.rewrites rewrites
  cwd := rfl
  area _ := id
  project q last _ := by
    refine rewrites.rest q fun mem => other ?_
    rw [List.mem_singleton.mp mem, FileSystem.placeOf_endsIn bare proper ends] at last
    exact Option.some.inj last

theorem save_done {config : Value} (done : (save config path).perform h = (.ok ⟨⟩, h')) :
    ∃ content fs, h.files.write h.cwd path content = .ok fs ∧ h' = { h with files := fs } := by
  unfold save at done
  split at done
  · split at done
    · rw [perform_bind_ok (perform_get h)] at done
      split at done
      · obtain ⟨fs, written, rfl⟩ := writeFile_done done
        exact ⟨_, fs, written, rfl⟩
      · obtain ⟨⟨⟩, h₁, -, failed⟩ := ok_of_bind done
        cases failed
    · cases done
  · cases done

/-- A path for writing is that of the configuration file that a search finds, or of the one where
the search starts. -/
theorem pathForWriting_chooses (searchable : Searchable (baseOf start h) h)
    (aside : LogAside (baseOf start h) h)
    (done : (pathForWriting start).perform h = (.ok path, h')) :
    Spares (baseOf start h) h h' ∧
      (FirstOwn h.files h.cwd path (Path.Posix.lineage (baseOf start h)) ∧
          Reaches h' (Holds h'.files h'.cwd · path) (Path.Posix.lineage (baseOf start h)) ∨
        (∀ own, ¬ FirstOwn h.files h.cwd own (Path.Posix.lineage (baseOf start h))) ∧
        path = fileIn (baseOf start h)) := by
  obtain ⟨found, h₁, searched, choice⟩ := pathForWriting_done done
  have spares := searchable.spares_noted ((find_notes start).after searched)
  have comes := find_done searchable aside searched
  rcases choice with ⟨rfl, leaf, rfl⟩ | ⟨other, fresh⟩
  · rcases comes with ⟨p, same, reaches, first⟩ | ⟨⟨⟩, -⟩
    obtain rfl := Option.some.inj same
    exact ⟨spares, .inl ⟨firstOwn_of_holds first leaf, reaches⟩⟩
  · have none : ∀ own, ¬ FirstOwn h.files h.cwd own (Path.Posix.lineage (baseOf start h)) := by
      intro own first
      obtain ⟨only, some⟩ := first.holds.determined
      rcases comes with ⟨p, rfl, -, first'⟩ | ⟨-, passed⟩
      · exact other p rfl (only p first' ▸ first.leaf)
      · exact some passed
    have base := baseOf_congr spares.cwd start
    obtain ⟨chosen, rfl | ⟨fs, rfl, made⟩⟩ := fresh_done fresh
    · exact ⟨spares, .inr ⟨none, base ▸ chosen⟩⟩
    · have rewrites := FileSystem.makeDirectory_rewrites spares.searchable.planted.tree
        spares.searchable.planted.stands made
      have ends := Path.EndsIn.child directoryName_proper.1 (baseOf start h₁) directoryName_proper.2
      refine ⟨spares.trans (spares.searchable.spares_rewrites rewrites
        directoryName_proper.1 directoryName_proper.2 ends
        (by decide)), .inr ⟨none, base ▸ chosen⟩⟩

/-- **A change is written where the next load reads.**  The file that is written is the
configuration file of the first directory on the way up that is not passed over, if that one has it,
and the one of the directory where the search starts otherwise.  From then on every search from
there finds this file, and settings are read from it.  Project files are left as they are. -/
theorem assign_found (searchable : Searchable (baseOf start h) h)
    (aside : LogAside (baseOf start h) h)
    (done : (assign name t start).perform h = (.ok (path, v), h')) :
    LeadsTo start path h' ∧
    (∀ own, FirstOwn h.files h.cwd own (Path.Posix.lineage (baseOf start h)) → path = own) ∧
    ((∀ own, ¬ FirstOwn h.files h.cwd own (Path.Posix.lineage (baseOf start h))) →
      path = fileIn (baseOf start h)) ∧
    ∀ q, q.getLast? = some projectFileName → ¬ h.LogArea q → h'.files.get? q = h.files.get? q := by
  obtain ⟨k, loaded, h₁, h₂, -, -, loads, placed, saved⟩ := assign_done done
  obtain ⟨content, fs, written, rfl⟩ := save_done saved
  have noted : h.Noted h₁ := (load_notes start).after loads
  have loaded := searchable.spares_noted noted
  have base := baseOf_congr loaded.cwd start
  obtain ⟨chosen, choice⟩ :=
    pathForWriting_chooses (base.symm ▸ loaded.searchable) (base.symm ▸ aside.noted noted) placed
  obtain ⟨d, rfl⟩ : ∃ d, path = fileIn d := by
    rcases choice with ⟨⟨_, d, _, -, -, own, -⟩, -⟩ | ⟨-, fresh⟩
    · exact ⟨d, own⟩
    · exact ⟨_, fresh⟩
  have rewrites := FileSystem.update_rewrites chosen.searchable.planted.tree
    chosen.searchable.planted.stands written
  have wrote :=
    chosen.trans (chosen.searchable.spares_rewrites rewrites fileName_proper.1 fileName_proper.2
      (fileIn_endsIn d)
    (by decide))
  have base' := baseOf_congr wrote.cwd start
  rw [base] at choice chosen wrote
  have whole := loaded.trans wrote
  rcases choice with ⟨own, reaches⟩ | ⟨none, fresh⟩
  · have own₀ := (searchable.firstOwn_iff aside noted).mp own
    refine ⟨?_, fun other first' => ?_, fun none => absurd own₀ (none _), whole.project⟩
    · refine leadsTo_own ?_ ?_ ?_
      · rw [base', base]
        exact wrote.searchable
      · rw [base', base]
        exact aside.of_area whole.cwd whole.area
      · rw [base', base]
        exact reaches.written (fileIn_leaf d) written
    · exact own₀.holds.determined.1 other first'.holds ▸ rfl
  · have there := FileSystem.isThere_written written
    refine ⟨?_, fun other first' => ?_, fun _ => fresh, whole.project⟩
    · have again := @leadsTo_fresh { h₂ with files := fs } start
      rw [base', base, ← fresh] at again
      exact again there
    · exact absurd ((searchable.firstOwn_iff aside noted).mpr first') (none other)

/-- A project whose own file is no TOML, below a configuration file, with a log beside that. -/
def nestedProject : Host where
  files := { entries := [
    ([directoryName], .directory),
    ([directoryName, fileName], .file (Utf8.encode "[layout]\ntemp_dir = \"t\"\n".toList) .plain),
    (["p".toList], .directory),
    (["p".toList, projectFileName], .file (Utf8.encode "[tool.solcheck".toList) .plain)] }
  cwd := ["p".toList]
  log := .opened { least := .debug, console := false, file := some "/server.log".toList }

theorem nestedProject_area {q : Place} (inside : nestedProject.LogArea q) :
    q = ["server.log".toList] := by
  rcases inside with ⟨path, logged, rfl⟩ | ⟨_, _, planned, -⟩
  · obtain rfl := List.mem_singleton.mp logged
    decide +kernel
  · cases planned

theorem nestedProject_searchable : Searchable (baseOf none nestedProject) nestedProject where
  planted := ⟨FileSystem.isTree_of_entries (by decide), by decide⟩
  stands := by decide +kernel

theorem nestedProject_aside : LogAside (baseOf none nestedProject) nestedProject := by
  have apart : ∀ d ∈ Path.Posix.lineage (baseOf none nestedProject),
      placeOf nestedProject.cwd (fileIn d) ≠ ["server.log".toList] ∧
        placeOf nestedProject.cwd (projectFileIn d) ≠ ["server.log".toList] := by decide +kernel
  exact fun d mem => ⟨fun inside => (apart d mem).1 (nestedProject_area inside),
    fun inside => (apart d mem).2 (nestedProject_area inside)⟩

/-- Its settings are written to the file above, and read from there. -/
theorem nestedProject_found : Searchable (baseOf none nestedProject) nestedProject ∧
    LogAside (baseOf none nestedProject) nestedProject ∧
    ∃ v h', (assign "layout.build_dir".toList "out".toList none).perform nestedProject =
        (.ok ("/.solcheck/config.toml".toList, v), h') ∧
      LeadsTo none "/.solcheck/config.toml".toList h' ∧
      h'.files.get? ["p".toList, projectFileName] =
        nestedProject.files.get? ["p".toList, projectFileName] := by
  have path : ((assign "layout.build_dir".toList "out".toList none).perform
      nestedProject).1.toOption.map Prod.fst =
      some "/.solcheck/config.toml".toList := by decide +kernel
  obtain ⟨⟨_, v⟩, done, rfl⟩ := Option.map_eq_some_iff.mp path
  have done := eq_ok_of_toOption done
  obtain ⟨leads, -, -, project⟩ := assign_found nestedProject_searchable nestedProject_aside done
  refine ⟨nestedProject_searchable, nestedProject_aside, v, _, done, leads,
    project _ (by decide) fun inside => ?_⟩
  exact absurd (nestedProject_area inside) (by decide)

end ContractCheck.Settings
