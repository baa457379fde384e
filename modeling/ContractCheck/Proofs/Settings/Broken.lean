import ContractCheck.Proofs.Settings.Changed

/-! # Broken configuration files

The search for a configuration file looks at one directory after another on the way up.  A directory
holds a configuration file (`Holds`), is passed over (`PassedOver`), or breaks the search
(`Breaks`), so the search gives the file of the first directory that is not passed over, unless that
one breaks it (`findIn_first`).

A project file that the system refuses to read, or that is no TOML, is passed over, and a
configuration file of that kind is reported and counts as empty (`load_unread`).  Bytes that are no
text at all, and a number with too many digits, are found by the readers as well, but nobody handles
what they say then (`Garbled`).
-/
namespace ContractCheck

open ContractCheck.Action

namespace Settings

variable {fs : FileSystem} {cwd : Place} {directory path note : Text} {h : Host}

/-! ## Files -/

/-- The project file of a directory. -/
abbrev projectFileIn (directory : Text) : Text := Path.Posix.child directory projectFileName

/-- A path that the file system refuses to look at. -/
def TooLong (fs : FileSystem) (cwd : Place) (path : Text) : Prop :=
  fs.find cwd path = .error .nameTooLong

/-- A path at which nothing stands. -/
def Lacks (fs : FileSystem) (cwd : Place) (path : Text) : Prop :=
  fs.isThere cwd path = false ∧ ¬ TooLong fs cwd path

/-- A file that is TOML, with its fields. -/
def Parsed (fs : FileSystem) (cwd : Place) (path : Text) (fields : Fields) : Prop :=
  ∃ bytes, fs.read cwd path = .ok bytes ∧ Toml.readBytes bytes = .ok fields

/-- A file that cannot be read, or is no TOML, and the words for it. -/
inductive Unread (fs : FileSystem) (cwd : Place) (path : Text) : Text → Prop where
  | unreadable {e : FileError} (failed : fs.read cwd path = .error e)
      (system : e.fromSystem = true) :
      Unread fs cwd path ("Failed to read config file: ".toList ++ e.message path)
  | malformed {bytes : Bytes} (read : fs.read cwd path = .ok bytes)
      (broken : Toml.readBytes bytes = .error .malformed) :
      Unread fs cwd path "Failed to parse config file: not TOML".toList

/-- A file whose bytes are no text, or that is TOML but for a number with too many digits. -/
def Garbled (fs : FileSystem) (cwd : Place) (path : Text) : Prop :=
  ∃ bytes, fs.read cwd path = .ok bytes ∧
    (Toml.readBytes bytes = .error .notText ∨ Toml.readBytes bytes = .error .tooManyDigits)

theorem find_error_cases {e : FileError} (failed : fs.find cwd path = .error e) :
    e = .missing ∨ e = .notDirectory ∨ e = .unusablePath ∨ e = .nameTooLong := by
  have walked : ∀ {dir : Place} {names : List Text} {e : FileError}, fs.walk dir names = .error e →
      e = .missing ∨ e = .notDirectory ∨ e = .unusablePath ∨ e = .nameTooLong := by
    intro dir names
    fun_induction FileSystem.walk fs dir names <;> simp_all
  unfold FileSystem.find FileSystem.resolve at failed
  split at failed
  · cases failed
    simp
  · split at failed
    · cases failed
      simp
    · split at failed
      · cases failed
        simp
      · cases led : fs.walk (FileSystem.startOf cwd path) (Text.splitOn ['/'] path) with
        | error e' =>
          rw [led] at failed
          cases failed
          exact walked led
        | ok p =>
          rw [led] at failed
          dsimp only [bind, Except.bind] at failed
          split at failed
          · cases failed
          · cases failed
            simp

/-- What looking for a path comes to. -/
theorem isThere_cases (fs : FileSystem) (cwd : Place) (path : Text) :
    fs.isThere cwd path = true ∨ Lacks fs cwd path ∨ TooLong fs cwd path := by
  by_cases long : TooLong fs cwd path
  · exact .inr (.inr long)
  · cases there : fs.isThere cwd path
    · exact .inr (.inl ⟨there, long⟩)
    · exact .inl rfl

theorem isThere_there (there : h.files.isThere h.cwd path = true) :
    (isThere path).perform h = (.ok true, h) := by
  unfold isThere
  rw [perform_bind_ok (perform_get h)]
  unfold FileSystem.isThere at there
  cases found : h.files.find h.cwd path with
  | ok e => rfl
  | error e =>
    rw [found] at there
    cases there

theorem isThere_lacking (lacks : Lacks h.files h.cwd path) :
    (isThere path).perform h = (.ok false, h) := by
  obtain ⟨absent, short⟩ := lacks
  unfold isThere
  rw [perform_bind_ok (perform_get h)]
  unfold FileSystem.isThere at absent
  cases found : h.files.find h.cwd path with
  | ok e =>
    rw [found] at absent
    cases absent
  | error e =>
    rcases find_error_cases found with rfl | rfl | rfl | rfl
    · rfl
    · rfl
    · rfl
    · exact absurd found short

theorem isThere_tooLong (long : TooLong h.files h.cwd path) :
    (isThere path).perform h = (.error (.file .nameTooLong path), h) := by
  unfold isThere
  rw [perform_bind_ok (perform_get h), long]
  rfl

/-! ## Reading a file -/

theorem readToml_parsed {fields : Fields} (parsed : Parsed h.files h.cwd path fields) :
    (readToml path).perform h = (.ok (some fields), h) := by
  obtain ⟨bytes, read, toml⟩ := parsed
  unfold readToml
  rw [perform_bind_ok (readFile_ok read), toml]
  rfl

/-- What reading a garbled file comes to is not handled by anyone. -/
theorem readToml_garbled (garbled : Garbled h.files h.cwd path) :
    ∃ e, (readToml path).perform h = (.error e, h) ∧ e.fromSystem = false := by
  obtain ⟨bytes, read, none | long⟩ := garbled
  · refine ⟨.notText, ?_, rfl⟩
    unfold readToml
    rw [perform_bind_ok (readFile_ok read), none]
    rfl
  · refine ⟨.badValue "Exceeds the limit for integer string conversion".toList, ?_, rfl⟩
    unfold readToml
    rw [perform_bind_ok (readFile_ok read), long]
    rfl

/-- What reading an unread file comes to. -/
theorem readToml_unread (unread : Unread h.files h.cwd path note) :
    (∃ e, (readToml path).perform h = (.error (.file e path), h) ∧ e.fromSystem = true ∧
        note = "Failed to read config file: ".toList ++ e.message path) ∨
      (readToml path).perform h = (.ok none, h) ∧
      note = "Failed to parse config file: not TOML".toList := by
  cases unread with
  | @unreadable e failed system =>
    refine .inl ⟨e, ?_, system, rfl⟩
    unfold readToml
    rw [perform_bind_error (readFile_fails failed)]
  | malformed read broken =>
    refine .inr ⟨?_, rfl⟩
    unfold readToml
    rw [perform_bind_ok (readFile_ok read), broken]
    rfl

/-- A path without a zero character leads to a file that is TOML, or is unread, or is garbled. -/
theorem read_cases (usable : Path.Usable path) :
    (∃ fields, Parsed fs cwd path fields) ∨ (∃ note, Unread fs cwd path note) ∨
    Garbled fs cwd path := by
  cases read : fs.read cwd path with
  | error e =>
    exact .inr (.inl ⟨_, .unreadable read (FileSystem.read_fromSystem usable read)⟩)
  | ok bytes =>
    cases toml : Toml.readBytes bytes with
    | ok fields => exact .inl ⟨fields, bytes, read, toml⟩
    | error flaw =>
      cases flaw with
      | malformed => exact .inr (.inl ⟨_, .malformed read toml⟩)
      | tooManyDigits => exact .inr (.inr ⟨bytes, read, .inr toml⟩)
      | notText => exact .inr (.inr ⟨bytes, read, .inl toml⟩)

/-- A path at which something stands has no zero character. -/
theorem usable_of_there (there : fs.isThere cwd path = true) : Path.Usable path := by
  intro zero
  unfold FileSystem.isThere FileSystem.find FileSystem.resolve at there
  rw [if_pos (List.contains_iff_mem.mpr zero)] at there
  cases there

/-! ## One directory of the search -/

/-- Whether the fields of a project file tell of a configuration; `none` if their `tool` entry has
no parts. -/
def tells (fields : Fields) : Option Bool :=
  match Fields.get? fields "tool".toList with
  | none => some false
  | some v => holds Log.rootName v

/-- A directory that holds a configuration file. -/
inductive Holds (fs : FileSystem) (cwd : Place) (directory : Text) : Text → Prop where
  | own (there : fs.isThere cwd (fileIn directory) = true) :
    Holds fs cwd directory (fileIn directory)
  | project {fields : Fields} (lacks : Lacks fs cwd (fileIn directory))
      (there : fs.isThere cwd (projectFileIn directory) = true)
      (parsed : Parsed fs cwd (projectFileIn directory) fields)
      (configured : tells fields = some true) :
      Holds fs cwd directory (projectFileIn directory)

/-- A directory that is passed over: it has no project file, or one that is unread or tells of no
configuration. -/
inductive PassedOver (fs : FileSystem) (cwd : Place) (directory : Text) : Prop where
  | bare (lacks : Lacks fs cwd (fileIn directory)) (none : Lacks fs cwd (projectFileIn directory))
  | unread {note : Text} (lacks : Lacks fs cwd (fileIn directory))
      (there : fs.isThere cwd (projectFileIn directory) = true)
      (unread : Unread fs cwd (projectFileIn directory) note)
  | unconfigured {fields : Fields} (lacks : Lacks fs cwd (fileIn directory))
      (there : fs.isThere cwd (projectFileIn directory) = true)
      (parsed : Parsed fs cwd (projectFileIn directory) fields) (silent : tells fields = some false)

/-- Whether a directory has an unread project file, which a search tells the log. -/
def HasUnread (fs : FileSystem) (cwd : Place) (directory : Text) : Prop :=
  fs.isThere cwd (projectFileIn directory) = true ∧ ∃ note,
    Unread fs cwd (projectFileIn directory) note

/-- A directory that breaks the search: the system refuses to look at one of its two paths, or its
project file is garbled, or has a `tool` entry without parts. -/
inductive Breaks (fs : FileSystem) (cwd : Place) (directory : Text) : Prop where
  | ownTooLong (long : TooLong fs cwd (fileIn directory))
  | projectTooLong (lacks : Lacks fs cwd (fileIn directory))
    (long : TooLong fs cwd (projectFileIn directory))
  | garbled (lacks : Lacks fs cwd (fileIn directory))
      (there : fs.isThere cwd (projectFileIn directory) = true)
      (garbled : Garbled fs cwd (projectFileIn directory))
  | shapeless {fields : Fields} (lacks : Lacks fs cwd (fileIn directory))
      (there : fs.isThere cwd (projectFileIn directory) = true)
      (parsed : Parsed fs cwd (projectFileIn directory) fields) (shapeless : tells fields = none)

/-- A directory holds a configuration file, or is passed over, or breaks the search. -/
theorem directory_cases (fs : FileSystem) (cwd : Place) (directory : Text) :
    (∃ p, Holds fs cwd directory p) ∨ PassedOver fs cwd directory ∨ Breaks fs cwd directory := by
  rcases isThere_cases fs cwd (fileIn directory) with own | lacks | long
  · exact .inl ⟨_, .own own⟩
  · rcases isThere_cases fs cwd (projectFileIn directory) with there | none | long
    · rcases read_cases (usable_of_there there) with ⟨fields, parsed⟩ | ⟨note, unread⟩ | garbled
      · cases told : tells fields with
        | none => exact .inr (.inr (.shapeless lacks there parsed told))
        | some b =>
          cases b with
          | true => exact .inl ⟨_, .project lacks there parsed told⟩
          | false => exact .inr (.inl (.unconfigured lacks there parsed told))
      · exact .inr (.inl (.unread lacks there unread))
      · exact .inr (.inr (.garbled lacks there garbled))
    · exact .inr (.inl (.bare lacks none))
    · exact .inr (.inr (.projectTooLong lacks long))
  · exact .inr (.inr (.ownTooLong long))

theorem hasConfiguration_told {fields : Fields} {b : Bool} (told : tells fields = some b) :
    (hasConfiguration fields).perform h = (.ok b, h) := by
  unfold tells at told
  unfold hasConfiguration
  cases tool : Fields.get? fields "tool".toList with
  | none =>
    rw [tool] at told
    cases told
    rfl
  | some v =>
    rw [tool] at told
    dsimp only at told ⊢
    rw [told]
    rfl

theorem hasConfiguration_shapeless {fields : Fields} (shapeless : tells fields = none) :
    ∃ e, (hasConfiguration fields).perform h = (.error e, h) ∧ e.fromSystem = false := by
  unfold tells at shapeless
  unfold hasConfiguration
  cases tool : Fields.get? fields "tool".toList with
  | none =>
    rw [tool] at shapeless
    cases shapeless
  | some v =>
    rw [tool] at shapeless
    dsimp only at shapeless ⊢
    rw [shapeless]
    exact ⟨_, rfl, rfl⟩

/-- A project file that is TOML is the configuration file if it tells of a configuration. -/
theorem isConfiguration_told {fields : Fields} {b : Bool}
    (there : h.files.isThere h.cwd path = true) (parsed : Parsed h.files h.cwd path fields)
    (told : tells fields = some b) :
    (isConfiguration path).perform h = (.ok b, h) := by
  unfold isConfiguration
  rw [perform_bind_ok (isThere_there there), if_pos rfl]
  exact perform_orSystem_ok ((perform_bind_ok (readToml_parsed parsed)).trans
    (hasConfiguration_told told))

/-- A project file that is unread is no configuration file; it leaves a note in the log. -/
theorem isConfiguration_unread {after : Host → Prop}
    (logs : ∀ message, ∃ h', (Log.debug owner message).perform h = (.ok ⟨⟩, h') ∧ after h')
    (there : h.files.isThere h.cwd path = true) (unread : Unread h.files h.cwd path note) :
    ∃ h', (isConfiguration path).perform h = (.ok false, h') ∧ after h' := by
  unfold isConfiguration
  rw [perform_bind_ok (isThere_there there), if_pos rfl]
  rcases readToml_unread unread with ⟨e, failed, system, -⟩ | ⟨malformed, -⟩
  · obtain ⟨h', logged, kept⟩ :=
      logs ("Failed to read pyproject.toml at ".toList ++ path ++ ": ".toList ++
      Fault.message (.file e path))
    exact ⟨h', (perform_orSystem_handled (perform_bind_error failed) system).trans
      (perform_bind_ok logged), kept⟩
  · obtain ⟨h', logged, kept⟩ :=
      logs ("Failed to parse pyproject.toml at ".toList ++ path ++ ": not TOML".toList)
    exact ⟨h', perform_orSystem_ok ((perform_bind_ok malformed).trans (perform_bind_ok logged)),
      kept⟩

/-- In a directory that holds a configuration file the search ends, without a trace. -/
theorem findIn_holds {directory : Text} (rest : List Text)
    (holds : Holds h.files h.cwd directory path) :
    (findIn (directory :: rest)).perform h = (.ok (some path), h) := by
  rw [findIn]
  cases holds with
  | own there =>
    rw [perform_bind_ok (isThere_there there)]
    rfl
  | project lacks there parsed configured =>
    rw [perform_bind_ok (isThere_lacking lacks)]
    dsimp only
    rw [if_neg Bool.false_ne_true, perform_bind_ok (isConfiguration_told there parsed configured)]
    rfl

/-- A directory that is passed over leaves nothing but a note in the log, if its project file is
unread. -/
theorem findIn_passedOver {directory : Text} {after : Host → Prop} (rest : List Text)
    (still : after h)
    (logs : HasUnread h.files h.cwd directory →
      ∀ message, ∃ h', (Log.debug owner message).perform h = (.ok ⟨⟩, h') ∧ after h')
    (passed : PassedOver h.files h.cwd directory) :
    ∃ h', (findIn (directory :: rest)).perform h = (findIn rest).perform h' ∧ after h' := by
  have looked : ∃ h', (isConfiguration (projectFileIn directory)).perform h = (.ok false, h') ∧
      after h' := by
    cases passed with
    | bare _ none =>
      refine ⟨h, ?_, still⟩
      unfold isConfiguration
      rw [perform_bind_ok (isThere_lacking none)]
      rfl
    | unread _ there unread => exact isConfiguration_unread (logs ⟨there, _, unread⟩) there unread
    | unconfigured _ there parsed silent =>
      exact ⟨h, isConfiguration_told there parsed silent, still⟩
  have lacks : Lacks h.files h.cwd (fileIn directory) := by
    cases passed <;> assumption
  obtain ⟨h', silent, kept⟩ := looked
  refine ⟨h', ?_, kept⟩
  rw [findIn, perform_bind_ok (isThere_lacking lacks)]
  dsimp only
  rw [if_neg Bool.false_ne_true, perform_bind_ok silent]
  rfl

/-- A directory that breaks the search ends it with a fault. -/
theorem findIn_breaks {directory : Text} (rest : List Text)
    (breaks : Breaks h.files h.cwd directory) :
    ∃ e, (findIn (directory :: rest)).perform h = (.error e, h) := by
  have looked (lacks : Lacks h.files h.cwd (fileIn directory))
      (failed : ∃ e, (isConfiguration (projectFileIn directory)).perform h = (.error e, h)) :
      ∃ e, (findIn (directory :: rest)).perform h = (.error e, h) := by
    obtain ⟨e, failed⟩ := failed
    refine ⟨e, ?_⟩
    rw [findIn, perform_bind_ok (isThere_lacking lacks)]
    dsimp only
    rw [if_neg Bool.false_ne_true, perform_bind_error failed]
  cases breaks with
  | ownTooLong long => exact ⟨_, by rw [findIn, perform_bind_error (isThere_tooLong long)]⟩
  | projectTooLong lacks long =>
    refine looked lacks ⟨.file .nameTooLong (projectFileIn directory), ?_⟩
    unfold isConfiguration
    rw [perform_bind_error (isThere_tooLong long)]
  | garbled lacks there garbled =>
    obtain ⟨e, failed, foreign⟩ := readToml_garbled garbled
    refine looked lacks ⟨e, ?_⟩
    unfold isConfiguration
    rw [perform_bind_ok (isThere_there there), if_pos rfl]
    exact perform_orSystem_foreign (perform_bind_error failed) foreign
  | shapeless lacks there parsed shapeless =>
    obtain ⟨e, failed, foreign⟩ := hasConfiguration_shapeless shapeless
    refine looked lacks ⟨e, ?_⟩
    unfold isConfiguration
    rw [perform_bind_ok (isThere_there there), if_pos rfl]
    exact perform_orSystem_foreign ((perform_bind_ok (readToml_parsed parsed)).trans failed) foreign

/-! ## The way up -/

/-- Whether the first of some directories that is not passed over is of a kind. -/
def First (fs : FileSystem) (cwd : Place) (kind : Text → Prop) (directories : List Text) : Prop :=
  ∃ passed directory rest, directories = passed ++ directory :: rest ∧
    (∀ d ∈ passed, PassedOver fs cwd d) ∧
    kind directory

theorem findIn_append (rest : List Text) {passed : List Text} (unfiled : h.Unfiled)
    (passes : ∀ d ∈ passed, PassedOver h.files h.cwd d) :
    ∃ h', (findIn (passed ++ rest)).perform h = (findIn rest).perform h' ∧ h.Calm h' := by
  induction passed generalizing h with
  | nil => exact ⟨h, rfl, .refl unfiled⟩
  | cons directory passed ih =>
    obtain ⟨first, others⟩ := List.forall_mem_cons.mp passes
    obtain ⟨h₁, here, calm⟩ := findIn_passedOver (passed ++ rest) (.refl unfiled)
      (fun _ message => Log.write_calm .debug owner.toList message [] unfiled) first
    rw [← calm.files, ← calm.cwd] at others
    obtain ⟨h₂, onward, calm'⟩ := ih calm.unfiled others
    exact ⟨h₂, here.trans onward, calm.trans calm'⟩

theorem findIn_first_holds {directories : List Text} (unfiled : h.Unfiled)
    (first : First h.files h.cwd (Holds h.files h.cwd · path) directories) :
    ((findIn directories).perform h).1 = .ok (some path) := by
  obtain ⟨passed, directory, rest, rfl, passes, holds⟩ := first
  obtain ⟨h', onward, calm⟩ := findIn_append (directory :: rest) unfiled passes
  rw [← calm.files, ← calm.cwd] at holds
  rw [onward, findIn_holds rest holds]

theorem findIn_all_passed {directories : List Text} (unfiled : h.Unfiled)
    (passes : ∀ d ∈ directories, PassedOver h.files h.cwd d) :
    ((findIn directories).perform h).1 = .ok none := by
  obtain ⟨h', onward, -⟩ := findIn_append [] unfiled passes
  rw [List.append_nil] at onward
  rw [onward]
  rfl

theorem findIn_first_breaks {directories : List Text} (unfiled : h.Unfiled)
    (first : First h.files h.cwd (Breaks h.files h.cwd) directories) :
    ∃ e, ((findIn directories).perform h).1 = .error e := by
  obtain ⟨passed, directory, rest, rfl, passes, breaks⟩ := first
  obtain ⟨h', onward, calm⟩ := findIn_append (directory :: rest) unfiled passes
  rw [← calm.files, ← calm.cwd] at breaks
  obtain ⟨e, failed⟩ := findIn_breaks rest breaks
  exact ⟨e, by rw [onward, failed]⟩

theorem first_cases (fs : FileSystem) (cwd : Place) (directories : List Text) :
    (∃ p, First fs cwd (Holds fs cwd · p) directories) ∨ (∀ d ∈ directories, PassedOver fs cwd d) ∨
      First fs cwd (Breaks fs cwd) directories := by
  induction directories with
  | nil => exact .inr (.inl nofun)
  | cons directory rest ih =>
    rcases directory_cases fs cwd directory with ⟨p, holds⟩ | passes | breaks
    · exact .inl ⟨p, [], directory, rest, rfl, nofun, holds⟩
    · have later {kind : Text → Prop} (first : First fs cwd kind rest) :
          First fs cwd kind (directory :: rest) := by
        obtain ⟨passed, d, last, rfl, others, kind⟩ := first
        exact ⟨directory :: passed, d, last, rfl, List.forall_mem_cons.mpr ⟨passes, others⟩, kind⟩
      rcases ih with ⟨p, first⟩ | others | first
      · exact .inl ⟨p, later first⟩
      · exact .inr (.inl (List.forall_mem_cons.mpr ⟨passes, others⟩))
      · exact .inr (.inr (later first))
    · exact .inr (.inr ⟨[], directory, rest, rfl, nofun, breaks⟩)

/-- What a search comes to is what its first directory that is not passed over is. -/
theorem findIn_first (directories : List Text) (unfiled : h.Unfiled) :
    (∀ p, ((findIn directories).perform h).1 = .ok (some p) ↔
      First h.files h.cwd (Holds h.files h.cwd · p) directories) ∧
    (((findIn directories).perform h).1 = .ok none ↔ ∀ d ∈ directories,
      PassedOver h.files h.cwd d) ∧
    ((∃ e, ((findIn directories).perform h).1 = .error e) ↔
      First h.files h.cwd (Breaks h.files h.cwd) directories) := by
  -- One of the three holds, and each comes to another outcome.
  rcases first_cases h.files h.cwd directories with ⟨p, first⟩ | passes | first
  · have found := findIn_first_holds unfiled first
    refine ⟨fun q => ⟨fun found' => ?_, findIn_first_holds unfiled⟩,
      ⟨fun none => ?_, findIn_all_passed unfiled⟩,
      ⟨fun ⟨e, failed⟩ => ?_, findIn_first_breaks unfiled⟩⟩
    · obtain rfl := Option.some.inj (Except.ok.inj (found.symm.trans found'))
      exact first
    · cases found.symm.trans none
    · cases found.symm.trans failed
  · have none := findIn_all_passed unfiled passes
    refine ⟨fun q => ⟨fun found => ?_, findIn_first_holds unfiled⟩,
      ⟨fun _ => passes, findIn_all_passed unfiled⟩,
      ⟨fun ⟨e, failed⟩ => ?_, findIn_first_breaks unfiled⟩⟩
    · cases none.symm.trans found
    · cases none.symm.trans failed
  · obtain ⟨e, failed⟩ := findIn_first_breaks unfiled first
    refine ⟨fun q => ⟨fun found => ?_, findIn_first_holds unfiled⟩,
      ⟨fun none => ?_, findIn_all_passed unfiled⟩,
      ⟨fun _ => first, findIn_first_breaks unfiled⟩⟩
    · cases failed.symm.trans found
    · cases failed.symm.trans none

/-- At most one file is held by the first directory that is not passed over, and it is held only if
there is such a directory. -/
theorem First.determined {directories : List Text}
    (first : First fs cwd (Holds fs cwd · path) directories) :
    (∀ p, First fs cwd (Holds fs cwd · p) directories → p = path) ∧ ¬ ∀ d ∈ directories,
    PassedOver fs cwd d := by
  let plain : Host := { files := fs, cwd }
  have found := findIn_first_holds (h := plain) trivial first
  refine ⟨fun p first' => ?_, fun passes => ?_⟩
  · have found' := findIn_first_holds (h := plain) trivial first'
    exact Option.some.inj (Except.ok.inj (found'.symm.trans found))
  · cases found.symm.trans (findIn_all_passed (h := plain) trivial passes)

/-! ## Loading -/

/-- An unread file gives nothing but the note about it. -/
theorem readLayer_unread (unfiled : h.Unfiled) (unread : Unread h.files h.cwd path note) :
    ∃ h', (readLayer path).perform h = (.ok { error := some (.text note) }, h') ∧ h.Calm h' := by
  rcases readToml_unread unread with ⟨e, failed, system, rfl⟩ | ⟨malformed, rfl⟩
  · obtain ⟨h', logged, calm⟩ := Log.write_calm .warning owner
      ("Failed to read config file ".toList ++ path ++ ": ".toList ++ Fault.message (.file e path))
      [] unfiled
    exact ⟨h', (perform_orSystem_handled (perform_bind_error failed) system).trans
      (perform_bind_ok logged), calm⟩
  · obtain ⟨h', logged, calm⟩ := Log.write_calm .warning owner
      ("Failed to parse config file ".toList ++ path ++ ": not TOML".toList) [] unfiled
    exact ⟨h', perform_orSystem_ok ((perform_bind_ok malformed).trans (perform_bind_ok logged)),
      calm⟩

theorem readLayer_garbled (garbled : Garbled h.files h.cwd path) :
    ∃ e, (readLayer path).perform h = (.error e, h) := by
  obtain ⟨e, failed, foreign⟩ := readToml_garbled garbled
  exact ⟨e, perform_orSystem_foreign (perform_bind_error failed) foreign⟩

/-- A project file whose `tool` entry is no table, or has a configuration that is none. -/
def Misshapen (fs : FileSystem) (cwd : Place) (path : Text) : Prop :=
  Path.Posix.leaf path = projectFileName ∧ ∃ fields tool, Parsed fs cwd path fields ∧
    Fields.get? fields "tool".toList = some tool ∧
      ∀ entries, tool = .table entries → ∃ v, Fields.get? entries Log.rootName = some v ∧
        ∀ part, v ≠ .table part

theorem readLayer_misshapen (misshapen : Misshapen h.files h.cwd path) :
    ∃ e, (readLayer path).perform h = (.error e, h) := by
  obtain ⟨project, fields, tool, parsed, told, shape⟩ := misshapen
  -- The part that is taken fails at once, or it is no table.
  have part : (∃ what, (configurationPart path fields).perform h = (.error (.noSuchPart what), h)) ∨
      ∃ v, (configurationPart path fields).perform h = (.ok v, h) ∧ ∀ part, v ≠ .table part := by
    unfold configurationPart
    rw [if_pos project, told, Option.getD_some]
    cases tool with
    | table entries =>
      obtain ⟨v, told, none⟩ := shape entries rfl
      refine .inr ⟨v, ?_, none⟩
      dsimp only
      rw [told]
      rfl
    | _ => exact .inl ⟨_, rfl⟩
  unfold readLayer
  rcases part with ⟨what, failed⟩ | ⟨v, taken, none⟩
  · refine ⟨_, perform_orSystem_foreign
      ((perform_bind_ok (readToml_parsed parsed)).trans (perform_bind_error failed)) rfl⟩
  · refine ⟨.wrongShape "the configuration is no table".toList,
      perform_orSystem_foreign ((perform_bind_ok (readToml_parsed parsed)).trans
        ((perform_bind_ok taken).trans ?_)) rfl⟩
    cases v with
    | table part => exact absurd rfl (none part)
    | _ => rfl

/-- Whether a file is the one that settings are loaded from: the one named, or the one that is
found. -/
def InForce (h : Host) (named start : Option Text) (path : Text) : Prop :=
  match named with
  | some p => path = Path.Posix.tidy p
  | none => First h.files h.cwd (Holds h.files h.cwd · path) (Path.Posix.lineage (baseOf start h))

variable {named start : Option Text}

theorem InForce.calm {h' : Host} (inForce : InForce h named start path) (calm : h.Calm h') :
    InForce h' named start path := by
  cases named with
  | some p => exact inForce
  | none =>
    have base : baseOf start h' = baseOf start h := by
      unfold baseOf
      rw [calm.directory]
    unfold InForce
    rw [base, calm.files, calm.cwd]
    exact inForce

/-- The layer of the file in force is what reading that file gives. -/
theorem layer_inForce (unfiled : h.Unfiled) (inForce : InForce h named start path) :
    ∃ h', (layer named start).perform h = (readLayer path).perform h' ∧ h.Calm h' := by
  cases named with
  | some p =>
    obtain rfl : path = Path.Posix.tidy p := inForce
    exact ⟨h, rfl, .refl unfiled⟩
  | none =>
    have found := findIn_first_holds unfiled inForce
    rw [← find_perform] at found
    have calm := (find_agrees start (P := fun _ => False) (fun _ => id) h h
      (twins_refl unfiled)).2.1
    refine ⟨_, ?_, calm⟩
    rw [layer_none]
    exact perform_bind_ok (Prod.ext found rfl)

theorem layer_unread (unfiled : h.Unfiled) (inForce : InForce h named start path)
    (unread : Unread h.files h.cwd path note) :
    ∃ h', (layer named start).perform h = (.ok { error := some (.text note) }, h') ∧ h.Calm h' := by
  obtain ⟨h₁, same, calm⟩ := layer_inForce unfiled inForce
  rw [← calm.files, ← calm.cwd] at unread
  obtain ⟨h₂, read, calm'⟩ := readLayer_unread calm.unfiled unread
  exact ⟨h₂, same.trans read, calm.trans calm'⟩

/-- Where there are no files, there is no layer. -/
theorem layer_bare (unfiled : h.Unfiled) (files : h.files = {}) (root : h.cwd = []) :
    ∃ h', (layer none none).perform h = (.ok {}, h') ∧ h.Calm h' := by
  have up : Path.Posix.lineage (baseOf none h) = [['/']] := by
    unfold baseOf Host.directory
    rw [root]
    rfl
  have lacks (path : Text) (missing : FileSystem.find {} [] path = .error .missing) :
      Lacks h.files h.cwd path := by
    unfold Lacks TooLong FileSystem.isThere
    rw [files, root, missing]
    exact ⟨rfl, nofun⟩
  have passes : ∀ d ∈ Path.Posix.lineage (baseOf none h), PassedOver h.files h.cwd d := by
    rw [up]
    exact List.forall_mem_singleton.mpr (.bare (lacks _ (by decide)) (lacks _ (by decide)))
  have none := findIn_all_passed unfiled passes
  rw [← find_perform] at none
  have calm := (find_agrees Option.none (P := fun _ => False) (fun _ => id) h h
    (twins_refl unfiled)).2.1
  refine ⟨_, ?_, calm⟩
  rw [layer_none]
  exact perform_bind_ok (Prod.ext none rfl)

/-- If the file in force is unread, the settings are those of the environment alone, with the note
about the file. -/
theorem load_unread (unfiled : h.Unfiled) (inForce : InForce h named start path)
    (unread : Unread h.files h.cwd path note) :
    ((load named start).perform h).1 =
      ((load none none).perform { environment := h.environment }).1.map
      fun loaded => { loaded with error := some (.text note) } := by
  obtain ⟨h₁, first, calm⟩ := layer_unread unfiled inForce unread
  have unread' := unread
  rw [← calm.files, ← calm.cwd] at unread'
  obtain ⟨h₂, second, -⟩ := layer_unread calm.unfiled (inForce.calm calm) unread'
  obtain ⟨g₁, first', calm'⟩ := @layer_bare { environment := h.environment } trivial rfl rfl
  obtain ⟨g₂, second', -⟩ := layer_bare calm'.unfiled calm'.files calm'.cwd
  unfold load
  rw [perform_bind_ok (perform_get h), perform_bind_ok (perform_get _)]
  dsimp only
  cases fromEnvironment? h.environment with
  | none => rfl
  | some upper =>
    dsimp only
    rw [perform_bind_ok first, perform_bind_ok first']
    dsimp only
    cases Config.read (.table (overlay [] upper)) with
    | invalid issues => rfl
    | valid config =>
      dsimp only
      rw [perform_bind_ok second, perform_bind_ok second']
      rfl

/-- If the file in force is garbled or misshapen, nothing is loaded. -/
theorem load_garbled (unfiled : h.Unfiled) (inForce : InForce h named start path)
    (broken : Garbled h.files h.cwd path ∨ Misshapen h.files h.cwd path) :
    ∃ e, ((load named start).perform h).1 = .error e := by
  obtain ⟨h₁, same, calm⟩ := layer_inForce unfiled inForce
  have failed : ∃ e, (readLayer path).perform h₁ = (.error e, h₁) := by
    rw [← calm.files, ← calm.cwd] at broken
    exact broken.elim readLayer_garbled readLayer_misshapen
  obtain ⟨e, failed⟩ := failed
  unfold load
  rw [perform_bind_ok (perform_get h)]
  cases fromEnvironment? h.environment with
  | none => exact ⟨_, rfl⟩
  | some upper =>
    dsimp only
    rw [perform_bind_error (same.trans failed)]
    exact ⟨e, rfl⟩

/-- **What broken configuration files come to.**  The search passes over the directories without a
configuration file and those whose project file cannot be read or is no TOML, gives the file of the
first other directory, and fails exactly if that directory breaks it.  If the file in force cannot
be read or is no TOML, the settings are those of the environment alone, with a note; a file that is
garbled or misshapen instead makes the load fail, and any file that is neither unread nor garbled is
TOML. -/
theorem broken_files_handled (unfiled : h.Unfiled) (named start : Option Text) :
    (∀ p, ((find start).perform h).1 = .ok (some p) ↔
      First h.files h.cwd (Holds h.files h.cwd · p) (Path.Posix.lineage (baseOf start h))) ∧
    (((find start).perform h).1 = .ok none ↔
      ∀ d ∈ Path.Posix.lineage (baseOf start h), PassedOver h.files h.cwd d) ∧
    ((∃ e, ((find start).perform h).1 = .error e) ↔
      First h.files h.cwd (Breaks h.files h.cwd) (Path.Posix.lineage (baseOf start h))) ∧
    ∀ p, InForce h named start p →
      (∀ note, Unread h.files h.cwd p note →
        ((load named start).perform h).1 =
          ((load none none).perform { environment := h.environment }).1.map
          fun loaded => { loaded with error := some (.text note) }) ∧
      (Garbled h.files h.cwd p ∨ Misshapen h.files h.cwd p →
        ∃ e, ((load named start).perform h).1 = .error e) ∧
      (Path.Usable p → (∃ fields, Parsed h.files h.cwd p fields) ∨
        (∃ note, Unread h.files h.cwd p note) ∨ Garbled h.files h.cwd p) := by
  rw [find_perform]
  obtain ⟨found, none, failed⟩ := findIn_first (Path.Posix.lineage (baseOf start h)) unfiled
  exact ⟨found, none, failed, fun p inForce => ⟨fun _ unread => load_unread unfiled inForce unread,
    load_garbled unfiled inForce, read_cases⟩⟩

/-- A directory in place of the configuration file, above a project whose own file is no TOML. -/
def misplacedConfig : Host where
  files := { entries := [
    ([directoryName], .directory),
    ([directoryName, fileName], .directory),
    (["p".toList], .directory),
    (["p".toList, projectFileName], .file (Utf8.encode "[tool.solcheck".toList) .plain)] }
  cwd := ["p".toList]

/-- The project's own file is passed over, and the directory above it is reported. -/
theorem misplacedConfig_reported :
    First misplacedConfig.files misplacedConfig.cwd
      (Holds misplacedConfig.files misplacedConfig.cwd · "/.solcheck/config.toml".toList)
      (Path.Posix.lineage "/p".toList) ∧
    ((load none none).perform misplacedConfig).1 = .ok
      { config := {}
        error := some (.text
          "Failed to read config file: [Errno 21] Is a directory: '/.solcheck/config.toml'".toList)
      } := by
  obtain ⟨found, -, -, reported⟩ := @broken_files_handled misplacedConfig trivial none none
  have first := (found "/.solcheck/config.toml".toList).mp rfl
  refine ⟨first, ?_⟩
  have alone : ((load none none).perform { environment := misplacedConfig.environment }).1 =
    .ok { config := {} } := rfl
  rw [(reported _ first).1 _ (.unreadable (e := .isDirectory) rfl rfl), alone]
  rfl

/-- A project whose file is a single byte that begins no character. -/
def unreadableProject : Host :=
  { files := { entries := [([projectFileName], .file [255] .plain)] } }

/-- Its search fails, and so does its load. -/
theorem unreadableProject_breaks :
    ((find none).perform unreadableProject).1 = .error .notText ∧
    ((load none none).perform unreadableProject).1 = .error .notText ∧
    ((load (some "/pyproject.toml".toList) none).perform unreadableProject).1 = .error .notText :=
  ⟨rfl, rfl, rfl⟩

end Settings
end ContractCheck
