import ContractCheck.Proofs.Toolchain.Fetching

/-! # Installations that fail

Making sure of a component reads the note of its version, the index of versions and an archive,
writes the program, asks it for its version, and writes the note.  What can go wrong in these steps
is a failure to install, but for what `Component.Flawed` lists, which nobody handles
(`Component.ensure_clean_iff`).  As long as no archive was unpacked no file is touched but the log.
-/
namespace ContractCheck

open ContractCheck.Action
open ContractCheck.Path (Usable)

namespace Component

variable {h h' : Host} {c : Component} {version : Text}

/-! ## The program and its note -/

theorem makeExecutable_fromSystem {fs : FileSystem} {cwd : Place} {path : Text} {e : FileError}
    (usable : Usable path)
    (failed : fs.makeExecutable cwd path = .error e) : e.fromSystem = true := by
  unfold FileSystem.makeExecutable at failed
  cases found : fs.find cwd path with
  | error e' =>
    rw [found] at failed
    cases failed
    exact FileSystem.find_fromSystem usable found
  | ok f =>
    rw [found] at failed
    obtain ⟨p, _ | ⟨content, x⟩⟩ := f <;> cases failed

theorem perform_change_cases {f : FileSystem → Place → Text → Except FileError FileSystem}
    (path : Text) (system : ∀ e, f h.files h.cwd path = .error e → e.fromSystem = true) :
    (∃ h', (change f path).perform h = (.ok ⟨⟩, h')) ∨
      ∃ e h', (change f path).perform h = (.error e, h') ∧ e.fromSystem = true := by
  rw [perform_change]
  cases outcome : f h.files h.cwd path with
  | ok fs => exact .inl ⟨_, rfl⟩
  | error e => exact .inr ⟨.file e path, h, rfl, system e outcome⟩

/-- The program is written, or the system refuses it. -/
theorem place_cases (usable : Usable c.path) (bytes : Bytes) (h : Host) :
    (∃ h', (c.place bytes).perform h = (.ok ⟨⟩, h')) ∨
      ∃ e h', (c.place bytes).perform h = (.error e, h') ∧ e.fromSystem = true := by
  unfold place
  cases made : (h.files.makeDirectories h.cwd (Path.Posix.parent c.path)).2 with
  | some e =>
    have failed := perform_makeDirectories (Path.Posix.parent c.path) h
    rw [made] at failed
    exact .inr ⟨_, _, perform_bind_error failed,
      FileSystem.makeDirectories_fromSystem usable.parent made⟩
  | none =>
    have done := perform_makeDirectories (Path.Posix.parent c.path) h
    rw [made] at done
    rw [perform_bind_ok done]
    rcases perform_change_cases (f := fun fs cwd p => fs.write cwd p bytes) c.path
      (h := { h with files := (h.files.makeDirectories h.cwd (Path.Posix.parent c.path)).1 })
      (fun e failed => FileSystem.update_fromSystem usable failed) with
      ⟨h₁, wrote⟩ | ⟨e, h₁, failed, system⟩
    · have wrote : (writeFile c.path bytes).perform _ = (.ok ⟨⟩, h₁) := wrote
      rw [perform_bind_ok wrote]
      split
      · exact perform_change_cases _ fun e failed => makeExecutable_fromSystem usable failed
      · exact .inl ⟨h₁, rfl⟩
    · have failed : (writeFile c.path bytes).perform _ = (.error e, h₁) := failed
      exact .inr ⟨e, h₁, perform_bind_error failed, system⟩

/-- What a run of the program comes to that was started: what it wrote, or a failure that tells
it. -/
theorem conclude_total (c : Component) (command : Text) (finished : Finished) (ready : h.LogReady) :
    ∃ h', (c.conclude .silent command finished).perform h =
      (.ok (Utf8.readLenient finished.output), h') ∨
      ∃ facts message, (c.conclude .silent command finished).perform h =
        (.error (runFailure message facts), h') := by
  have presented : (Terminal.silent.present (Utf8.readLenient finished.output)
      (Utf8.readLenient finished.errors)).perform h = (.ok ⟨⟩, h) := by
    unfold Terminal.present
    cases (Utf8.readLenient finished.output).isEmpty <;> cases
      (Utf8.readLenient finished.errors).isEmpty <;> rfl
  obtain ⟨h', logged, -⟩ :=
    Log.debug_logged c.owner ("Exited with code ".toList ++ Text.ofInt finished.status)
    [("component".toList, .text c.name)] h ready
  refine ⟨h', ?_⟩
  unfold conclude
  rw [perform_bind_ok presented, perform_bind_ok logged]
  split
  · exact .inl rfl
  · exact .inr ⟨_, _, rfl⟩

/-- A program that is there and can be started always tells something. -/
theorem resolveVersion_total (ready : h.LogReady) (starts : h.Starts c.asking)
    (there : h.files.isThere h.cwd c.path = true) (version : Text) :
    ∃ resolved h', (c.resolveVersion version).perform h = (.ok resolved, h') := by
  have found : c.isInstalled.perform h = (.ok (h.files.isThere h.cwd c.path), h) := rfl
  obtain ⟨h₁, logged, records⟩ := Log.debug_logged c.owner ("Running ".toList ++ c.path ++ [' '] ++
    (Value.list (["--version".toList].map .text)).display ++ " in ".toList ++ c.home) [] h ready
  have started : (c.run .silent c.home ["--version".toList]).perform h =
      (c.settle .silent (Text.join [' '] [c.path, "--version".toList])
        (h₁.outcome { invocation := c.asking, files := h₁.files })).perform (h₁.ran c.asking) := by
    unfold Component.run
    dsimp only
    rw [perform_bind_ok found, there, if_neg (show ¬ (!true) = true by decide),
      perform_bind_ok logged,
      perform_bind_ok (perform_runTool _ h₁)]
    rfl
  -- Whatever the run comes to, it is an output, or a failure that stands for one.
  have ran : ∃ h₂, (∃ out, (c.run .silent c.home ["--version".toList]).perform h = (.ok out, h₂)) ∨
      ∃ facts message, (c.run .silent c.home ["--version".toList]).perform h
        = (.error (runFailure message facts), h₂) := by
    rw [started]
    cases outcome : h₁.outcome { invocation := c.asking, files := h₁.files } with
    | error e =>
      have system := records.shows.starts starts _ e outcome
      rw [settle, if_pos system]
      exact ⟨_, .inr ⟨_, _, rfl⟩⟩
    | ok finished =>
      have ready' : (h₁.ran c.asking).LogReady := records.shows.ready ready
      obtain ⟨h₂, done | failed⟩ :=
        c.conclude_total (Text.join [' '] [c.path, "--version".toList]) finished ready'
      · exact ⟨h₂, .inl ⟨_, done⟩⟩
      · exact ⟨h₂, .inr failed⟩
  unfold resolveVersion
  split
  · exact ⟨version, h, rfl⟩
  · obtain ⟨h₂, ⟨out, done⟩ | ⟨facts, message, failed⟩⟩ := ran
    · rw [perform_bind, perform_tryCatch, done, orElse]
      exact ⟨_, _, rfl⟩
    · obtain ⟨f, same, kind⟩ := runFailure_toolRun message facts
      rw [perform_bind, perform_tryCatch, failed, same, orElse]
      dsimp only
      rw [if_pos kind]
      exact ⟨_, _, rfl⟩

/-! ## An installation -/

/-- A host after an announcement: nothing but what was said and what was logged. -/
structure Announced (h h' : Host) : Prop where
  ready : h'.LogReady
  starts : ∀ i, h.Starts i → h'.Starts i
  files : h.files.AlikeBut h.AtLog (fun _ => h.LogPlanned) h'.files

/-- Whether the outputs of the program do not take the message about a version. -/
def Unsayable (t : Terminal) (chosen : Points) : Prop := t = .echoing ∧ chosen.text? = none

instance (t : Terminal) (chosen : Points) : Decidable (Unsayable t chosen) :=
  inferInstanceAs (Decidable (t = .echoing ∧ chosen.text? = none))

theorem announce_done (ready : h.LogReady) (c : Component) {t : Terminal} {chosen : Points}
    (sayable : ¬ Unsayable t chosen) :
    ∃ h', (c.announce t chosen).perform h = (.ok ⟨⟩, h') ∧ Announced h h' := by
  have said (message : Text) : ∃ texts out,
      (t.log message).perform h = (.ok ⟨⟩, { h with transcript := texts, printed := out }) := by
    cases t with
    | silent => exact ⟨h.transcript, h.printed, rfl⟩
    | keeping => exact ⟨_, h.printed, rfl⟩
    | echoing => exact ⟨h.transcript, _, rfl⟩
  obtain ⟨texts, out, said⟩ :=
    said ("Downloading ".toList ++ c.name ++ [' '] ++ chosen.shown ++ " from ".toList ++
    (c.archiveAddress chosen).shown)
  have after {h' : Host} (records : Host.Logged { h with transcript := texts, printed := out } h') :
      Announced h h' :=
    ⟨records.shows.ready ready, fun i => records.shows.starts, records.files⟩
  unfold announce
  dsimp only
  split
  · next v _ =>
    obtain ⟨h', logged, records⟩ :=
      Log.write_logged .info c.owner.toList ("Installing ".toList ++ v)
      [("component".toList, .text c.name), ("url".toList, .text (c.archiveAddress chosen).shown)]
      { h with transcript := texts, printed := out } ready
    exact ⟨h', (perform_bind_ok said).trans logged, after records⟩
  · next halved =>
    rw [if_neg fun echoes => sayable ⟨echoes, halved⟩]
    obtain ⟨h', opened, records⟩ := Log.open_logged
      { h with transcript := texts, printed := out } ready
    exact ⟨h', (perform_bind_ok said).trans opened, after records⟩

theorem announce_unsayable {t : Terminal} {chosen : Points} (unsayable : Unsayable t chosen)
    (h : Host) :
    (c.announce t chosen).perform h = (.error .unencodable, h) := by
  unfold announce
  dsimp only
  rw [unsayable.2]
  dsimp only
  rw [if_pos unsayable.1]
  rfl

variable (c) in
/-- Whether a program is written whose note the file system then refuses, or has nothing to say that
could stand in it: the version is no text, and the program tells none. -/
def Unrecorded (chosen : Points) (bytes : Bytes) (h : Host) : Prop :=
  ∃ h₁ resolved h₂, (c.place bytes).perform h = (.ok ⟨⟩, h₁) ∧
    (c.resolveVersion (chosen.text?.getD [])).perform h₁ = (.ok resolved, h₂) ∧
      (chosen.text? = none ∧ resolved = [] ∨
        ∃ e, h₂.files.write h₂.cwd c.versionPath (Utf8.encode resolved) = .error e)

/-- Writing the program changes files only. -/
theorem place_files {bytes : Bytes} (done : (c.place bytes).perform h = (.ok ⟨⟩, h')) :
    ∃ fs, h' = { h with files := fs } := by
  unfold place at done
  obtain ⟨_, h₁, made, done⟩ := ok_of_bind done
  obtain ⟨_, h₂, wrote, done⟩ := ok_of_bind done
  rw [perform_makeDirectories] at made
  obtain rfl := (Prod.mk.inj made).2
  obtain ⟨fs, -, rfl⟩ := writeFile_done wrote
  split at done
  · rw [perform_change] at done
    split at done
    · next fs' _ => exact ⟨fs', (Prod.mk.inj done).2.symm⟩
    · cases done
  · exact ⟨fs, (Prod.mk.inj done).2.symm⟩

/-- Unpacked bytes are settled in, or the system refuses to write the program, unless there is no
note of it. -/
theorem settleIn_clean_iff (usable : Usable c.path) (ready : h.LogReady)
    (starts : h.Starts c.asking) (t : Terminal) (chosen : Points) (bytes : Bytes) :
    (c.settleIn t chosen bytes).Clean h ↔ ¬ c.Unrecorded chosen bytes h := by
  unfold settleIn
  rcases place_cases usable bytes h with ⟨h₁, placed⟩ | ⟨e, h₁, failed, system⟩
  · obtain ⟨fs, rfl⟩ := place_files placed
    have shows := Host.Shows.files h fs
    obtain ⟨resolved, h₂, told⟩ :=
      resolveVersion_total (shows.ready ready) (shows.starts starts) (place_there placed).1
        (chosen.text?.getD [])
    rw [Clean.bind_iff (perform_orSystem_ok placed), Clean.bind_iff told]
    have noted : c.Unrecorded chosen bytes h ↔ chosen.text? = none ∧ resolved = [] ∨
        ∃ e, h₂.files.write h₂.cwd c.versionPath (Utf8.encode resolved) = .error e := by
      constructor
      · rintro ⟨g₁, resolved', g₂, placed', told', refused⟩
        obtain rfl := (Prod.mk.inj (placed.symm.trans placed')).2
        obtain ⟨same, rfl⟩ := Prod.mk.inj (told.symm.trans told')
        obtain rfl := Except.ok.inj same
        exact refused
      · exact fun refused => ⟨_, resolved, h₂, placed, told, refused⟩
    rw [noted]
    have wrote (content : Bytes) : (writeFile c.versionPath content).perform h₂ = _ :=
      perform_change (fun fs cwd p => fs.write cwd p content) c.versionPath h₂
    by_cases nothing : chosen.text? = none ∧ resolved = []
    · have empty : (chosen.text?.isNone && resolved.isEmpty) = true := by
        rw [nothing.1, nothing.2]; rfl
      rw [if_pos empty]
      refine iff_of_false ?_ (not_not.mpr (.inl nothing))
      have emptied := wrote []
      cases outcome : h₂.files.write h₂.cwd c.versionPath [] with
      | ok fs' =>
        rw [outcome] at emptied
        exact Clean.not_of_error (perform_bind_ok emptied) (by decide)
      | error e =>
        rw [outcome] at emptied
        exact Clean.not_of_error (perform_bind_error emptied) nofun
    · have given : ¬ (chosen.text?.isNone && resolved.isEmpty) = true := by
        rw [Bool.and_eq_true, Option.isNone_iff_eq_none, List.isEmpty_iff]
        exact nothing
      rw [if_neg given, or_iff_right nothing]
      have noting : (writeText c.versionPath resolved).perform h₂ = _ :=
        wrote (Utf8.encode resolved)
      cases outcome : h₂.files.write h₂.cwd c.versionPath (Utf8.encode resolved) with
      | ok fs' =>
        rw [outcome] at noting
        rw [Clean.bind_iff noting]
        refine iff_of_true ?_ nofun
        cases t <;> exact .of_ok rfl
      | error e =>
        rw [outcome] at noting
        exact iff_of_false (Clean.not_of_error (perform_bind_error noting) nofun) fun none =>
          none ⟨e, rfl⟩
  · refine iff_of_true (Clean.of_error (perform_bind_error (perform_orSystem_handled failed system))
      (installFailure_isInstallation _ _ _)) ?_
    rintro ⟨_, _, _, placed, -⟩
    cases failed.symm.trans placed

/-- An installation that is announced is clean unless the archive is flawed, or there is no note of
the program. -/
theorem install_clean_iff (usable : Usable c.path) (ready : h.LogReady) (starts : h.Starts c.asking)
    {chosen : Points} (filed : (Fetch.file? (c.archiveAddress chosen)).isSome) {t : Terminal}
    (sayable : ¬ Unsayable t chosen) :
    ∃ h₁, (c.announce t chosen).perform h = (.ok ⟨⟩, h₁) ∧ Announced h h₁ ∧
      ((c.install t chosen).Clean h ↔
        ¬ c.ArchiveFlawed h₁ chosen ∧ ∀ bytes, c.Unpacks h₁ chosen bytes →
        ¬ c.Unrecorded chosen bytes h₁) ∧
      ((¬ ∃ bytes, c.Unpacks h₁ chosen bytes) →
        ∃ e, (c.install t chosen).perform h = (.error e, h₁)) := by
  obtain ⟨h₁, announced, after⟩ := announce_done ready c sayable
  refine ⟨h₁, announced, after, ?_⟩
  rw [install, Clean.bind_iff announced, perform_bind_ok announced]
  rcases unpacked_cases filed h₁ with ⟨bytes, unpacks, sound, done⟩ | ⟨none, e, failed, clean⟩
  · have only {bytes' : Bytes} (unpacks' : c.Unpacks h₁ chosen bytes') : bytes' = bytes := by
      obtain ⟨archive, gives, unpacked⟩ := unpacks
      obtain ⟨archive', gives', unpacked'⟩ := unpacks'
      obtain rfl := gives.unique gives'
      exact Except.ok.inj (unpacked'.symm.trans unpacked)
    rw [Clean.bind_iff done, settleIn_clean_iff usable after.ready (after.starts _ starts)]
    refine ⟨⟨fun recorded => ⟨sound, fun bytes' unpacks' => only unpacks' ▸ recorded⟩,
      fun ⟨_, recorded⟩ => recorded bytes unpacks⟩, fun none => absurd ⟨bytes, unpacks⟩ none⟩
  · refine ⟨⟨fun sound => ⟨clean.mp (sound e (by rw [perform_bind_error failed])),
      fun bytes unpacks =>
      absurd ⟨bytes, unpacks⟩ none⟩, fun ⟨sound, _⟩ =>
        .of_error (perform_bind_error failed) (clean.mpr sound)⟩,
      fun _ => ⟨e, perform_bind_error failed⟩⟩

/-! ## Making sure of a component -/

variable (c) in
/-- The version that an installation takes: the one asked for, or the newest that is listed. -/
inductive Chooses (h : Host) : Text → Points → Prop where
  | asked {version : Text} (given : version ≠ []) (missing : ¬ c.Installed version h)
      (told : ¬ c.NoteGarbled version h) : Chooses h version (.ofText version)
  | newest {vs : List Value} {newest : Points} {others : List Points} (missing : ¬ c.Installed [] h)
      (lists : c.Lists h vs) (sorted : Version.newestFirst? (vs.map Value.points) =
        some (newest :: others)) :
      Chooses h [] newest

theorem Lists.unique {vs vs' : List Value} (lists : c.Lists h vs) (lists' : c.Lists h vs') :
    vs' = vs := by
  obtain ⟨bytes, v, gives, json, list⟩ := lists
  obtain ⟨bytes', v', gives', json', list'⟩ := lists'
  obtain rfl := gives.unique gives'
  obtain rfl := Option.some.inj (json.symm.trans json')
  exact Value.list.inj (list'.symm.trans list)

theorem Chooses.missing {chosen : Points} (chooses : c.Chooses h version chosen) :
    ¬ c.Installed version h := by
  cases chooses <;> assumption

theorem Chooses.lists {chosen : Points} (chooses : c.Chooses h [] chosen) : ∃ vs, c.Lists h vs := by
  cases chooses with
  | asked given => exact absurd rfl given
  | newest _ lists => exact ⟨_, lists⟩

/-- What is chosen where no version is named is the first of the versions that the index lists,
newest first. -/
theorem Chooses.heads {chosen : Points} {vs : List Value} (chooses : c.Chooses h [] chosen)
    (lists : c.Lists h vs) :
    ∃ others, Version.newestFirst? (vs.map Value.points) = some (chosen :: others) := by
  cases chooses with
  | asked given => exact absurd rfl given
  | newest _ lists' sorted =>
    obtain rfl := lists.unique lists'
    exact ⟨_, sorted⟩

theorem Chooses.unique {chosen chosen' : Points} (chooses : c.Chooses h version chosen)
    (chooses' : c.Chooses h version chosen') : chosen' = chosen := by
  cases chooses with
  | asked given =>
    cases chooses' with
    | asked => rfl
    | newest => exact absurd rfl given
  | newest _ lists sorted =>
    cases chooses' with
    | asked given => exact absurd rfl given
    | newest _ lists' sorted' =>
      obtain rfl := lists.unique lists'
      exact (List.cons.inj (Option.some.inj (sorted'.symm.trans sorted))).1

variable (c) in
/-- Whether the index is asked for the newest version, and lists one with too many digits in a
number. -/
def IndexGarbled (version : Text) (h : Host) : Prop :=
  version = [] ∧ ¬ c.Installed version h ∧ ∃ vs, c.Lists h vs ∧
    Version.newestFirst? (vs.map Value.points) = none

variable (c) in
/-- What nobody handles: a note that is no text, a listed version with too many digits in a number,
a version that is no text where it should be shown, an archive that breaks its format or has an
address that names no file there could be, and a program in its place without a note. -/
inductive Flawed (t : Terminal) (version : Text) (h : Host) : Prop where
  | note (garbled : c.NoteGarbled version h)
  | index (garbled : c.IndexGarbled version h)
  | message {chosen : Points} (chooses : c.Chooses h version chosen)
    (unsayable : Unsayable t chosen)
  | archive {chosen : Points} {h₁ : Host} (chooses : c.Chooses h version chosen)
      (announced : (c.announce t chosen).perform h = (.ok ⟨⟩, h₁))
      (flawed : c.ArchiveFlawed h₁ chosen)
  | record {chosen : Points} {bytes : Bytes} {h₁ : Host} (chooses : c.Chooses h version chosen)
      (announced : (c.announce t chosen).perform h = (.ok ⟨⟩, h₁))
      (unpacks : c.Unpacks h₁ chosen bytes)
      (refused : c.Unrecorded chosen bytes h₁)

variable (c) in
/-- Whether an archive is fetched and unpacked. -/
def Fetches (t : Terminal) (version : Text) (h : Host) : Prop :=
  ∃ chosen h₁ bytes, c.Chooses h version chosen ∧ (c.announce t chosen).perform h = (.ok ⟨⟩, h₁) ∧
    c.Unpacks h₁ chosen bytes

/-- Making sure of a component installs the version that it chooses, or chooses none and leaves
everything as it is. -/
theorem ensure_cases (usable : Usable c.path)
    (filed : (Fetch.file? (.ofText c.indexAddress)).isSome) (t : Terminal) (version : Text)
    (h : Host) :
    (¬ c.NoteGarbled version h ∧ ¬ c.IndexGarbled version h ∧ ∃ chosen, c.Chooses h version chosen ∧
      (c.ensure t version).perform h = (do c.install t chosen; pure true : Action Bool).perform h) ∨
    (¬ ∃ chosen, c.Chooses h version chosen) ∧
    (∃ out, (c.ensure t version).perform h = (out, h) ∧ out ≠ .ok true) ∧
      ((c.ensure t version).Clean h ↔ ¬ c.NoteGarbled version h ∧ ¬ c.IndexGarbled version h) := by
  unfold ensure
  rcases fits_cases usable version h with ⟨garbled, failed⟩ | ⟨sound, b, fitted, fits⟩
  · have failed' {f : Bool → Action Bool} := perform_bind_error (f := f) failed
    have foreign : ¬ Fault.notText.IsInstallation := by
      rintro ⟨_, ⟨⟩, _⟩
    refine .inr ⟨?_, ⟨_, failed', by rintro ⟨⟩⟩,
      iff_of_false (Clean.not_of_error failed' foreign) fun sound =>
      sound.1 garbled⟩
    rintro ⟨chosen, chooses⟩
    cases chooses with
    | asked _ _ told => exact told garbled
    | newest => exact garbled.1 rfl
  · rw [Clean.bind_iff fitted, perform_bind_ok fitted]
    cases b with
    | true =>
      have installed := fits.mp rfl
      rw [if_pos rfl]
      have none : ¬ ∃ chosen, c.Chooses h version chosen := by
        rintro ⟨chosen, chooses⟩
        exact chooses.missing installed
      refine .inr ⟨none, ⟨_, rfl, by rintro ⟨⟩⟩, iff_of_true (.of_ok rfl) ⟨sound, ?_⟩⟩
      exact fun garbled => garbled.2.1 installed
    | false =>
      have missing : ¬ c.Installed version h :=
        fun installed => Bool.false_ne_true (fits.mpr installed)
      rw [if_neg Bool.false_ne_true]
      by_cases given : version = []
      · subst given
        rw [if_pos (List.isEmpty_iff.mpr rfl)]
        rcases availableVersions_cases filed h with ⟨vs, sorted, lists, newest, done⟩ |
          ⟨vs, e, lists, long, failed, foreign⟩ | ⟨none, e, failed, clean⟩
        · have short : ¬ c.IndexGarbled [] h := by
            rintro ⟨-, -, vs', lists', long⟩
            obtain rfl := lists.unique lists'
            cases newest.symm.trans long
          rw [Clean.bind_iff done, perform_bind_ok done]
          cases sorted with
          | nil =>
            refine .inr ⟨?_, ⟨_, rfl, by rintro ⟨⟩⟩,
              iff_of_true (.of_error rfl (installFailure_isInstallation _ _ _)) ⟨sound, short⟩⟩
            rintro ⟨chosen, chooses⟩
            obtain ⟨others, first⟩ := chooses.heads lists
            cases newest.symm.trans first
          | cons chosen others =>
            exact .inl ⟨sound, short, chosen, .newest missing lists newest, rfl⟩
        · refine .inr ⟨?_, ⟨_, perform_bind_error failed, by rintro ⟨⟩⟩,
            iff_of_false (Clean.not_of_error (perform_bind_error failed) foreign)
              fun short => short.2 ⟨rfl, missing, vs, lists, long⟩⟩
          rintro ⟨chosen, chooses⟩
          obtain ⟨others, first⟩ := chooses.heads lists
          cases long.symm.trans first
        · refine .inr ⟨?_, ⟨_, perform_bind_error failed, by rintro ⟨⟩⟩,
            iff_of_true (.of_error (perform_bind_error failed) clean) ⟨sound, fun garbled => ?_⟩⟩
          · rintro ⟨chosen, chooses⟩
            exact none chooses.lists
          · obtain ⟨-, -, vs, lists, -⟩ := garbled
            exact none ⟨vs, lists⟩
      · rw [if_neg (mt List.isEmpty_iff.mp given)]
        exact .inl ⟨sound, fun garbled => given garbled.1, _, .asked given missing sound, rfl⟩

/-- **Making sure of a component succeeds or is a failure to install, unless it is flawed.**  As
long as no archive was fetched and unpacked, nothing was installed, and the files are as they were,
apart from the log and, if the log was still to be opened, the directories made for it. -/
theorem ensure_clean_iff {directory : Text} (source : c.source = "file://".toList ++ directory)
    (usable : Usable c.path) (ready : h.LogReady) (starts : h.Starts c.asking) (t : Terminal)
    (version : Text) :
    (((∃ fetched, ((c.ensure t version).perform h).1 = .ok fetched) ∨
        ∃ f, ((c.ensure t version).perform h).1 = .error (.failure f) ∧ f.kind = .installation) ↔
      ¬ c.Flawed t version h) ∧
    (¬ c.Fetches t version h → ((c.ensure t version).perform h).1 ≠ .ok true ∧
      h.files.AlikeBut h.AtLog (fun _ => h.LogPlanned)
        ((c.ensure t version).perform h).2.files) := by
  have filed (front : Text) (rest : Points) :
      (Fetch.file? (.ofText (c.source ++ front) ++ rest)).isSome := by
    have shape : Points.ofText (c.source ++ front) ++ rest =
        .ofText "file://".toList ++ (.ofText (directory ++ front) ++ rest) := by
      rw [source]
      simp only [Points.ofText, List.map_append, List.append_assoc]
    rw [shape]
    exact Fetch.file?_isSome _
  have index : (Fetch.file? (.ofText c.indexAddress)).isSome := by
    have whole := filed ('/' :: c.partOf.getD c.name ++ ".json".toList) []
    rwa [List.append_nil, ← List.append_assoc] at whole
  rw [← Clean.iff_cases]
  rcases ensure_cases usable index t version h with ⟨noted, listed, chosen, chooses, same⟩ |
    ⟨none, ⟨out, left, idle⟩, clean⟩
  · have installs : (c.ensure t version).Clean h ↔ (c.install t chosen).Clean h := by
      refine Iff.trans ?_ (Clean.then_iff true)
      unfold Clean
      rw [same]
    rw [installs]
    by_cases unsayable : Unsayable t chosen
    · have failed : (c.install t chosen).perform h = (.error .unencodable, h) :=
        perform_bind_error (announce_unsayable unsayable h)
      refine ⟨iff_of_false (Clean.not_of_error failed (by decide))
        (not_not.mpr (.message chooses unsayable)), fun _ => ?_⟩
      rw [same, perform_bind_error failed]
      refine ⟨fun done => ?_, .refl ..⟩
      cases done
    · obtain ⟨h₁, announced, after, clean, kept⟩ :=
        install_clean_iff usable ready starts
          (filed ['/'] (c.download chosen hostPlatform)) unsayable
      have only {chosen' : Points} {h₁' : Host} (chooses' : c.Chooses h version chosen')
          (announced' : (c.announce t chosen').perform h = (.ok ⟨⟩, h₁')) :
          chosen' = chosen ∧ h₁' = h₁ := by
        obtain rfl := chooses.unique chooses'
        exact ⟨rfl, (Prod.mk.inj (announced'.symm.trans announced)).2⟩
      rw [clean]
      refine ⟨⟨?_, fun sound => ⟨fun flawed => sound (.archive chooses announced flawed),
        fun bytes unpacks refused => sound (.record chooses announced unpacks refused)⟩⟩,
        fun unfetched => ?_⟩
      · rintro ⟨whole, recorded⟩ (garbled | garbled | ⟨chooses', unsayable'⟩ |
          ⟨chooses', announced', flawed⟩ | ⟨chooses', announced', unpacks, refused⟩)
        · exact noted garbled
        · exact listed garbled
        · obtain rfl := chooses.unique chooses'
          exact unsayable unsayable'
        · obtain ⟨rfl, rfl⟩ := only chooses' announced'
          exact whole flawed
        · obtain ⟨rfl, rfl⟩ := only chooses' announced'
          exact recorded _ unpacks refused
      · have nothing : ¬ ∃ bytes, c.Unpacks h₁ chosen bytes := by
          rintro ⟨bytes, unpacks⟩
          exact unfetched ⟨chosen, h₁, bytes, chooses, announced, unpacks⟩
        obtain ⟨e, failed⟩ := kept nothing
        rw [same, perform_bind_error failed]
        refine ⟨fun done => ?_, after.files⟩
        cases done
  · rw [clean, left]
    refine ⟨⟨?_, fun sound =>
      ⟨fun garbled => sound (.note garbled), fun garbled => sound (.index garbled)⟩⟩,
      fun _ => ⟨idle, .refl ..⟩⟩
    rintro ⟨noted, listed⟩ (garbled | garbled | ⟨chooses, -⟩ | ⟨chooses, -, -⟩ | ⟨chooses, -, -, -⟩)
    · exact noted garbled
    · exact listed garbled
    · exact none ⟨_, chooses⟩
    · exact none ⟨_, chooses⟩
    · exact none ⟨_, chooses⟩

/-! ## Archives that break off, and archives that break their format -/

/-- A host that offers two archives of the compiler: one breaks off in its header, and behind the
good header of the other stands no compressed data. -/
def brokenMirror : Host where
  files :=
    { entries := [(["bins".toList], .directory),
        (["bins".toList, "solc_2_linux.gz".toList], .file [31, 139] .plain),
        (["bins".toList, "solc_1_linux.gz".toList],
          .file ([31, 139, 8, 0, 0, 0, 0, 0, 0, 3] ++ List.replicate 16 255) .plain)] }

/-- A compiler that comes from there. -/
def brokenSolc : Component :=
  { family := "solidity".toList, name := "solc".toList, executable := true, home := "/tc".toList
    source := "file:///bins".toList }

/-- The archive that breaks off is a failure to install, and nothing was touched. -/
theorem truncated_archive_clean :
    ¬ brokenSolc.Flawed .silent "2".toList brokenMirror ∧
      brokenMirror.files.AlikeBut brokenMirror.AtLog (fun _ => brokenMirror.LogPlanned)
        ((brokenSolc.ensure .silent "2".toList).perform brokenMirror).2.files := by
  have ready : brokenMirror.LogReady := by
    rintro settings planned
    cases planned
  have starts : brokenMirror.Starts brokenSolc.asking := by
    rintro fs e failed
    cases failed
    rfl
  have clean : (brokenSolc.ensure .silent "2".toList).Clean brokenMirror := by decide +kernel
  obtain ⟨flawless, still⟩ :=
    ensure_clean_iff (show brokenSolc.source = "file://".toList ++ "/bins".toList from rfl)
      (by decide) ready starts .silent
      "2".toList
  refine ⟨flawless.mp (Clean.iff_cases.mp clean), (still ?_).2⟩
  rintro ⟨chosen, h₁, bytes, ⟨⟩, announced, archive, gives, unpacked⟩
  obtain rfl : brokenMirror = h₁ := (Prod.mk.inj announced).2
  have broken : Fetch.Gives brokenMirror (brokenSolc.archiveAddress (.ofText "2".toList))
      [31, 139] :=
    ⟨"/bins/solc_2_linux.gz".toList, by decide +kernel, rfl⟩
  obtain rfl := broken.unique gives
  cases unpacked

/-- The other one is not: what breaks the format is another fault. -/
theorem corrupt_archive_escapes :
    ¬ ((∃ fetched, ((brokenSolc.ensure .silent "1".toList).perform brokenMirror).1 = .ok fetched) ∨
      ∃ f, ((brokenSolc.ensure .silent "1".toList).perform brokenMirror).1 = .error (.failure f) ∧
        f.kind = .installation) := by
  rw [← Clean.iff_cases]
  decide +kernel

end Component
end ContractCheck
