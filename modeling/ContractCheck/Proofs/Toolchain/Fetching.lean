import ContractCheck.Proofs.Toolchain.Installing

/-! # What an installation reads

An installation reads the note of the version that is there, the index of versions and an archive.
Each of them can be missing, or hold any bytes.  Most of this is a failure to install or counts as
no version, but a note that is no text (`Component.fits_cases`), a listed number with too many
digits (`Component.availableVersions_cases`) and an archive that breaks its format
(`Component.download_cases`) are other faults.
-/
namespace ContractCheck

open ContractCheck.Action
open ContractCheck.Path (Usable)

variable {h h' : Host}

/-- Whether a fault is a failure to install. -/
def Fault.IsInstallation (e : Fault) : Prop := ∃ f, e = .failure f ∧ f.kind = .installation

instance : DecidablePred Fault.IsInstallation
  | .failure f => decidable_of_iff (f.kind = .installation)
      ⟨fun kind => ⟨f, rfl, kind⟩, fun ⟨_, same, kind⟩ => Fault.failure.inj same ▸ kind⟩
  | .file .. | .invalid _ | .notText | .wrongShape _ | .noSuchPart _ | .badValue _ | .endless
  | .unreadableSetting | .unreachable | .garbled | .unencodable | .corrupt | .noHome =>
    isFalse nofun

/-- Whether an activity succeeds on a host, or fails to install. -/
def Action.Clean {α : Type} (act : Action α) (h : Host) : Prop :=
  ∀ e, (act.perform h).1 = .error e → e.IsInstallation

instance {α : Type} (act : Action α) (h : Host) : Decidable (act.Clean h) :=
  match outcome : (act.perform h).1 with
  | .ok _ => isTrue fun _ failed => nomatch outcome.symm.trans failed
  | .error e => decidable_of_iff e.IsInstallation
      ⟨fun clean _ failed => Except.error.inj (outcome.symm.trans failed) ▸ clean,
        fun clean => clean e outcome⟩

namespace Action.Clean

variable {α β : Type} {act : Action α} {f : α → Action β} {a : α} {e : Fault}

theorem of_ok (done : act.perform h = (.ok a, h')) : act.Clean h := by
  intro e failed
  rw [done] at failed
  cases failed

theorem of_error (failed : act.perform h = (.error e, h')) (installation : e.IsInstallation) :
    act.Clean h := by
  intro e' failed'
  rw [failed] at failed'
  exact Except.error.inj failed' ▸ installation

theorem not_of_error (failed : act.perform h = (.error e, h')) (foreign : ¬ e.IsInstallation) :
    ¬ act.Clean h :=
  fun clean => foreign (clean e (by rw [failed]))

theorem iff_cases : act.Clean h ↔ (∃ a, (act.perform h).1 = .ok a) ∨
    ∃ f, (act.perform h).1 = .error (.failure f) ∧ f.kind = .installation := by
  unfold Clean
  cases (act.perform h).1 with
  | ok a => exact iff_of_true nofun (.inl ⟨a, rfl⟩)
  | error e =>
    constructor
    · intro clean
      obtain ⟨f, rfl, kind⟩ := clean e rfl
      exact .inr ⟨f, rfl, kind⟩
    · rintro (⟨a, done⟩ | ⟨f, failed, kind⟩) e' same
      · cases done
      · obtain rfl := Except.error.inj failed
        obtain rfl := Except.error.inj same
        exact ⟨f, rfl, kind⟩

/-- What comes after a value is as clean as it is by itself. -/
theorem bind_iff (first : act.perform h = (.ok a, h')) : (act >>= f).Clean h ↔ (f a).Clean h' := by
  unfold Clean
  rw [perform_bind_ok first]

/-- A value that is given at the end changes nothing. -/
theorem then_iff (b : β) : (act >>= fun _ => Pure.pure b).Clean h ↔ act.Clean h := by
  unfold Clean
  rcases outcome : act.perform h with ⟨e | a, h'⟩
  · rw [perform_bind_error outcome]
    simp only [Except.error.injEq]
  · rw [perform_bind_ok outcome]
    exact iff_of_true nofun nofun

end Action.Clean

/-! ## Files at addresses -/

namespace Fetch

variable {address : Points} {host path p : Text}

theorem withoutFragment_ofText (t : Text) : ∃ u, withoutFragment (.ofText t) = .ofText u := by
  unfold withoutFragment
  rw [Points.ofText, ← List.map_reverse, List.dropWhile_map]
  cases t.reverse.dropWhile ((· != .char '#') ∘ CodePoint.char) with
  | nil => exact ⟨t, rfl⟩
  | cons c front => exact ⟨front.reverse, List.map_reverse.symm⟩

/-- The host and the path of an address of files. -/
def file? (address : Points) : Option (Text × Text) :=
  match schemeOf? (withoutFragment address).shown with
  | some (scheme, rest) =>
    if scheme = fileScheme then some (unescape (hostAndPath rest).1, (hostAndPath rest).2) else none
  | none => none

/-- Whatever follows it, `file://` is the beginning of an address of files. -/
theorem file?_isSome (rest : Points) : (file? (.ofText "file://".toList ++ rest)).isSome := by
  have begins : ∃ front, withoutFragment (.ofText "file://".toList ++ rest) =
      .ofText "file://".toList ++ front := by
    unfold withoutFragment
    rw [List.reverse_append, List.dropWhile_append]
    cases rest.reverse.dropWhile (· != .char '#') with
    | nil => exact ⟨rest, rfl⟩
    | cons c front =>
      refine ⟨front.reverse, ?_⟩
      dsimp only [List.isEmpty_cons, Bool.false_eq_true, if_false]
      rw [if_neg Bool.false_ne_true]
      simp
  obtain ⟨front, same⟩ := begins
  have shown : (Points.ofText "file://".toList ++ front).shown = "file://".toList ++ front.shown :=
    List.map_append
  have cut : Text.cutFirst ':' ("file://".toList ++ front.shown) =
      some ("file".toList, "//".toList ++ front.shown) :=
    Text.cutFirst_append (show ':' ∉ "file".toList by decide) ("//".toList ++ front.shown)
  rw [file?, same, shown, schemeOf?, cut]
  rfl

/-- The path that an address of files leads to on a host.  A path that no file can have is looked at
before the host is. -/
def path? (h : Host) (address : Points) : Option Text :=
  match file? address, (withoutFragment address).text? with
  | some (host, path), some _ =>
    if looksForeign host path then none
    else if (unescape path).contains '\x00' || host.isEmpty || h.network.own host then
      some (unescape path)
    else none
  | _, _ => none

/-- Whether an address of files that is no text cannot be made a path. -/
def Unspeakable (address : Points) : Prop :=
  (withoutFragment address).text? = none ∧ ∃ host path, file? address = some (host, path) ∧
    looksForeign host path = false ∧
    (isName (withoutFragment address) = false ∨ ¬ Usable (unescape path))

theorem file?_eq_some (filed : file? address = some (host, path)) :
    ∃ rest, schemeOf? (withoutFragment address).shown = some (fileScheme, rest) ∧
      unescape (hostAndPath rest).1 = host ∧ (hostAndPath rest).2 = path := by
  unfold file? at filed
  split at filed
  · next scheme rest here =>
    split at filed
    · next own =>
      obtain ⟨there, led⟩ := Prod.mk.inj (Option.some.inj filed)
      exact ⟨rest, own ▸ here, there, led⟩
    · cases filed
  · cases filed

theorem read_file (filed : file? address = some (host, path)) {a : Text}
    (whole : (withoutFragment address).text? = some a) : Fetch.read address = readOn host path := by
  obtain ⟨rest, scheme, rfl, rfl⟩ := file?_eq_some filed
  unfold Fetch.read
  dsimp only
  rw [scheme, whole]
  exact if_pos rfl

theorem read_halved (filed : file? address = some (host, path))
    (halved : (withoutFragment address).text? = none) :
    Fetch.read address = readHalved (withoutFragment address) host path := by
  obtain ⟨rest, scheme, rfl, rfl⟩ := file?_eq_some filed
  unfold Fetch.read
  dsimp only
  rw [scheme, halved]
  exact if_pos rfl

/-- Whether the file at an address has some bytes. -/
def Gives (h : Host) (address : Points) (bytes : Bytes) : Prop :=
  ∃ p, path? h address = some p ∧ h.files.read h.cwd p = .ok bytes

theorem Gives.unique {bytes bytes' : Bytes} (gives : Gives h address bytes)
    (gives' : Gives h address bytes') :
    bytes' = bytes := by
  obtain ⟨p, named, read⟩ := gives
  obtain ⟨p', named', read'⟩ := gives'
  obtain rfl := Option.some.inj (named.symm.trans named')
  exact Except.ok.inj (read'.symm.trans read)

theorem Gives.usable {bytes : Bytes} (gives : Gives h address bytes)
    (named : path? h address = some p) :
    Usable p := by
  obtain ⟨p', named', read⟩ := gives
  obtain rfl := Option.some.inj (named.symm.trans named')
  obtain ⟨_, _, led, -⟩ := FileSystem.read_iff.mp read
  exact (FileSystem.resolve_iff.mp led).1.1

/-- Fetching what an address leads to is reading the file there. -/
theorem read_path (named : path? h address = some p) :
    (Fetch.read address).perform h = (readFile p).perform h := by
  unfold path? at named
  split at named
  · next host path a filed whole =>
    rw [read_file filed whole, readOn]
    split at named
    · cases named
    · next own =>
      rw [if_neg own]
      split at named
      · next here =>
        obtain rfl := Option.some.inj named
        cases zero : (unescape path).contains '\x00' with
        | true =>
          have refused : h.files.read h.cwd (unescape path) = .error .unusablePath := by
            unfold FileSystem.read FileSystem.find FileSystem.resolve
            rw [if_pos zero]
            rfl
          rw [readFile_fails refused]
          rfl
        | false =>
          rw [zero, Bool.false_or] at here
          rw [if_neg Bool.false_ne_true, perform_bind_ok (perform_get h), here]
          rfl
      · cases named
  · cases named

/-- An address of files that leads to no path here leads elsewhere. -/
theorem read_elsewhere (filed : file? address = some (host, path)) {a : Text}
    (whole : (withoutFragment address).text? = some a) (none : path? h address = none) :
    (Fetch.read address).perform h = (.error .unreachable, h) := by
  rw [path?, filed, whole] at none
  rw [read_file filed whole, readOn]
  dsimp only at none ⊢
  split at none
  · next foreign => rw [if_pos foreign]; rfl
  · next own =>
    rw [if_neg own]
    split at none
    · cases none
    · next other =>
      obtain ⟨front, elsewhere⟩ := Bool.or_eq_false_iff.mp (Bool.eq_false_iff.mpr other)
      obtain ⟨zero, given⟩ := Bool.or_eq_false_iff.mp front
      rw [zero, if_neg Bool.false_ne_true, perform_bind_ok (perform_get h), given, elsewhere]
      rfl

/-- Whether an address leads to a path that no file can have, or cannot be made a path. -/
def Unfit (h : Host) (address : Points) : Prop :=
  (∃ p, path? h address = some p ∧ ¬ Usable p) ∨ Unspeakable address

theorem Unfit.gives_none (unfit : Unfit h address) : ¬ ∃ bytes, Gives h address bytes := by
  rintro ⟨bytes, gives⟩
  rcases unfit with ⟨p, named, zero⟩ | ⟨halved, -⟩
  · exact zero (gives.usable named)
  · obtain ⟨p, named, -⟩ := gives
    rw [path?, halved] at named
    split at named
    · next whole => cases whole
    · cases named

/-- What fetching from an address of files comes to. -/
theorem read_cases (filed : (file? address).isSome) (h : Host) :
    (∃ bytes, Gives h address bytes ∧ (Fetch.read address).perform h = (.ok bytes, h)) ∨
    (Unfit h address ∧ ∃ e, (Fetch.read address).perform h = (.error e, h) ∧
      ((∃ p, e = .file .unusablePath p) ∨ (withoutFragment address).text? = none ∧
        e = .unencodable)) ∨
    (¬ Unfit h address ∧ (¬ ∃ bytes, Gives h address bytes) ∧
      ∃ e, (Fetch.read address).perform h = (.error e, h) ∧ e.fromSystem = true) := by
  obtain ⟨⟨host, path⟩, filed⟩ := Option.isSome_iff_exists.mp filed
  cases whole : (withoutFragment address).text? with
  | none =>
    have nothing : path? h address = none := by rw [path?, filed, whole]
    have none : ¬ ∃ bytes, Gives h address bytes :=
      fun ⟨_, _, named, _⟩ => nomatch nothing.symm.trans named
    -- Which of the two kinds of faults it is, the name and the path tell.
    have unfit : Unfit h address ↔
        looksForeign host path = false ∧
        (isName (withoutFragment address) = false ∨ ¬ Usable (unescape path)) := by
      constructor
      · rintro (⟨p, named, -⟩ | ⟨-, host', path', filed', own, flaw⟩)
        · cases nothing.symm.trans named
        · obtain ⟨rfl, rfl⟩ := Prod.mk.inj (Option.some.inj (filed.symm.trans filed'))
          exact ⟨own, flaw⟩
      · exact fun ⟨own, flaw⟩ => .inr ⟨whole, host, path, filed, own, flaw⟩
    rw [read_halved filed whole, unfit, readHalved]
    cases foreign : looksForeign host path with
    | true => exact .inr (.inr ⟨nofun, none, _, rfl, rfl⟩)
    | false =>
      cases named : isName (withoutFragment address) with
      | false => exact .inr (.inl ⟨⟨rfl, .inl rfl⟩, _, rfl, .inr ⟨rfl, rfl⟩⟩)
      | true =>
        by_cases usable : Usable (unescape path)
        · have free : (unescape path).contains '\x00' = false :=
            Bool.eq_false_iff.mpr fun zero => usable (List.contains_iff_mem.mp zero)
          rw [free]
          exact .inr (.inr ⟨fun flaw => flaw.2.elim nofun (absurd usable), none, _, rfl, rfl⟩)
        · have zero : (unescape path).contains '\x00' = true :=
            List.contains_iff_mem.mpr (not_not.mp usable)
          rw [zero]
          exact .inr (.inl ⟨⟨rfl, .inr usable⟩, _, rfl, .inl ⟨_, rfl⟩⟩)
  | some a =>
    have spoken : ¬ Unspeakable address := fun unspeakable => nomatch whole.symm.trans unspeakable.1
    cases named : path? h address with
    | none =>
      have none : ¬ ∃ bytes, Gives h address bytes :=
        fun ⟨_, _, named', _⟩ => nomatch named.symm.trans named'
      refine .inr (.inr ⟨?_, none, _, read_elsewhere filed whole named, rfl⟩)
      rintro (⟨p, named', -⟩ | unspeakable)
      · cases named.symm.trans named'
      · exact spoken unspeakable
    | some p =>
      have unfit : Unfit h address ↔ ¬ Usable p := by
        constructor
        · rintro (⟨p', named', zero⟩ | unspeakable)
          · obtain rfl := Option.some.inj (named.symm.trans named')
            exact zero
          · exact absurd unspeakable spoken
        · exact fun zero => .inl ⟨p, named, zero⟩
      rw [read_path named, unfit]
      cases read : h.files.read h.cwd p with
      | ok bytes => exact .inl ⟨bytes, ⟨p, named, read⟩, readFile_ok read⟩
      | error e =>
        rw [readFile_fails read]
        by_cases usable : Usable p
        · have none : ¬ ∃ bytes, Gives h address bytes := by
            rintro ⟨bytes, p', named', read'⟩
            obtain rfl := Option.some.inj (named.symm.trans named')
            cases read.symm.trans read'
          exact .inr (.inr ⟨not_not.mpr usable, none, _, rfl,
            FileSystem.read_fromSystem usable read⟩)
        · have zero : e = .unusablePath := by
            unfold FileSystem.read FileSystem.find FileSystem.resolve at read
            rw [if_pos (List.contains_iff_mem.mpr (not_not.mp usable))] at read
            cases read
            rfl
          exact .inr (.inl ⟨usable, _, rfl, .inl ⟨p, by rw [zero]⟩⟩)

end Fetch

namespace Component

variable {c : Component} {version : Text}

theorem installFailure_isInstallation (c : Component) (message : Text) (address : Option Text) :
    (c.installFailure message address).IsInstallation := ⟨_, rfl, rfl⟩

/-! ## The note, the index and the archive -/

variable (c) in
/-- Whether there is something to compare a version with that is no text. -/
def NoteGarbled (version : Text) (h : Host) : Prop :=
  version ≠ [] ∧ h.files.isThere h.cwd c.path = true ∧
    ∃ bytes, h.files.read h.cwd c.versionPath = .ok bytes ∧ Utf8.read? bytes = none

theorem versionPath_usable (usable : Usable c.path) : Usable c.versionPath :=
  Path.Usable.tidy (Path.usable_append.mpr ⟨usable, by decide⟩)

/-- The version that was installed can be told unless the note is no text. -/
theorem installedVersion_cases (usable : Usable c.path) (h : Host) :
    (∃ bytes, h.files.read h.cwd c.versionPath = .ok bytes ∧ Utf8.read? bytes = none ∧
      c.installedVersion.perform h = (.error .notText, h)) ∨
    (¬ ∃ bytes, h.files.read h.cwd c.versionPath = .ok bytes ∧ Utf8.read? bytes = none) ∧
      ∃ noted, c.installedVersion.perform h = (.ok noted, h) := by
  cases read : h.files.read h.cwd c.versionPath with
  | error e =>
    have system := FileSystem.read_fromSystem (versionPath_usable usable) read
    refine .inr ⟨nofun, none, ?_⟩
    exact perform_orSystem_handled (perform_bind_error (readText_fails read)) system
  | ok bytes =>
    cases decoded : Utf8.read? bytes with
    | none =>
      refine .inl ⟨bytes, rfl, decoded, ?_⟩
      exact perform_orSystem_foreign (perform_bind_error (readText_garbled read decoded)) rfl
    | some t =>
      refine .inr ⟨?_, _, perform_orSystem_ok (perform_bind_ok (readText_ok read decoded))⟩
      rintro ⟨bytes', same, garbled⟩
      obtain rfl := Except.ok.inj same
      cases garbled.symm.trans decoded

/-- Whether a component is there in a version can be told unless the note is no text. -/
theorem fits_cases (usable : Usable c.path) (version : Text) (h : Host) :
    (c.NoteGarbled version h ∧ (c.fits version).perform h = (.error .notText, h)) ∨
      ¬ c.NoteGarbled version h ∧ ∃ b, (c.fits version).perform h = (.ok b, h) ∧
      (b = true ↔ c.Installed version h) := by
  have found : c.isInstalled.perform h = (.ok (h.files.isThere h.cwd c.path), h) := rfl
  have told {b : Bool} (done : (c.fits version).perform h = (.ok b, h)) :
      ∃ b, (c.fits version).perform h = (.ok b, h) ∧ (b = true ↔ c.Installed version h) :=
        ⟨b, done, fits_done done⟩
  cases there : h.files.isThere h.cwd c.path with
  | false =>
    refine .inr ⟨fun ⟨_, there', _⟩ => Bool.false_ne_true (there.symm.trans there'),
      told (b := false) ?_⟩
    unfold fits
    rw [perform_bind_ok found, there]
    rfl
  | true =>
    have looks : (c.fits version).perform h = ((if version.isEmpty then pure true
        else do pure ((← c.installedVersion) == some version)) : Action Bool).perform h := by
      unfold fits
      rw [perform_bind_ok found, there]
      rfl
    rw [looks] at told ⊢
    by_cases given : version = []
    · rw [if_pos (List.isEmpty_iff.mpr given)] at told ⊢
      exact .inr ⟨fun garbled => garbled.1 given, told rfl⟩
    · rw [if_neg (mt List.isEmpty_iff.mp given)] at told ⊢
      rcases installedVersion_cases usable h with
        ⟨bytes, read, garbled, failed⟩ | ⟨sound, noted, done⟩
      · exact .inl ⟨⟨given, there, bytes, read, garbled⟩, perform_bind_error failed⟩
      · exact .inr ⟨fun garbled => sound garbled.2.2, told (perform_bind_ok done)⟩

variable (c) in
/-- The address of the index of versions.  A data file shares it with the program it belongs to. -/
def indexAddress : Text := c.source ++ '/' :: c.partOf.getD c.name ++ ".json".toList

/-- The failure to fetch or to read the index. -/
def indexFailure (c : Component) : Fault :=
  installFailure { c with name := c.partOf.getD c.name }
    ("Failed to load available versions of ".toList ++ c.partOf.getD c.name) (some c.indexAddress)

/-- The bytes of the index. -/
def fetchIndex (c : Component) : Action Bytes :=
  tryCatch (Fetch.read (.ofText c.indexAddress)) fun e =>
    match e with
    | .badValue _ => throw c.indexFailure
    | .file .. => throw c.indexFailure
    | e => if e.fromSystem then throw c.indexFailure else throw e

/-- What an index says of a name: its entry in a table, and anything else is the entry itself. -/
def entryFor (name : Text) : Value → Value
  | .table fs => (Fields.get? fs name).getD (.list [])
  | v => v

/-- The versions that the bytes of an index list. -/
def sortIndex (c : Component) (bytes : Bytes) : Action (List Points) :=
  match Json.readBytes? bytes with
  | none => throw c.indexFailure
  | some v =>
    match entryFor (c.partOf.getD c.name) v with
    | .list vs =>
      match Version.newestFirst? (vs.map Value.points) with
      | some sorted => pure sorted
      | none => throw (.badValue "Exceeds the limit for integer string conversion".toList)
    | _ =>
      throw (installFailure { c with name := c.partOf.getD c.name }
        ("Malformed version index for ".toList ++ c.partOf.getD c.name) (some c.indexAddress))

theorem availableVersions_eq (c : Component) : c.availableVersions = c.fetchIndex >>= c.sortIndex :=
  rfl

theorem fetchIndex_cases (filed : (Fetch.file? (.ofText c.indexAddress)).isSome) (h : Host) :
    (∃ bytes, Fetch.Gives h (.ofText c.indexAddress) bytes ∧
      c.fetchIndex.perform h = (.ok bytes, h)) ∨
    (¬ ∃ bytes, Fetch.Gives h (.ofText c.indexAddress) bytes) ∧
    c.fetchIndex.perform h = (.error c.indexFailure, h) := by
  unfold fetchIndex
  rw [perform_tryCatch]
  rcases Fetch.read_cases filed h with
    ⟨bytes, gives, read⟩ | ⟨unfit, e, failed, kind⟩ | ⟨-, none, e, failed, system⟩
  · exact .inl ⟨bytes, gives, by rw [read, orElse]⟩
  · refine .inr ⟨unfit.gives_none, ?_⟩
    rcases kind with ⟨p, rfl⟩ | ⟨halved, -⟩
    · rw [failed]
      rfl
    · -- The address of an index is a text.
      obtain ⟨u, whole⟩ := Fetch.withoutFragment_ofText c.indexAddress
      rw [whole, Points.text?_ofText] at halved
      cases halved
  · refine .inr ⟨none, ?_⟩
    rw [failed]
    cases e with
    | file e path => rfl
    | unreachable => rfl
    | _ => cases system

/-- What an index comes to that was fetched. -/
theorem sortIndex_cases (c : Component) (bytes : Bytes) (h : Host) :
    (∃ v vs sorted, Json.readBytes? bytes = some v ∧ entryFor (c.partOf.getD c.name) v = .list vs ∧
      Version.newestFirst? (vs.map Value.points) = some sorted ∧
      (c.sortIndex bytes).perform h = (.ok sorted, h)) ∨
    (∃ v vs e, Json.readBytes? bytes = some v ∧ entryFor (c.partOf.getD c.name) v = .list vs ∧
      Version.newestFirst? (vs.map Value.points) = none ∧
      (c.sortIndex bytes).perform h = (.error e, h) ∧
        ¬ e.IsInstallation) ∨
    (∀ v, Json.readBytes? bytes = some v → ∀ vs, entryFor (c.partOf.getD c.name) v ≠ .list vs) ∧
      ∃ e, (c.sortIndex bytes).perform h = (.error e, h) ∧ e.IsInstallation := by
  unfold sortIndex
  cases Json.readBytes? bytes with
  | none => exact .inr (.inr ⟨nofun, _, rfl, installFailure_isInstallation _ _ _⟩)
  | some v =>
    dsimp only
    cases entry : entryFor (c.partOf.getD c.name) v with
    | list vs =>
      dsimp only
      cases newest : Version.newestFirst? (vs.map Value.points) with
      | some sorted => exact .inl ⟨v, vs, sorted, rfl, entry, newest, rfl⟩
      | none => exact .inr (.inl ⟨v, vs, _, rfl, entry, newest, rfl, nofun⟩)
    | _ =>
      refine .inr (.inr ⟨?_, _, rfl, installFailure_isInstallation _ _ _⟩)
      rintro v' same vs list
      obtain rfl := Option.some.inj same
      cases entry.symm.trans list

variable (c) in
/-- Whether the index lists some values. -/
def Lists (h : Host) (vs : List Value) : Prop :=
  ∃ bytes v, Fetch.Gives h (.ofText c.indexAddress) bytes ∧ Json.readBytes? bytes = some v ∧
    entryFor (c.partOf.getD c.name) v = .list vs

/-- What the index comes to: the versions, or a failure to install, unless one has a number with too
many digits. -/
theorem availableVersions_cases (filed : (Fetch.file? (.ofText c.indexAddress)).isSome) (h : Host) :
    (∃ vs sorted, c.Lists h vs ∧ Version.newestFirst? (vs.map Value.points) = some sorted ∧
      c.availableVersions.perform h = (.ok sorted, h)) ∨
    (∃ vs e, c.Lists h vs ∧ Version.newestFirst? (vs.map Value.points) = none ∧
      c.availableVersions.perform h = (.error e, h) ∧ ¬ e.IsInstallation) ∨
    (¬ ∃ vs, c.Lists h vs) ∧ ∃ e, c.availableVersions.perform h = (.error e, h) ∧
    e.IsInstallation := by
  rw [availableVersions_eq]
  rcases fetchIndex_cases filed h with ⟨bytes, gives, fetched⟩ | ⟨none, failed⟩
  · rw [perform_bind_ok fetched]
    rcases sortIndex_cases c bytes h with ⟨v, vs, sorted, json, list, newest, done⟩ |
      ⟨v, vs, e, json, list, long, failed, foreign⟩ | ⟨none, e, failed, clean⟩
    · exact .inl ⟨vs, sorted, ⟨bytes, v, gives, json, list⟩, newest, done⟩
    · exact .inr (.inl ⟨vs, e, ⟨bytes, v, gives, json, list⟩, long, failed, foreign⟩)
    · refine .inr (.inr ⟨?_, e, failed, clean⟩)
      rintro ⟨vs, bytes', v, gives', json, list⟩
      obtain rfl := gives.unique gives'
      exact none v json vs list
  · refine .inr (.inr ⟨?_, _, perform_bind_error failed, installFailure_isInstallation _ _ _⟩)
    rintro ⟨vs, bytes, v, gives, -⟩
    exact none ⟨bytes, gives⟩

variable (c) in
/-- Whether the archive of a version stands for some bytes. -/
def Unpacks (h : Host) (version : Points) (bytes : Bytes) : Prop :=
  ∃ archive, Fetch.Gives h (c.archiveAddress version) archive ∧
    Compression.unpack archive = .ok bytes

variable (c) in
/-- Whether the archive of a version breaks the format inside its envelope, or its address names no
file that there could be. -/
def ArchiveFlawed (h : Host) (version : Points) : Prop :=
  Fetch.Unfit h (c.archiveAddress version) ∨
    ∃ archive, Fetch.Gives h (c.archiveAddress version) archive ∧
      Compression.unpack archive = .error .corrupt

/-- What a download comes to: the bytes of the archive, or a failure to install, unless the archive
is flawed. -/
theorem unpacked_cases {chosen : Points} (filed : (Fetch.file? (c.archiveAddress chosen)).isSome)
    (h : Host) :
    (∃ bytes, c.Unpacks h chosen bytes ∧ ¬ c.ArchiveFlawed h chosen ∧
      (c.unpacked chosen).perform h = (.ok bytes, h)) ∨
    (¬ ∃ bytes, c.Unpacks h chosen bytes) ∧ ∃ e, (c.unpacked chosen).perform h = (.error e, h) ∧
        (e.IsInstallation ↔ ¬ c.ArchiveFlawed h chosen) := by
  unfold unpacked
  dsimp only
  rcases Fetch.read_cases filed h with
    ⟨archive, gives, read⟩ | ⟨unfit, e, failed, kind⟩ | ⟨fit, none, e, failed, system⟩
  · have fetched {handle : Fault → Action Bytes} :
        (orSystem (Fetch.read (c.archiveAddress chosen)) handle).perform h = (.ok archive, h) :=
      perform_orSystem_ok read
    have only {archive' : Bytes} (gives' : Fetch.Gives h (c.archiveAddress chosen) archive') :
        archive' = archive :=
      gives.unique gives'
    have flawed : c.ArchiveFlawed h chosen ↔ Compression.unpack archive = .error .corrupt := by
      constructor
      · rintro (unfit | ⟨archive', gives', corrupt⟩)
        · exact absurd ⟨archive, gives⟩ unfit.gives_none
        · exact only gives' ▸ corrupt
      · exact fun corrupt => .inr ⟨archive, gives, corrupt⟩
    have packed {flaw : Compression.Flaw} (failed : Compression.unpack archive = .error flaw) :
        ¬ ∃ bytes, c.Unpacks h chosen bytes := by
      rintro ⟨bytes, archive', gives', unpacked⟩
      obtain rfl := only gives'
      cases failed.symm.trans unpacked
    rw [perform_bind_ok fetched, flawed]
    cases unpacked : Compression.unpack archive with
    | ok bytes => exact .inl ⟨bytes, ⟨archive, gives, unpacked⟩, nofun, rfl⟩
    | error flaw =>
      cases flaw with
      | corrupt => exact .inr ⟨packed unpacked, _, rfl, iff_of_false nofun fun sound => sound rfl⟩
      | _ =>
        exact .inr ⟨packed unpacked, _, rfl,
          iff_of_true (installFailure_isInstallation _ _ _) nofun⟩
  · have foreign : e.fromSystem = false ∧ ¬ e.IsInstallation := by
      rcases kind with ⟨p, rfl⟩ | ⟨-, rfl⟩ <;> exact ⟨rfl, nofun⟩
    refine .inr ⟨fun ⟨_, archive, gives, _⟩ => unfit.gives_none ⟨archive, gives⟩, e,
      perform_bind_error (perform_orSystem_foreign failed foreign.1),
      iff_of_false foreign.2 fun sound => sound (.inl unfit)⟩
  · refine .inr ⟨fun ⟨_, archive, gives, _⟩ => none ⟨archive, gives⟩, _,
      perform_bind_error (perform_orSystem_handled failed system),
      iff_of_true (installFailure_isInstallation _ _ _) ?_⟩
    rintro (unfit | ⟨archive, gives, -⟩)
    · exact fit unfit
    · exact none ⟨archive, gives⟩

end Component
end ContractCheck
