import ContractCheck.Proofs.Host.Onward
import ContractCheck.Proofs.Text.Encoding
import ContractCheck.Proofs.Text.Pieces
import ContractCheck.Proofs.Toolchain.Following
import ContractCheck.Proofs.Toolchain.Sparing

/-! # What is noted of an installation

A component that is installed is asked for its version, and the answer is noted in a file of its
own.  Later the version that is asked for is compared with what that file is read as
(`Text.reread`).  The two need not be the same text: a program tells its version as it likes, and
blanks around a version are not read back (`Component.Tells`).

So making sure of a component leaves something there, and a note that is the version asked for
exactly if the component tells that one (`Component.ensure_settles`).
-/
namespace ContractCheck

open FileSystem (placeOf)
open ContractCheck.Action

/-! ## Texts that are read back -/

namespace Text

theorem not_mem_unifyBreaks (t : Text) : '\r' ∉ unifyBreaks t := by
  fun_induction unifyBreaks t with
  | case1 => exact List.not_mem_nil
  | case2 r ih => simpa using ih
  | case3 c r _ ih =>
    rw [List.mem_cons, not_or]
    refine ⟨?_, ih⟩
    split
    · decide
    · next other => exact fun same => other same.symm

theorem unifyBreaks_of_not_mem {t : Text} (free : '\r' ∉ t) : unifyBreaks t = t := by
  fun_induction unifyBreaks t with
  | case1 => rfl
  | case2 r => exact absurd List.mem_cons_self free
  | case3 c r _ ih =>
    obtain ⟨first, rest⟩ := List.ne_and_not_mem_of_not_mem_cons free
    rw [if_neg (Ne.symm first), ih rest]

/-- What a file with a text in it is read as, without the blanks at both ends. -/
def reread (t : Text) : Text := trim (unifyBreaks t)

theorem reread_reread (t : Text) : reread (reread t) = reread t := by
  have free : '\r' ∉ reread t := fun mem => not_mem_unifyBreaks t (trim_subset _ mem)
  rw [reread, unifyBreaks_of_not_mem free]
  exact trim_trim _

end Text

/-! ## Fetching -/

namespace Fetch

theorem readOn_still (host path : Text) : Within Eq (readOn host path) := by
  unfold readOn
  dsimp only
  split
  · exact .throw _
  · split
    · exact .throw _
    · refine .bind .get fun _ => ?_
      split
      · exact .ask _ _
      · exact .throw _

theorem ask_still (address : Text) : Within Eq (ask address) := by
  refine .bind .get fun _ => ?_
  split
  · exact .pure _
  · exact .throw _
  · exact .throw _
  · exact .throw _

theorem readHalved_still (address : Points) (host path : Text) :
    Within Eq (readHalved address host path) := by
  unfold readHalved
  split
  · exact .throw _
  · split
    · exact .throw _
    · split
      · exact .throw _
      · exact .throw _

theorem read_still (address : Points) : Within Eq (read address) := by
  unfold read
  dsimp only
  split
  · exact .throw _
  · split
    · split
      · exact readOn_still _ _
      · exact ask_still _
    · split
      · exact readHalved_still _ _ _
      · exact .throw _

end Fetch

/-! ## What a component tells -/

namespace Component

variable {π : Premises} {h h' h'' : Host} {c : Component} {version : Text}

/-- What a program answered when it was asked for its version.  One that failed is taken by all that
it wrote. -/
def answer : Except FileError Finished → Text
  | .ok f =>
    if f.status = 0 then Utf8.readLenient f.output
    else Utf8.readLenient f.output ++ Utf8.readLenient f.errors
  | .error _ => []

variable (c)

/-- The version that is noted after a run: what the answer says, or the version that was downloaded
if it says none. -/
def told (version : Text) (outcome : Except FileError Finished) : Text :=
  (c.mark.read? (answer outcome)).getD version

/-- Whether a component tells the version that is asked for.  A data file tells the version itself,
and a program is taken by its answers in some runs of tools.  Either way it counts what is read
back. -/
def Tells (version : Text) (h : Host) (runs : List ToolRun) : Prop :=
  if c.partOf.isSome then Text.reread version = version
  else ∀ r ∈ runs, r.invocation = c.asking → Text.reread (c.told version (h.outcome r)) = version

/-- A component after it was made sure of: something is there, and what is noted is the version that
was asked for exactly if the component tells that one. -/
structure Settled (version : Text) (runs : List ToolRun) (h : Host) : Prop where
  there : h.files.isThere h.cwd c.path = true
  noted : version = [] ∨ ∃ bytes t, h.files.read h.cwd c.versionPath = .ok bytes ∧
    Utf8.read? bytes = some t ∧
    (Text.reread t = version ↔ c.Tells version h runs)

variable {c}

theorem Settled.installed_iff {runs : List ToolRun} (settled : c.Settled version runs h) :
    c.Installed version h ↔ version = [] ∨ c.Tells version h runs := by
  rcases settled.noted with rfl | ⟨bytes, t, read, decoded, same⟩
  · exact ⟨fun _ => .inl rfl, fun _ => ⟨settled.there, .inl rfl⟩⟩
  · rw [← same]
    constructor
    · rintro ⟨-, none | ⟨bytes', t', read', decoded', told⟩⟩
      · exact .inl none
      · obtain rfl := Except.ok.inj (read'.symm.trans read)
        obtain rfl := Option.some.inj (decoded'.symm.trans decoded)
        exact .inr told
    · rintro (none | told)
      · exact ⟨settled.there, .inl none⟩
      · exact ⟨settled.there, .inr ⟨bytes, t, read, decoded, told⟩⟩

/-- Only the runs in which a component is asked count. -/
theorem tells_congr {runs runs' : List ToolRun}
    (same : ∀ r, r.invocation = c.asking → (r ∈ runs ↔ r ∈ runs')) :
    c.Tells version h runs ↔ c.Tells version h runs' := by
  unfold Tells
  split
  · exact Iff.rfl
  · constructor
    · exact fun told r mem asked => told r ((same r asked).mpr mem) asked
    · exact fun told r mem asked => told r ((same r asked).mp mem) asked

theorem tells_append {runs more : List ToolRun} (other : ∀ r ∈ more, r.invocation ≠ c.asking) :
    c.Tells version h (runs ++ more) ↔ c.Tells version h runs :=
  tells_congr fun r asked => List.mem_append.trans (or_iff_left fun mem => other r mem asked)

theorem tells_prepend {runs more : List ToolRun} (other : ∀ r ∈ more, r.invocation ≠ c.asking) :
    c.Tells version h (more ++ runs) ↔ c.Tells version h runs :=
  tells_congr fun r asked => List.mem_append.trans (or_iff_right fun mem => other r mem asked)

/-! ## The parts of an installation -/

theorem installedVersion_still (c : Component) : Within Eq c.installedVersion := by
  refine .orSystem (.bind (.bind (.ask _ _) fun _ => ?_) fun _ => .pure _) fun _ => .pure _
  split
  · exact .pure _
  · exact .throw _

theorem fits_still (c : Component) (version : Text) : Within Eq (c.fits version) := by
  refine .bind (.look _ _) fun there => ?_
  split
  · exact .pure _
  · split
    · exact .pure _
    · exact .bind c.installedVersion_still fun _ => .pure _

theorem availableVersions_still (c : Component) : Within Eq c.availableVersions := by
  unfold availableVersions
  refine .bind (.tryCatch (Fetch.read_still _) fun e => ?_) fun bytes => ?_
  · split
    · exact .throw _
    · exact .throw _
    · split
      · exact .throw _
      · exact .throw _
  · dsimp only
    split
    · exact .throw _
    · split
      · split
        · exact .pure _
        · exact .throw _
      · exact .throw _

theorem unpacked_still (c : Component) (version : Points) : Within Eq (c.unpacked version) := by
  refine .bind (.orSystem (Fetch.read_still _) fun _ => .throw _) fun _ => ?_
  split
  · exact .pure _
  · exact .throw _
  · exact .throw _

/-- The places that a component is installed at. -/
def Own (cwd : Place) (c : Component) (q : Place) : Prop :=
  q = placeOf cwd c.path ∨ q = placeOf cwd c.versionPath

section Steps

variable {changed : Place → Prop} {run : Invocation → Prop}

theorem log_step (t : Terminal) (message : Text) : Within (π.Step changed run) (t.log message) := by
  cases t with
  | silent => exact .pure _
  | keeping => exact fun h on => .of_shown on _
  | echoing => exact fun h on => .of_printed on _

theorem announce_step (t : Terminal) (version : Points) :
    Within (π.Step changed run) (c.announce t version) := by
  unfold announce
  dsimp only
  split
  · exact .bind (log_step _ _) fun _ => Premises.log_step _ _ _ _
  · split
    · exact .throw _
    · exact .bind (log_step _ _) fun _ => Premises.open_step

theorem conclude_step (command : Text) (finished : Finished) :
    Within (π.Step changed run) (c.conclude .silent command finished) := by
  have presented (out errors : Text) :
      Within (π.Step changed run) (Terminal.silent.present out errors) := by
    unfold Terminal.present
    cases out.isEmpty <;> cases errors.isEmpty <;> exact .of_still fun _ => rfl
  refine .bind (presented _ _) fun _ => .bind (Premises.log_step _ _ _ _) fun _ => ?_
  split
  · exact .pure _
  · exact .throw _

theorem resolveVersion_step (expected : c.partOf = none → π.expected c.asking) (ok : run c.asking)
    (version : Text) :
    Within (π.Step changed run) (c.resolveVersion version) := by
  unfold resolveVersion
  split
  · exact .pure _
  · next program =>
    have expected := expected (Option.not_isSome_iff_eq_none.mp program)
    refine .bind (.tryCatch ?_ fun e => ?_) fun _ => .pure _
    · refine .bind (.look _ _) fun there => ?_
      have started : Within (π.Step changed run) (do
          Log.debug c.owner ("Running ".toList ++ c.path ++ [' '] ++
            (Value.list (["--version".toList].map .text)).display ++ " in ".toList ++ c.home)
          c.settle .silent (Text.join [' '] [c.path, "--version".toList])
            (← Action.runTool c.asking)) := by
        refine .bind (Premises.log_step _ _ _ _) fun _ =>
          .bind (Premises.runTool_step expected ok) fun outcome => ?_
        cases outcome with
        | error e =>
          rw [settle]
          split
          · exact .throw _
          · exact .throw _
        | ok finished => exact conclude_step _ _
      cases there with
      | false => exact .bind (.throw _) fun _ => started
      | true => exact started
    · split
      · split
        · exact .pure _
        · exact .throw _
      · exact .throw _

/-- The program is written where the component is. -/
theorem place_step (own : ∀ q, c.Own π.cwd q → changed q) (bytes : Bytes) :
    Within (π.Step changed run) (c.place bytes) := by
  refine .bind (Premises.makeDirectories_step _) fun _ =>
    .bind (Premises.writeFile_step (own _ (.inl rfl)) bytes) fun _ => ?_
  split
  · refine Premises.change_step (change_adds fun _ _ _ made =>
      ⟨FileSystem.makeExecutable_grows made, FileSystem.makeExecutable_locked made⟩) ?_
    exact fun _ _ made q _ => FileSystem.makeExecutable_content made q
  · exact .pure _

variable (expected : c.partOf = none → π.expected c.asking) (own : ∀ q, c.Own π.cwd q → changed q)
  (ok : run c.asking)
include expected own ok

theorem settleIn_step (t : Terminal) (version : Points) (bytes : Bytes) :
    Within (π.Step changed run) (c.settleIn t version bytes) := by
  refine .bind (.orSystem (place_step own bytes) fun _ => .throw _) fun _ =>
    .bind (resolveVersion_step expected ok _) fun resolved => ?_
  split
  · exact .bind (Premises.writeFile_step (own _ (.inr rfl)) _) fun _ => .throw _
  · exact .bind (Premises.writeFile_step (own _ (.inr rfl)) _) fun _ => log_step _ _

theorem install_step (t : Terminal) (version : Points) :
    Within (π.Step changed run) (c.install t version) :=
  .bind (announce_step t version) fun _ => .bind (.of_still (c.unpacked_still version)) fun bytes =>
    settleIn_step expected own ok t version bytes

/-- **Making sure of a component** runs no tool but the component, and changes files at its own
places only. -/
theorem ensure_step (t : Terminal) (version : Text) :
    Within (π.Step changed run) (c.ensure t version) := by
  refine .bind (.of_still (c.fits_still version)) fun fitting => ?_
  split
  · exact .pure _
  · split
    · refine .bind (.of_still c.availableVersions_still) fun versions => ?_
      split
      · exact .throw _
      · exact .bind (install_step expected own ok t _) fun _ => .pure _
    · exact .bind (install_step expected own ok t _) fun _ => .pure _

end Steps

/-! ## What is noted -/

/-- What a run of a program can come to: what it wrote, a failure that tells it, or that it was
never started. -/
inductive Reports (answer : Text) : Except Fault Text → Prop where
  | wrote : Reports answer (.ok answer)
  | failed {f : Failure} (kind : f.kind = .toolRun) (output : f.output = .text answer) :
      Reports answer (.error (.failure f))
  | unstarted {e : FileError} {path : Text} : Reports answer (.error (.file e path))

theorem settle_reports (c : Component) (opened : ¬ h.LogPlanned) (command : Text)
    (outcome : Except FileError Finished) :
    ∃ result h', (c.settle .silent command outcome).perform h = (result, h') ∧ h'.runs = h.runs ∧
      Reports (answer outcome) result := by
  cases outcome with
  | error e =>
    rw [settle]
    split
    · exact ⟨_, h, rfl, rfl, .failed rfl rfl⟩
    · exact ⟨_, h, rfl, rfl, .unstarted⟩
  | ok finished =>
    have presented : (Terminal.silent.present (Utf8.readLenient finished.output)
        (Utf8.readLenient finished.errors)).perform h = (.ok ⟨⟩, h) := by
      unfold Terminal.present
      cases (Utf8.readLenient finished.output).isEmpty <;> cases
        (Utf8.readLenient finished.errors).isEmpty <;> rfl
    obtain ⟨h', logged, records⟩ :=
      Log.debug_logged c.owner ("Exited with code ".toList ++ Text.ofInt finished.status)
      [("component".toList, .text c.name)] h fun settings planned =>
        absurd ⟨settings, planned⟩ opened
    have runs : h'.runs = h.runs := records.shows.runs.trans (List.append_nil _)
    rw [settle]
    unfold conclude
    rw [perform_bind_ok presented, perform_bind_ok logged]
    have said : answer (.ok finished) = if finished.status = 0 then Utf8.readLenient finished.output
      else Utf8.readLenient finished.output ++ Utf8.readLenient finished.errors := rfl
    by_cases well : finished.status = 0
    · rw [said, if_pos well, if_pos well]
      exact ⟨_, h', rfl, runs, .wrote⟩
    · rw [said, if_neg well, if_neg well]
      exact ⟨_, h', rfl, runs, .failed rfl rfl⟩

/-- **The version that is noted** is told by one run of the program, or is the one that was
downloaded. -/
theorem resolveVersion_told {resolved : Text} (opened : ¬ h.LogPlanned)
    (done : (c.resolveVersion version).perform h = (.ok resolved, h')) :
    (c.partOf.isSome ∧ resolved = version ∧ h'.runs = h.runs) ∨
      (c.partOf = none ∧ ∃ r : ToolRun, r.invocation = c.asking ∧ h'.runs = h.runs ++ [r] ∧
        resolved = c.told version (h.outcome r)) := by
  unfold resolveVersion at done
  split at done
  · next part =>
    obtain ⟨same, rfl⟩ := Prod.mk.inj done
    exact .inl ⟨part, (Except.ok.inj same).symm, rfl⟩
  · next program =>
    refine .inr ⟨Option.not_isSome_iff_eq_none.mp program, ?_⟩
    obtain ⟨out, h₁, caught, given⟩ := ok_of_bind done
    obtain ⟨same, rfl⟩ := Prod.mk.inj given
    obtain rfl := Except.ok.inj same
    rw [perform_tryCatch] at caught
    have found : c.isInstalled.perform h = (.ok (h.files.isThere h.cwd c.path), h) := rfl
    unfold Component.run at caught
    dsimp only at caught
    rw [perform_bind_ok found] at caught
    cases there : h.files.isThere h.cwd c.path with
    | false =>
      rw [there] at caught
      cases caught
    | true =>
      obtain ⟨h₂, logged, records⟩ :=
        Log.debug_logged c.owner ("Running ".toList ++ c.path ++ [' '] ++
        (Value.list (["--version".toList].map .text)).display ++ " in ".toList ++ c.home) [] h
        fun settings planned => absurd ⟨settings, planned⟩ opened
      rw [there, if_neg (show ¬ (!true) = true by decide), perform_bind_ok logged,
        perform_bind_ok (perform_runTool _ h₂)] at caught
      obtain ⟨result, h₃, settled, runs, reports⟩ := c.settle_reports (h := h₂.ran c.asking)
        (fun ⟨settings, planned⟩ => opened (records.opens ⟨settings, planned⟩))
        (Text.join [' '] [c.path, "--version".toList])
        (h₂.outcome { invocation := c.asking, files := h₂.files })
      have noted : h₃.runs = h.runs ++ [{ invocation := c.asking, files := h₂.files }] := by
        rw [runs, Host.ran, records.shows.runs, List.append_nil]
      refine ⟨{ invocation := c.asking, files := h₂.files }, rfl, ?_⟩
      have seen : h₂.outcome { invocation := c.asking, files := h₂.files } =
          h.outcome { invocation := c.asking, files := h₂.files } := by rw [records.shows.outcome]
      change orElse _ ((c.settle .silent (Text.join [' '] [c.path, "--version".toList])
        (h₂.outcome { invocation := c.asking, files := h₂.files })).perform (h₂.ran c.asking)) =
          _ at caught
      rw [settled] at caught
      rw [seen] at reports
      cases reports with
      | wrote =>
        obtain ⟨out, rfl⟩ := Prod.mk.inj caught
        obtain rfl := Except.ok.inj out
        exact ⟨noted, rfl⟩
      | failed kind output =>
        dsimp only [orElse] at caught
        rw [if_pos kind, output] at caught
        obtain ⟨out, rfl⟩ := Prod.mk.inj caught
        obtain rfl := Except.ok.inj out
        exact ⟨noted, rfl⟩
      | unstarted => cases caught

/-! ## Making sure of a component -/

theorem place_there {bytes : Bytes} (done : (c.place bytes).perform h = (.ok ⟨⟩, h')) :
    h'.files.isThere h'.cwd c.path = true ∧ (¬ h.LogPlanned → ¬ h'.LogPlanned) := by
  unfold place at done
  obtain ⟨_, h₁, made, done⟩ := ok_of_bind done
  obtain ⟨_, h₂, wrote, done⟩ := ok_of_bind done
  obtain ⟨fs, written, rfl⟩ := writeFile_done wrote
  have there := FileSystem.isThere_written written
  have log₁ : h₁.log = h.log ∧ h₁.cwd = h.cwd := by
    rw [perform_makeDirectories] at made
    obtain rfl := (Prod.mk.inj made).2
    exact ⟨rfl, rfl⟩
  have rest : h'.log = h₁.log ∧ h'.cwd = h₁.cwd ∧ fs.Grows h'.files := by
    split at done
    · rw [perform_change] at done
      split at done
      · next fs' allowed =>
        obtain rfl := (Prod.mk.inj done).2
        exact ⟨rfl, rfl, FileSystem.makeExecutable_grows allowed⟩
      · cases done
    · obtain rfl := (Prod.mk.inj done).2
      exact ⟨rfl, rfl, .refl _⟩
  obtain ⟨log, cwd, grows⟩ := rest
  refine ⟨cwd ▸ grows.isThere there, fun opened ⟨settings, planned⟩ => opened ⟨settings, ?_⟩⟩
  rw [← log₁.1, ← log, planned]

/-- Once something is announced, the log is open. -/
theorem announce_opens {t : Terminal} {chosen : Points} {u : Unit}
    (done : (c.announce t chosen).perform h = (.ok u, h')) : ¬ h'.LogPlanned := by
  unfold announce at done
  dsimp only at done
  split at done
  · obtain ⟨_, h₁, -, done⟩ := ok_of_bind done
    exact Log.write_opens done
  · split at done
    · cases done
    · obtain ⟨_, h₁, -, done⟩ := ok_of_bind done
      exact Log.open_opens done

theorem log_files {t : Terminal} {message : Text}
    (done : (t.log message).perform h = (.ok ⟨⟩, h')) :
    h'.files = h.files ∧ h'.cwd = h.cwd ∧ h'.runs = h.runs := by
  cases t <;> obtain rfl := (Prod.mk.inj done).2 <;> exact ⟨rfl, rfl, rfl⟩

theorem installedVersion_done {noted : Option Text}
    (done : c.installedVersion.perform h = (.ok noted, h')) (given : version ≠ []) :
    noted = some version ↔ ∃ bytes t, h.files.read h.cwd c.versionPath = .ok bytes ∧
      Utf8.read? bytes = some t ∧ Text.reread t = version := by
  unfold installedVersion readText readFile at done
  rw [perform_orSystem, perform_bind, perform_bind, perform_ask] at done
  cases read : h.files.read h.cwd c.versionPath with
  | error e =>
    rw [read] at done
    dsimp only [Except.mapError, andThen, orElse] at done
    split at done
    · obtain rfl := Except.ok.inj (Prod.mk.inj done).1
      exact ⟨nofun, fun ⟨_, _, got, _⟩ => nomatch got⟩
    · cases done
  | ok bytes =>
    rw [read] at done
    dsimp only [Except.mapError, andThen] at done
    cases decoded : Utf8.read? bytes with
    | none =>
      rw [decoded] at done
      cases done
    | some t =>
      rw [decoded] at done
      obtain rfl := Except.ok.inj (Prod.mk.inj done).1
      have told : (∃ bytes' t', Except.ok (ε := FileError) bytes = .ok bytes' ∧
          Utf8.read? bytes' = some t' ∧
          Text.reread t' = version) ↔ Text.reread t = version := by
        constructor
        · rintro ⟨_, t', same, decoded', told⟩
          obtain rfl := Except.ok.inj same
          obtain rfl := Option.some.inj (decoded'.symm.trans decoded)
          exact told
        · exact fun told => ⟨bytes, t, rfl, decoded, told⟩
      rw [told, Text.reread]
      split
      · next none =>
        refine ⟨nofun, fun same => absurd ?_ given⟩
        rw [← same]
        exact List.isEmpty_iff.mp none
      · exact Option.some_inj

theorem fits_done {fitting : Bool} (done : (c.fits version).perform h = (.ok fitting, h')) :
    fitting = true ↔ c.Installed version h := by
  have found : c.isInstalled.perform h = (.ok (h.files.isThere h.cwd c.path), h) := rfl
  unfold Component.fits at done
  rw [perform_bind_ok found] at done
  cases there : h.files.isThere h.cwd c.path with
  | false =>
    rw [there] at done
    obtain rfl := Except.ok.inj (Prod.mk.inj done).1
    exact ⟨nofun, fun installed => absurd (there.symm.trans installed.there) Bool.false_ne_true⟩
  | true =>
    rw [there, if_neg (show ¬ (!true) = true by decide)] at done
    split at done
    · next any =>
      obtain rfl := Except.ok.inj (Prod.mk.inj done).1
      exact ⟨fun _ => ⟨there, .inl (List.isEmpty_iff.mp any)⟩, fun _ => rfl⟩
    · next given =>
      have given : version ≠ [] := fun none => given (List.isEmpty_iff.mpr none)
      obtain ⟨noted, h₁, looked, compared⟩ := ok_of_bind done
      obtain rfl := Except.ok.inj (Prod.mk.inj compared).1
      rw [beq_iff_eq, installedVersion_done looked given]
      exact ⟨fun told => ⟨there, .inr told⟩, fun installed => installed.version.resolve_left given⟩

/-- What was made sure of was installed before, or is installed in the version asked for; without a
version it may be any. -/
theorem ensure_done {t : Terminal} {fetched : Bool}
    (done : (c.ensure t version).perform h = (.ok fetched, h')) :
    c.Installed version h ∧ h' = h ∨
      ∃ chosen, (version = [] ∨ chosen = .ofText version) ∧
        (c.install t chosen).perform h = (.ok ⟨⟩, h') := by
  unfold ensure at done
  obtain ⟨fitting, h₁, looked, done⟩ := ok_of_bind done
  have fits := fits_done looked
  obtain rfl := (c.fits_still version).after looked
  split at done
  · next found => exact .inl ⟨fits.mp found, (Prod.mk.inj done).2.symm⟩
  · split at done
    · next any =>
      obtain ⟨versions, h₁, listed, done⟩ := ok_of_bind done
      obtain rfl := (c.availableVersions_still).after listed
      split at done
      · cases done
      · obtain ⟨_, h₁, installs, last⟩ := ok_of_bind done
        obtain rfl := (Prod.mk.inj last).2
        exact .inr ⟨_, .inl (List.isEmpty_iff.mp any), installs⟩
    · obtain ⟨_, h₁, installs, last⟩ := ok_of_bind done
      obtain rfl := (Prod.mk.inj last).2
      exact .inr ⟨_, .inr rfl, installs⟩

/-- A note that was there for the version is what the component tells as long as it is not asked. -/
theorem Installed.settled (installed : c.Installed version h) : c.Settled version [] h where
  there := installed.there
  noted := installed.version.imp_right fun ⟨bytes, t, read, decoded, told⟩ => by
    refine ⟨bytes, t, read, decoded, fun _ => ?_, fun _ => told⟩
    unfold Tells
    split
    · rw [← told]
      exact Text.reread_reread t
    · exact nofun

variable (expected : c.partOf = none → π.expected c.asking) (site : π.site c.path)
  (note : π.note c.versionPath)
include expected site note

/-- **An installation leaves something there and a note**, of the version that the program told if
it was asked for one. -/
theorem install_leaves {t : Terminal} {chosen : Points} (on : h.On π)
    (done : (c.install t chosen).perform h = (.ok ⟨⟩, h')) :
    h'.files.isThere h'.cwd c.path = true ∧ ∃ resolved new,
      h'.files.read h'.cwd c.versionPath = .ok (Utf8.encode resolved) ∧ h'.runs = h.runs ++ new ∧
      (c.partOf.isSome ∧ resolved = chosen.text?.getD [] ∧ new = [] ∨
        c.partOf = none ∧ ∃ r : ToolRun, new = [r] ∧ r.invocation = c.asking ∧
          resolved = c.told (chosen.text?.getD []) (h.outcome r)) := by
  obtain ⟨_, h₁, told, done⟩ := ok_of_bind done
  obtain ⟨bytes, h₂, fetched, done⟩ := ok_of_bind done
  obtain rfl := (c.unpacked_still _).after fetched
  obtain ⟨_, h₃, placed, done⟩ := ok_of_bind done
  obtain ⟨resolved, h₄, asked, done⟩ := ok_of_bind done
  have placed := ok_of_orSystem placed
  -- No tool is run until the program is in its place.
  have before : π.Onward (c.Own π.cwd) (fun _ => False) h h₃ := by
    have step : π.Step (c.Own π.cwd) (fun _ => False) h h₃ :=
      trans_of _ ((announce_step _ _).after told) ((place_step (fun _ => id) bytes).after placed)
    exact step on
  obtain ⟨new, runs₃, none⟩ := before.runs
  obtain rfl : new = [] := List.eq_nil_iff_forall_not_mem.mpr fun r mem => none r mem
  rw [List.append_nil] at runs₃
  obtain ⟨there₃, open₃⟩ := place_there placed
  have resolves : Within (π.Step (c.Own π.cwd) (· = c.asking))
      (c.resolveVersion (chosen.text?.getD [])) :=
    resolveVersion_step expected (by rfl) _
  have asks := resolves.after asked before.on
  have there₄ : h₄.files.isThere π.cwd c.path = true :=
    asks.stays.there c.path site (before.on.cwd ▸ there₃)
  split at done
  · obtain ⟨_, _, -, failed⟩ := ok_of_bind done
    cases failed
  · obtain ⟨_, h₅, wrote, done⟩ := ok_of_bind done
    obtain ⟨fs, written, rfl⟩ := writeFile_done wrote
    have noted := FileSystem.read_written written (asks.on.cwd.symm ▸ asks.on.legible _ note)
    obtain ⟨files, cwd, runs'⟩ := log_files done
    dsimp only at files cwd runs'
    rw [files, cwd, runs']
    refine ⟨asks.on.cwd ▸ (FileSystem.update_grows written).isThere (asks.on.cwd.symm ▸ there₄),
      resolved, ?_⟩
    rcases resolveVersion_told (open₃ (announce_opens told)) asked with
      ⟨part, rfl, runs₄⟩ | ⟨program, r, invocation, runs₄, told⟩
    · exact ⟨[], noted, by rw [runs₄, runs₃, List.append_nil], .inl ⟨part, rfl, rfl⟩⟩
    · rw [on.outcome before.on] at told
      exact ⟨[r], noted, by rw [runs₄, runs₃], .inr ⟨program, r, rfl, invocation, told⟩⟩

theorem install_settles {t : Terminal} {chosen : Points} (on : h.On π)
    (done : (c.install t chosen).perform h = (.ok ⟨⟩, h')) :
    ∃ new, h'.runs = h.runs ++ new ∧ (∀ r ∈ new, r.invocation = c.asking) ∧
      c.Settled (chosen.text?.getD []) new h' := by
  have onward : Within (π.Step (c.Own π.cwd) (· = c.asking)) (c.install t chosen) :=
    install_step expected (fun _ => id) (by rfl) t chosen
  have same := on.outcome (onward.after done on).on
  obtain ⟨there, resolved, new, noted, runs, tells⟩ := install_leaves expected site note on done
  rcases tells with ⟨part, rfl, rfl⟩ | ⟨program, r, rfl, asked, rfl⟩
  · refine ⟨[], runs, nofun, there, .inr ⟨_, _, noted, Utf8.read?_encode _, ?_⟩⟩
    rw [Tells, if_pos part]
  · refine ⟨[r], runs, List.forall_mem_singleton.mpr asked, there,
      .inr ⟨_, _, noted, Utf8.read?_encode _, ?_⟩⟩
    rw [Tells, if_neg (by rw [program]; exact Bool.false_ne_true), same]
    exact ⟨fun told => List.forall_mem_singleton.mpr fun _ => told,
      fun told => told r (List.mem_singleton_self r) asked⟩

/-- **A component that was made sure of** is there, and its note is the version asked for exactly if
it tells that one. -/
theorem ensure_settles {t : Terminal} {fetched : Bool} (on : h.On π)
    (done : (c.ensure t version).perform h = (.ok fetched, h')) :
    ∃ new, h'.runs = h.runs ++ new ∧ (∀ r ∈ new, r.invocation = c.asking) ∧
      c.Settled version new h' := by
  rcases ensure_done done with ⟨installed, rfl⟩ | ⟨chosen, any | rfl, installs⟩
  · exact ⟨[], (List.append_nil _).symm, nofun, installed.settled⟩
  · obtain ⟨new, runs, asked, settled⟩ := install_settles expected site note on installs
    exact ⟨new, runs, asked, settled.there, .inl any⟩
  · have settles := install_settles expected site note on installs
    rwa [Points.text?_ofText] at settles

end Component
end ContractCheck
