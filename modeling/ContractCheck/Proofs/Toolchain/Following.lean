import ContractCheck.Proofs.Host.Following
import ContractCheck.Toolchain.Basic

/-! # Runs of components

A component that is installed runs one tool, and what the tool wrote is shown.  If it fails, or
cannot be started, that is a failure of the toolchain and no other fault (`Component.run_ran`).  A
toolchain that is installed is left as it is (`Toolchain.ensure_installed`).
-/
namespace ContractCheck

open ContractCheck.Action

variable {h h' : Host}

/-! ## What is shown -/

namespace Host

/-- The host with more that tools wrote. -/
def showing (h : Host) (texts : List Text) : Host := { h with transcript := h.transcript ++ texts }

/-- The host after a run of a tool that nobody looked at yet. -/
def ran (h : Host) (i : Invocation) : Host :=
  { h with
    files := h.filesAfter { invocation := i, files := h.files }
    runs := h.runs ++ [{ invocation := i, files := h.files }] }

/-- A run that is shown is all that happened. -/
theorem shows_ran (h : Host) (i : Invocation) :
    h.Shows [{ invocation := i, files := h.files }]
      ((h.ran i).showing (h.written { invocation := i, files := h.files })) where
  cwd := rfl
  environment := rfl
  tools := rfl
  ready := ready_of_same rfl rfl
  runs := rfl
  transcript := by
    rw [List.flatMap_singleton]
    rfl

/-- Whether a tool can be started, but for reasons that the system gives. -/
def Starts (h : Host) (i : Invocation) : Prop :=
  ∀ fs e, (h.tools h.cwd h.environment i fs).1 = .error e → e.fromSystem = true

theorem Follows.starts {new : List ToolRun} (f : h.Follows new h') {i : Invocation}
    (starts : h.Starts i) :
    h'.Starts i := by
  intro fs e failed
  rw [f.tools, f.cwd, f.environment] at failed
  exact starts fs e failed

end Host

theorem Terminal.present_keeping (out errors : Text) (h : Host) :
    (Terminal.keeping.present out errors).perform h
      = (.ok ⟨⟩, h.showing ([out, errors].filter fun t => !t.isEmpty)) := by
  have wrote (t : Text) (h : Host) :
    (Terminal.keeping.write t).perform h = (.ok ⟨⟩, h.showing [t]) := rfl
  unfold present
  cases given : out.isEmpty <;> cases given' : errors.isEmpty
  · have both : (h.showing [out]).showing [errors] = h.showing [out, errors] := by
      simp [Host.showing]
    simp only [Bool.not_false, if_true, List.filter_cons, List.filter_nil, given, given']
    rw [perform_bind_ok (wrote out h), ← both]
    rfl
  · simp only [Bool.not_false, Bool.not_true, if_true, List.filter_cons, List.filter_nil,
      given, given']
    rw [perform_bind_ok (wrote out h)]
    rfl
  · simp only [Bool.not_false, Bool.not_true, if_true, List.filter_cons, List.filter_nil,
      given, given']
    rfl
  · have nothing : h.showing [] = h := by simp [Host.showing]
    simp only [Bool.not_true, List.filter_cons, List.filter_nil, given, given', Bool.false_eq_true,
      if_false, nothing]
    rfl

namespace Component

variable (c : Component)

/-! ## Running -/

/-- The run of a component. -/
def running (directory : Text) (arguments : List Text) : Invocation :=
  { program := c.path, arguments, directory }

/-- What running a tool comes to: what it wrote, or a failure of the toolchain.  Behind the run
there is only logging. -/
inductive Ran (i : Invocation) (h : Host) : Except Fault Text × Host → Prop where
  | done {finished : Finished} {r : ToolRun} {h' : Host} (invocation : r.invocation = i)
      (outcome : h.outcome r = .ok finished) (shows : h.Shows [r] h')
      (grows : (h.filesAfter r).Grows h'.files) :
        Ran i h (.ok (Utf8.readLenient finished.output), h')
  | failed {f : Failure} {r : ToolRun} {h' : Host} (invocation : r.invocation = i)
      (shows : h.Shows [r] h')
      (grows : (h.filesAfter r).Grows h'.files) (kind : f.kind.isA .toolchain = true) :
      Ran i h (.error (.failure f), h')

theorem Ran.after {i : Invocation} {h h' : Host} {out : Except Fault Text × Host}
    (ran : Ran i h' out)
    (beside : h.Beside h') : Ran i h out := by
  cases ran with
  | done invocation outcome shows grows =>
    exact .done invocation (beside.shows.outcome ▸ outcome) (beside.shows.trans shows)
      (beside.shows.filesAfter ▸ grows)
  | failed invocation shows grows kind =>
    exact .failed invocation (beside.shows.trans shows) (beside.shows.filesAfter ▸ grows) kind

theorem runFailure_toolRun (message : Text) (facts : Fields) :
    ∃ f, runFailure message facts = .failure f ∧ f.kind = .toolRun := by
  refine ⟨_, rfl, ?_⟩
  cases built : Failure.build? .toolRun message facts with
  | none => rfl
  | some f =>
    unfold Failure.build? at built
    obtain ⟨-, same⟩ := Option.ite_none_right_eq_some.mp built
    obtain rfl := Option.some.inj same
    rfl

theorem runFailure_kind (message : Text) (facts : Fields) :
    ∃ f, runFailure message facts = .failure f ∧ f.kind.isA .toolchain = true := by
  obtain ⟨f, same, kind⟩ := runFailure_toolRun message facts
  exact ⟨f, same, by rw [kind]; rfl⟩

/-- What a tool wrote is shown, whatever its status. -/
theorem conclude_ran {i : Invocation} (command : Text) {finished : Finished} (ready : h.LogReady)
    (outcome : h.outcome { invocation := i, files := h.files } = .ok finished) :
    Ran i h ((c.conclude .keeping command finished).perform (h.ran i)) := by
  have shows := h.shows_ran i
  have shown : h.written { invocation := i, files := h.files } = finished.shown := by
    rw [Host.written, outcome]
  rw [shown] at shows
  have logs := Log.debug_logs c.owner ("Exited with code ".toList ++ Text.ofInt finished.status)
    [("component".toList, .text c.name)]
  obtain ⟨h', logged, beside⟩ := logs ((h.ran i).showing finished.shown) (shows.ready ready)
  have after := shows.trans beside.shows
  rw [List.append_nil] at after
  have presented : (Terminal.keeping.present (Utf8.readLenient finished.output)
      (Utf8.readLenient finished.errors)).perform (h.ran i) =
        (.ok ⟨⟩, (h.ran i).showing finished.shown) :=
    Terminal.present_keeping _ _ _
  unfold conclude
  rw [perform_bind_ok presented, perform_bind_ok logged]
  split
  · exact .done rfl outcome after beside.grows
  · obtain ⟨f, failure, kind⟩ := runFailure_kind
      (c.name ++ " exited with code ".toList ++ Text.ofInt finished.status)
      [("exit_code".toList, .int finished.status), ("command".toList, .text command),
        ("output".toList,
          .text (Utf8.readLenient finished.output ++ Utf8.readLenient finished.errors))]
    rw [failure]
    exact .failed rfl after beside.grows kind

theorem settle_ran {i : Invocation} (command : Text) (ready : h.LogReady) (starts : h.Starts i) :
    Ran i h ((c.settle .keeping command (h.outcome { invocation := i, files := h.files })).perform
      (h.ran i)) := by
  cases outcome : h.outcome { invocation := i, files := h.files } with
  | ok finished => exact c.conclude_ran command ready outcome
  | error e =>
    have shows := h.shows_ran i
    have shown : h.written { invocation := i, files := h.files } = [] := by
      rw [Host.written, outcome]
    have same : (h.ran i).showing [] = h.ran i := by simp [Host.showing]
    rw [shown, same] at shows
    obtain ⟨f, failure, kind⟩ :=
      runFailure_kind ("Failed to start ".toList ++ c.name) [("command".toList, .text command)]
    rw [settle, if_pos (starts _ e outcome), failure]
    exact .failed rfl shows (.refl _) kind

/-- **A component that is installed** runs its tool once. -/
theorem run_ran {directory : Text} {arguments : List Text}
    (there : h.files.isThere h.cwd c.path = true) (ready : h.LogReady)
    (starts : h.Starts (c.running directory arguments)) :
    Ran (c.running directory arguments) h ((c.run .keeping directory arguments).perform h) := by
  have found : c.isInstalled.perform h = (.ok true, h) := by
    unfold isInstalled look
    rw [perform_bind_ok (perform_get h), there]
    rfl
  have logs := Log.debug_logs c.owner ("Running ".toList ++ c.path ++ [' '] ++
    (Value.list (arguments.map .text)).display ++ " in ".toList ++ directory) []
  obtain ⟨h', logged, beside⟩ := logs h ready
  unfold run
  rw [perform_bind_ok found, if_neg (show ¬ (!true) = true by decide),
    perform_bind_ok logged, perform_bind_ok (perform_runTool _ h')]
  exact (c.settle_ran _ (beside.shows.ready ready) (beside.shows.starts starts)).after beside

/-- A component that is missing runs no tool, which is a failure of the toolchain too. -/
theorem run_missing {directory : Text} {arguments : List Text}
    (gone : h.files.isThere h.cwd c.path = false) :
    ∃ f, (c.run .keeping directory arguments).perform h = (.error (.failure f), h) ∧
      f.kind.isA .toolchain = true := by
  have found : c.isInstalled.perform h = (.ok false, h) := by
    unfold isInstalled look
    rw [perform_bind_ok (perform_get h), gone]
    rfl
  unfold run
  rw [perform_bind_ok found]
  exact ⟨_, rfl, rfl⟩

/-! ## Being installed -/

/-- A component that is there in a version; any version will do if the one asked for is empty. -/
structure Installed (version : Text) (h : Host) : Prop where
  there : h.files.isThere h.cwd c.path = true
  version : version = [] ∨ ∃ bytes t, h.files.read h.cwd c.versionPath = .ok bytes ∧
    Utf8.read? bytes = some t ∧
    Text.trim (Text.unifyBreaks t) = version

variable {c}

theorem Installed.fits {version : Text} (installed : c.Installed version h) :
    (c.fits version).perform h = (.ok true, h) := by
  have found : c.isInstalled.perform h = (.ok true, h) := by
    unfold isInstalled look
    rw [perform_bind_ok (perform_get h), installed.there]
    rfl
  unfold Component.fits
  rw [perform_bind_ok found, if_neg (show ¬ (!true) = true by decide)]
  cases given : version.isEmpty with
  | true => rfl
  | false =>
    rcases installed.version with rfl | ⟨bytes, t, read, decoded, told⟩
    · cases given
    · have noted : c.installedVersion.perform h = (.ok (some version), h) := by
        unfold installedVersion readText readFile
        rw [perform_orSystem, perform_bind, perform_bind, perform_ask, read]
        dsimp only [Except.mapError, andThen]
        rw [decoded]
        dsimp only
        rw [perform_pure]
        dsimp only [andThen]
        rw [told, given]
        rfl
      rw [if_neg Bool.false_ne_true, perform_bind_ok noted, beq_self_eq_true]
      rfl

end Component

namespace Toolchain

/-- A toolchain whose components are there in the versions asked for. -/
def Installed (t : Toolchain) (h : Host) : Prop := ∀ w ∈ t.wanted, w.1.Installed w.2 h

/-- **A toolchain that is installed is left as it is.** -/
theorem ensure_installed {t : Toolchain} (installed : t.Installed h) (terminal : Terminal) :
    (t.ensure terminal).perform h = (.ok ⟨⟩, h) := by
  unfold ensure
  unfold Installed at installed
  generalize t.wanted = wanted at installed
  induction wanted with
  | nil => rfl
  | cons w rest ih =>
    obtain ⟨here, behind⟩ := List.forall_mem_cons.mp installed
    have kept : (w.1.ensure terminal w.2).perform h = (.ok false, h) := by
      unfold Component.ensure
      rw [perform_bind_ok here.fits]
      rfl
    unfold ensureEach
    rw [perform_bind_ok kept, ih behind]

end Toolchain
end ContractCheck
