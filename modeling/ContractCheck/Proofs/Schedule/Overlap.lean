import ContractCheck.Proofs.Schedule.Ledger

/-! # Passes on one document at a time

As long as no document is closed while a pause or a pass on it goes on, at most one pass on each
document is in flight: the state of the document tells that there is one, and of which kind
(`Tidy`).

Closing a document forgets its state, but not its tasks.  So when it is edited again, a pass begins
whatever goes on, and two passes on it are in flight.
-/
namespace ContractCheck.Schedule

variable {w : Surroundings} {allowed : Scheduler → Request → Prop}

/-- Whether no two passes on one document are in flight. -/
def OnePass (h : History) : Prop :=
  ∀ p ∈ inFlight h, ∀ q ∈ inFlight h, p.document.uri = q.document.uri → p = q

instance (h : History) : Decidable (OnePass h) :=
  inferInstanceAs (Decidable (∀ p ∈ inFlight h, ∀ q ∈ inFlight h,
    p.document.uri = q.document.uri → p = q))

/-- Whether there were never two passes on one document in flight. -/
def AlwaysOnePass (h : History) : Prop := ∀ older, older <:+ h → OnePass older

theorem AlwaysOnePass.of_each {h : History} (now : OnePass h)
    (before : Each (fun _ older => OnePass older) h) :
    AlwaysOnePass h := by
  rintro older ⟨newer, rfl⟩
  rcases List.eq_nil_or_concat newer with rfl | ⟨newer, n, rfl⟩
  · exact now
  -- The first of the newer notes came when `older` were all notes.
  · rw [List.concat_eq_append, List.append_assoc] at before
    exact before.of_append.1

/-! ## What states say about tasks on one document -/

/-- No task pauses for a document or is in a pass on it, except as its state says. -/
structure Tidy (m : Moment) (uri : Text) : Prop where
  pause : ∀ id, m.pause? id = some uri → ∃ st, m.scheduler.state? uri = some st ∧
    st.phase = .scheduled
  pass : ∀ id p, m.pass? id = some p → p.document.uri = uri →
    ∃ st, m.scheduler.state? uri = some st ∧ st.phase = .running ∧ st.serial = p.serial
  onePause : ∀ id id', m.pause? id = some uri → m.pause? id' = some uri → id = id'
  onePass : ∀ id id' p p', m.pass? id = some p → m.pass? id' = some p' → p.document.uri = uri →
    p'.document.uri = uri → id = id'

/-- No task pauses for a document or is in a pass on it. -/
def Moment.Clear (m : Moment) (uri : Text) : Prop :=
  (∀ id, m.pause? id ≠ some uri) ∧ ∀ id p, m.pass? id = some p → p.document.uri ≠ uri

theorem Moment.Clear.tidy {m : Moment} {uri : Text} (h : m.Clear uri) : Tidy m uri where
  pause id there := absurd there (h.1 id)
  pass id p holds about := absurd about (h.2 id p holds)
  onePause id _ there := absurd there (h.1 id)
  onePass id _ p _ holds _ about := absurd about (h.2 id p holds)

/-- A document that is neither scheduled nor running has no tasks. -/
theorem Tidy.clear {m : Moment} {uri : Text} (h : Tidy m uri)
    (idle : m.scheduler.busy uri = false) :
    m.Clear uri := by
  refine ⟨fun id there => ?_, fun id p holds about => ?_⟩
  · obtain ⟨st, known, phase⟩ := h.pause id there
    simp [Scheduler.busy, known, DocState.busy, phase] at idle
  · obtain ⟨st, known, phase, -⟩ := h.pass id p holds about
    simp [Scheduler.busy, known, DocState.busy, phase] at idle

/-- A document whose tasks and state stay as they are stays tidy. -/
theorem Tidy.mono {m n : Moment} {uri : Text} (h : Tidy m uri)
    (pass : ∀ id p, n.pass? id = some p → p.document.uri = uri → ∃ q, m.pass? id = some q ∧
      q.start = p.start)
    (pause : ∀ id, n.pause? id = some uri → m.pause? id = some uri)
    (state : ∀ st, m.scheduler.state? uri = some st →
      ∃ st', n.scheduler.state? uri = some st' ∧ st'.phase = st.phase ∧ st'.serial = st.serial) :
    Tidy n uri where
  pause id there := by
    obtain ⟨st, known, phase⟩ := h.pause id (pause id there)
    obtain ⟨st', known', phase', -⟩ := state st known
    exact ⟨st', known', phase'.trans phase⟩
  pass id p holds about := by
    obtain ⟨q, before, same⟩ := pass id p holds about
    have about' : q.document.uri = uri := by
      rw [← Pass.start_document, same, Pass.start_document, about]
    obtain ⟨st, known, phase, own⟩ := h.pass id q before about'
    obtain ⟨st', known', phase', serial⟩ := state st known
    refine ⟨st', known', phase'.trans phase, ?_⟩
    rw [serial, own, ← Pass.start_serial, same, Pass.start_serial]
  onePause id id' there there' := h.onePause id id' (pause id there) (pause id' there')
  onePass id id' p p' holds holds' about about' := by
    obtain ⟨q, before, same⟩ := pass id p holds about
    obtain ⟨q', before', same'⟩ := pass id' p' holds' about'
    refine h.onePass id id' q q' before before' ?_ ?_
    · rw [← Pass.start_document, same, Pass.start_document, about]
    · rw [← Pass.start_document, same', Pass.start_document, about']

/-- All documents are tidy. -/
def AllTidy (m : Moment) : Prop := ∀ uri, Tidy m uri

theorem AllTidy.onePass {m : Moment} (h : AllTidy m) (recorded : Recorded m) :
    OnePass m.history := by
  intro p flying q flying' same
  obtain ⟨id, p', holds, rfl⟩ := (recorded.flying p).mp flying
  obtain ⟨id', q', holds', rfl⟩ := (recorded.flying q).mp flying'
  obtain rfl := (h p'.document.uri).onePass id id' p' q' holds holds' rfl same.symm
  rw [Option.some.inj (holds.symm.trans holds')]

/-! ## Closing with care -/

/-- Whether no task pauses for a document or is in a pass on it. -/
def Clear (s : Scheduler) (uri : Text) : Prop :=
  ∀ id p, s.point? id = some p → p.pause? ≠ some uri ∧ ∀ q, p.pass? = some q → q.document.uri ≠ uri

theorem Clear.moment {s : Scheduler} {uri : Text} (h : Clear s uri) :
    Moment.Clear ⟨.free, s⟩ uri := by
  refine ⟨fun id there => ?_, fun id p holds => ?_⟩
  · cases stands : s.point? id with
    | none => simp [pause?_free, stands] at there
    | some point => exact (h id point stands).1 ((pause?_point stands).symm.trans there)
  · cases stands : s.point? id with
    | none => simp [pass?_free, stands] at holds
    | some point => exact (h id point stands).2 p ((pass?_point stands).symm.trans holds)

/-- The requests of an editor that closes a document only when nothing goes on for it. -/
def Careful (s : Scheduler) (r : Request) : Prop :=
  OfEditor s r ∧ ∀ d, r = .closed d → Clear s d.uri

/-- The pause that the edit of an idle document begins is its only task. -/
theorem AllTidy.hear_idle {s : Scheduler} {order : Nat} {d : Document} (h : AllTidy ⟨.free, s⟩)
    (numbered : Numbered ⟨.free, s⟩) (idle : s.busy d.uri = false) :
    Tidy ⟨.heard s.fresh order (.changed d), s.heard order (.changed d)⟩ d.uri := by
  have pass := hear_pass? order (.changed d) numbered
  obtain ⟨unpaused, unpassed⟩ := (h d.uri).clear idle
  rcases hear_pause? order (.changed d) numbered with ⟨busy, -⟩ | ⟨_, ⟨⟩, -, new, -, pauses⟩
  · cases idle.symm.trans (busy d rfl)
  have only : ∀ id, Moment.pause? ⟨.heard s.fresh order (.changed d), s.heard order (.changed d)⟩ id
      = some d.uri → id = new := by
    intro id there
    by_contra other
    rw [pauses, if_neg other] at there
    exact unpaused id there
  refine ⟨fun id there => ?_, fun id p holds about => ?_, fun id id' there there' => ?_,
    fun id id' p p' holds _ about => ?_⟩
  · refine ⟨_, (Scheduler.state?_heard ..).trans (if_pos rfl), ?_⟩
    have phase : ((s.state? d.uri).getD { serial := s.fresh + 1 }).phase = .idle := by
      cases known : s.state? d.uri with
      | none => rfl
      | some st => simpa [Scheduler.busy, known, DocState.busy] using idle
    simp [DocState.edited, phase]
  · exact absurd about (unpassed id p ((pass id).symm.trans holds))
  · exact (only id there).trans (only id' there').symm
  · exact absurd about (unpassed id p ((pass id).symm.trans holds))

/-- A document that is not closed stays in its phase, as an edit while it is busy only asks for one
more pass. -/
theorem heard_phase {s : Scheduler} {order : Nat} {r : Request} {uri : Text} {st : DocState}
    (known : s.state? uri = some st) (busy : ∀ d, r = .changed d → d.uri = uri → s.busy uri = true)
    (kept : ∀ d, r = .closed d → d.uri ≠ uri) :
    ∃ st', (s.heard order r).state? uri = some st' ∧ st'.phase = st.phase ∧
      st'.serial = st.serial := by
  refine ⟨(r.state uri (s.fresh + 1) s.now (some st)).getD st, ?_⟩
  rw [Scheduler.state?_heard, known]
  cases r with
  | opened d => by_cases same : uri = d.uri <;> simp [Request.state, same]
  | changed d =>
    by_cases same : uri = d.uri
    · have busy := busy d rfl same.symm
      rw [Scheduler.busy, known] at busy
      cases phase : st.phase <;> simp_all [Request.state, DocState.edited, DocState.busy]
    · simp [Request.state, same]
  | closed d => simp [Request.state, (kept d rfl).symm]
  | _ => simp [Request.state]

theorem AllTidy.hear {s : Scheduler} {order : Nat} {r : Request} (h : AllTidy ⟨.free, s⟩)
    (numbered : Numbered ⟨.free, s⟩) (careful : Careful s r) :
    AllTidy ⟨.heard s.fresh order r, s.heard order r⟩ := by
  intro uri
  have pass := hear_pass? order r numbered
  -- Only an edit of an idle document makes a task pause.
  by_cases started : ∃ d, r = .changed d ∧ d.uri = uri ∧ s.busy d.uri = false
  · obtain ⟨d, rfl, rfl, idle⟩ := started
    exact h.hear_idle numbered idle
  have pause : ∀ id, Moment.pause? ⟨.heard s.fresh order r, s.heard order r⟩ id = some uri →
      Moment.pause? ⟨.free, s⟩ id = some uri := by
    intro id there
    rcases hear_pause? order r numbered with ⟨-, same⟩ | ⟨d, changed, idle, new, none, pauses⟩
    · exact (same id).symm.trans there
    · rw [pauses] at there
      split at there
      · exact absurd ⟨d, changed, Option.some.inj there, idle⟩ started
      · exact there
  by_cases closed : ∃ d, r = .closed d ∧ d.uri = uri
  · obtain ⟨d, rfl, rfl⟩ := closed
    have clear := (careful.2 d rfl).moment
    refine Moment.Clear.tidy ⟨fun id there => clear.1 id (pause id there), fun id p holds => ?_⟩
    exact clear.2 id p ((pass id).symm.trans holds)
  · refine (h uri).mono (fun id p holds _ => ⟨p, (pass id).symm.trans holds, rfl⟩) pause ?_
    intro st known
    refine heard_phase known (fun d changed same => ?_) fun d was same => closed ⟨d, was, same⟩
    by_contra idle
    exact started ⟨d, changed, same, by simpa [same] using idle⟩

theorem AllTidy.launch {m : Moment} {id : Nat} {starter : Starter} {d : Document} {next : Following}
    (h : AllTidy m) (ready : Ready m id starter d next) (unasked : Unasked m) : AllTidy
      ⟨.pass id .begun (m.scheduler.launch starter d).1 next,
        (m.scheduler.launch starter d).2⟩ := by
  intro uri
  have pass := launch_pass? ready
  have pause : ∀ x, Moment.pause?
      ⟨.pass id .begun (m.scheduler.launch starter d).1 next, (m.scheduler.launch starter d).2⟩
      x = some uri →
      x ≠ id ∧ m.pause? x = some uri := by
    intro x there
    rw [launch_pause? ready] at there
    split at there
    · cases there
    · next other => exact ⟨other, there⟩
  by_cases same : uri = d.uri
  · subst same
    -- All tasks for the document but the one that goes on are excluded by its state.
    have others : (∀ x, x ≠ id → m.pause? x ≠ some d.uri) ∧
        ∀ x p, m.pass? x = some p → p.document.uri ≠ d.uri := by
      cases ready with
      | opened idle current =>
        obtain ⟨unpaused, unpassed⟩ := (h d.uri).clear idle
        exact ⟨fun x _ => unpaused x, unpassed⟩
      | @asked s id order d still => exact absurd rfl (unasked id order d)
      | swept idle =>
        obtain ⟨unpaused, unpassed⟩ := (h d.uri).clear idle
        exact ⟨fun x _ => unpaused x, unpassed⟩
      | pause stands known due current =>
        have here := pause?_point stands
        refine ⟨fun x other there => other ((h d.uri).onePause x id there here),
          fun x p holds about => ?_⟩
        obtain ⟨st, before, scheduled⟩ := (h d.uri).pause id here
        obtain ⟨st', before', running, -⟩ := (h d.uri).pass x p holds about
        obtain rfl := Option.some.inj (before.symm.trans before')
        cases scheduled.symm.trans running
    have only : ∀ x p, Moment.pass?
        ⟨.pass id .begun (m.scheduler.launch starter d).1 next, (m.scheduler.launch starter d).2⟩
        x = some p →
        p.document.uri = d.uri → x = id ∧ p = (m.scheduler.launch starter d).1 := by
      intro x p holds about
      rw [pass] at holds
      split at holds
      · next mine => exact ⟨mine, (Option.some.inj holds).symm⟩
      · exact absurd about (others.2 x p holds)
    refine ⟨fun x there => ?_, fun x p holds about => ?_, fun x x' there => ?_,
      fun x x' p p' holds holds' about about' => ?_⟩
    · exact absurd (pause x there).2 (others.1 x (pause x there).1)
    · refine ⟨_, (Scheduler.state?_launch ..).trans (if_pos rfl), rfl, ?_⟩
      rw [(only x p holds about).2, Scheduler.launch_fst]
    · exact absurd (pause x there).2 (others.1 x (pause x there).1)
    · exact (only x p holds about).1.trans (only x' p' holds' about').1.symm
  · refine (h uri).mono ?_ (fun x there => (pause x there).2) ?_
    · intro x p holds about
      rw [pass] at holds
      split at holds
      · obtain rfl := Option.some.inj holds
        exact absurd about.symm same
      · exact ⟨p, holds, rfl⟩
    · intro st known
      exact ⟨st, by rw [Scheduler.state?_launch, if_neg same, known], rfl, rfl⟩

theorem AllTidy.finish {m : Moment} {s : Scheduler} {id : Nat} {p : Pass} {next : Following}
    {notes : History} (h : AllTidy m) (numbered : Numbered m) (holds : m.pass? id = some p)
    (turn : m.Turn id) (told : s = { m.scheduler with history := notes ++ m.history }) :
    AllTidy ⟨.task id next, s.endPass p⟩ := by
  intro uri
  have pass := finish_pass? p next numbered turn told
  have state : ∀ uri, s.state? uri = m.scheduler.state? uri := by rw [told]; exact fun _ => rfl
  by_cases same : uri = p.document.uri
  · subst same
    -- The pass was the only one on its document, and nothing paused for it.
    obtain ⟨st, known, running, own⟩ := (h p.document.uri).pass id p holds rfl
    have unpaused : ∀ x, m.pause? x ≠ some p.document.uri := by
      intro x there
      obtain ⟨st', known', scheduled⟩ := (h p.document.uri).pause x there
      obtain rfl := Option.some.inj (known.symm.trans known')
      cases running.symm.trans scheduled
    have unpassed : ∀ x q, Moment.pass? ⟨.task id next, s.endPass p⟩ x = some q →
        q.document.uri ≠ p.document.uri := by
      intro x q holds' about
      rw [pass] at holds'
      split at holds'
      · cases holds'
      · next other => exact other ((h p.document.uri).onePass x id q p holds' holds about rfl)
    rcases finish_pause? p next numbered turn holds told with
      ⟨pauses, -⟩ | ⟨new, -, pauses, st', known', own', rerun⟩
    · exact Moment.Clear.tidy ⟨fun x there => unpaused x ((pauses x).symm.trans there), unpassed⟩
    · have only : ∀ x, Moment.pause? ⟨.task id next, s.endPass p⟩ x = some p.document.uri →
          x = new := by
        intro x there
        by_contra other
        rw [pauses, if_neg other] at there
        exact unpaused x there
      refine ⟨fun x there => ?_, fun x q holds' about => absurd about (unpassed x q holds'),
        fun x x' there there' => (only x there).trans (only x' there').symm,
        fun x _ q _ holds' _ about => absurd about (unpassed x q holds')⟩
      refine ⟨DocState.after p st', ?_, by simp [DocState.after, own', rerun]⟩
      rw [Scheduler.state?_endPass, if_pos rfl, state, known']
      rfl
  · refine (h uri).mono ?_ ?_ ?_
    · intro x q holds' about
      rw [pass] at holds'
      split at holds'
      · cases holds'
      · exact ⟨q, holds', rfl⟩
    · intro x there
      rcases finish_pause? p next numbered turn holds told with
        ⟨pauses, -⟩ | ⟨new, -, pauses, -⟩
      · exact (pauses x).symm.trans there
      · rw [pauses] at there
        split at there
        · exact absurd (Option.some.inj there).symm same
        · exact there
    · intro st known
      exact ⟨st, by rw [Scheduler.state?_endPass, if_neg same, state, known], rfl, rfl⟩

theorem Effect.allTidy {m n : Moment} (e : Effect w Careful m n) (numbered : Numbered m)
    (unasked : Unasked m) (h : AllTidy m) : AllTidy n := by
  cases e with
  | quiet notes history plain documents state pass pause sweeps fresh lives heard =>
    intro uri
    refine (h uri).mono (fun id p holds _ => flying_of_pass pass holds)
      (fun id there => (pause id).symm.trans there) ?_
    exact fun st known => ⟨st, (state uri).trans known, rfl, rfl⟩
  | hear careful => exact h.hear numbered careful
  | @lapse s id uri wake stands closed =>
    intro u
    refine (h u).mono (fun x p holds _ => ⟨p, (lapse_pass? stands x).symm.trans holds, rfl⟩) ?_ ?_
    · intro x there
      rw [lapse_pause?] at there
      split at there
      · cases there
      · exact there
    · exact fun st known => ⟨st, (Scheduler.state?_place ..).trans known, rfl, rfl⟩
  | launch ready => exact h.launch ready unasked
  | finish notes holds follows turn outcome told => exact h.finish numbered holds turn told
  | @again s id order d runs => exact absurd rfl (unasked id order d)
  | list =>
    exact fun uri => (h uri).mono (fun id p holds _ => ⟨p, holds, rfl⟩) (fun id there => there)
      fun st known => ⟨st, known, rfl, rfl⟩

/-! ## Runs -/

theorem onePass_append {notes : History} (plain : ∀ n ∈ notes, n.2.Plain) {h : History}
    (one : OnePass h) :
    OnePass (notes ++ h) := by
  unfold OnePass
  rw [inFlight_append plain]
  exact one

theorem Effect.each_onePass {m n : Moment} (e : Effect w allowed m n) (now : OnePass m.history)
    (h : Each (fun _ older => OnePass older) m.history) :
    Each (fun _ older => OnePass older) n.history := by
  obtain ⟨notes, history, plain⟩ := e.extends
  rw [history]
  cases notes with
  | nil => exact h
  | cons x notes =>
    refine ⟨onePass_append plain now, h.append fun y _ mid sub => ?_⟩
    exact onePass_append (fun z inside => plain z (sub inside)) now

/-- As long as documents are closed with care, no two passes on one document are in flight. -/
theorem alwaysOnePass_of_careful {root : Option Text} {settings : Option ValidationSettings}
    {given : Option Linter} {events : List Scheduler.Event}
    (careful : Permitted w Careful (Scheduler.start w root settings given).2 events) :
    AlwaysOnePass ((Scheduler.start w root settings given).2.run w events).history := by
  have blank := start_blank (w := w) root settings given
  have nothing : inFlight (Scheduler.start w root settings given).2.history = [] := by
    have bare := inFlight_append blank.plain []
    rwa [List.append_nil] at bare
  have tidy : AllTidy ⟨.free, (Scheduler.start w root settings given).2⟩ := fun uri =>
    (Clear.moment fun id p stands => nomatch (blank.point? id).symm.trans stands).tidy
  have before : Each (fun _ older => OnePass older)
      (Scheduler.start w root settings given).2.history := by
    rw [← List.append_nil (Scheduler.start w root settings given).2.history]
    refine Each.append trivial fun n _ mid sub => ?_
    exact onePass_append (fun x inside => blank.plain x (sub inside)) nofun
  obtain ⟨faithful, -, tidy, each⟩ := invariant_run
    (fun m => Unasked m ∧ AllTidy m ∧ Each (fun _ older => OnePass older) m.history)
    (fun m n e faithful kept => ⟨e.unasked (fun _ d careful => careful.1 d rfl) kept.1,
      e.allTidy faithful.numbered kept.1 kept.2.1,
      e.each_onePass (kept.2.1.onePass faithful.recorded) kept.2.2⟩)
    blank ⟨nofun, tidy, before⟩ careful
  exact .of_each (tidy.onePass faithful.recorded) each

end ContractCheck.Schedule
