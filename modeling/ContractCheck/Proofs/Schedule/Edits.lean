import ContractCheck.Proofs.Schedule.Ledger

/-! # No edit is lost

An edit is settled when a pass begins on the snapshot that the store then holds.  Until then
something is left that leads to such a pass: a pause, or a pass that is to be followed by one more
(`Pending`).  This rests on what the states of documents say about tasks (`Honest`): a running
document has a pass, a scheduled one has a pause, and both `scheduled` and `rerun` are said of open
documents only.

Nothing of this holds when single validations are asked for from outside: such a pass may leave a
document scheduled that is not open, and the next edit of it starts no pause.
-/
namespace ContractCheck.Schedule

variable {w : Surroundings} {allowed : Scheduler → Request → Prop}

/-! ## What states say about tasks -/

/-- What the state of a document says is true. -/
structure Honest (m : Moment) (uri : Text) (st : DocState) : Prop where
  running : st.phase = .running →
    ∃ id p, m.pass? id = some p ∧ p.document.uri = uri ∧ p.serial = st.serial
  scheduled : st.phase = .scheduled → ∃ id, m.pause? id = some uri
  stored : st.phase = .scheduled ∨ st.rerun = true → m.scheduler.documents.has uri = true
  rerun : st.rerun = true → st.phase = .running

theorem Honest.idle {m : Moment} {uri : Text} {st : DocState} (phase : st.phase = .idle)
    (rerun : st.rerun = false) : Honest m uri st := by
  refine ⟨?_, ?_, ?_, ?_⟩ <;> simp [phase, rerun]

/-- A state stays true when the passes and pauses that it is about stay. -/
theorem Honest.mono {m n : Moment} {uri : Text} {st : DocState} (h : Honest m uri st)
    (pass : ∀ id p, m.pass? id = some p → p.document.uri = uri → p.serial = st.serial →
      ∃ q, n.pass? id = some q ∧ q.start = p.start)
    (pause : ∀ id, m.pause? id = some uri → n.pause? id = some uri)
    (stored : m.scheduler.documents.has uri = true → n.scheduler.documents.has uri = true) :
    Honest n uri st where
  running phase := by
    obtain ⟨id, p, holds, about, own⟩ := h.running phase
    obtain ⟨q, holds', same⟩ := pass id p holds about own
    refine ⟨id, q, holds', ?_, ?_⟩
    · rw [← Pass.start_document q, same]
      exact about
    · rw [← Pass.start_serial q, same]
      exact own
  scheduled phase := by
    obtain ⟨id, there⟩ := h.scheduled phase
    exact ⟨id, pause id there⟩
  stored wanted := stored (h.stored wanted)
  rerun := h.rerun

/-- An edit leaves a true state if it puts the document and starts a pause when there was none. -/
theorem Honest.edited {m n : Moment} {uri : Text} {st : DocState} (h : Honest m uri st) (now : Rat)
    (pass : ∀ id p, m.pass? id = some p → n.pass? id = some p)
    (pause : ∀ id, m.pause? id = some uri → n.pause? id = some uri)
    (started : st.busy = false → ∃ id, n.pause? id = some uri)
    (stored : n.scheduler.documents.has uri = true) : Honest n uri (st.edited now) := by
  cases phase : st.phase with
  | running =>
    obtain ⟨id, p, holds, about, own⟩ := h.running phase
    have edited : st.edited now = { st with requestedAt := now, rerun := true } := by
      simp [DocState.edited, phase]
    rw [edited]
    exact ⟨fun _ => ⟨id, p, pass id p holds, about, own⟩, by simp [phase], fun _ => stored,
      fun _ => phase⟩
  | scheduled =>
    have edited : st.edited now = { st with requestedAt := now, phase := .scheduled } := by
      simp [DocState.edited, phase]
    rw [edited]
    obtain ⟨id, there⟩ := h.scheduled phase
    refine ⟨by simp, fun _ => ⟨id, pause id there⟩, fun _ => stored, fun rerun => ?_⟩
    cases phase.symm.trans (h.rerun rerun)
  | idle =>
    have edited : st.edited now = { st with requestedAt := now, phase := .scheduled } := by
      simp [DocState.edited, phase]
    rw [edited]
    refine ⟨by simp, fun _ => started (by simp [DocState.busy, phase]), fun _ => stored,
      fun rerun => ?_⟩
    cases phase.symm.trans (h.rerun rerun)

/-- The states of all documents are true. -/
def AllHonest (m : Moment) : Prop := ∀ uri st, m.scheduler.state? uri = some st → Honest m uri st

theorem AllHonest.hear {s : Scheduler} {order : Nat} {r : Request} (h : AllHonest ⟨.free, s⟩)
    (numbered : Numbered ⟨.free, s⟩) : AllHonest ⟨.heard s.fresh order r, s.heard order r⟩ := by
  intro uri st known
  have pass := hear_pass? order r numbered
  have keep : (s.documents.has uri = true → (r.store s.documents).has uri = true) →
      ∀ st, s.state? uri = some st → Honest ⟨.heard s.fresh order r, s.heard order r⟩ uri st := by
    intro stored st old
    refine (h uri st old).mono ?_ ?_ ?_
    · exact fun id p holds _ _ => ⟨p, (pass id).trans holds, rfl⟩
    · exact fun id there => hear_pause?_kept _ _ numbered there
    · rw [Scheduler.heard_documents]
      exact stored
  rw [Scheduler.state?_heard] at known
  cases r with
  | opened d =>
    simp only [Request.state] at known
    split at known
    · cases old : s.state? uri with
      | none =>
        rw [old] at known
        obtain rfl := Option.some.inj known
        exact .idle rfl rfl
      | some st' =>
        rw [old] at known
        obtain rfl := Option.some.inj known
        exact keep (fun has => DocumentStore.has_put has d) _ old
    · exact keep (fun has => DocumentStore.has_put has d) st known
  | changed d =>
    simp only [Request.state] at known
    split at known
    · next same =>
      subst same
      obtain rfl := Option.some.inj known
      have before : Honest ⟨.free, s⟩ d.uri ((s.state? d.uri).getD { serial := s.fresh + 1 }) := by
        cases old : s.state? d.uri with
        | none => exact .idle rfl rfl
        | some st' => exact h d.uri st' old
      -- Only for an idle document is a new pause needed, and there one begins.
      refine before.edited s.now ?_ ?_ ?_ ?_
      · exact fun id p holds => (pass id).trans holds
      · exact fun id there => hear_pause?_kept _ _ numbered there
      · intro idle
        rcases hear_pause? order (.changed d) numbered with
          ⟨busy, -⟩ | ⟨_, ⟨⟩, -, new, -, pauses⟩
        · have busy := busy d rfl
          cases old : s.state? d.uri <;> simp_all [Scheduler.busy]
        · exact ⟨new, by rw [pauses, if_pos rfl]⟩
      · rw [Scheduler.heard_documents]
        exact DocumentStore.has_put_self _ d
    · exact keep (fun has => DocumentStore.has_put has d) st known
  | saved d => exact keep (fun has => DocumentStore.has_put has d) st known
  | closed d =>
    simp only [Request.state] at known
    split at known
    · cases known
    · next other =>
        exact keep (fun has => (DocumentStore.has_remove_other other).trans has) st known
  | validate d => exact keep id st known
  | validateAll => exact keep id st known
  | configure settings => exact keep id st known
  | waitIdle => exact keep id st known

theorem AllHonest.launch {m : Moment} {id : Nat} {starter : Starter} {d : Document}
    {next : Following}
    (h : AllHonest m) (ready : Ready m id starter d next) : AllHonest
      ⟨.pass id .begun (m.scheduler.launch starter d).1 next,
        (m.scheduler.launch starter d).2⟩ := by
  intro uri st known
  have pass := launch_pass? ready
  rw [Scheduler.state?_launch] at known
  split at known
  · next same =>
    obtain rfl := Option.some.inj known
    refine ⟨fun _ => ⟨id, _, (pass id).trans (if_pos rfl), ?_, ?_⟩, by simp, ?_, by simp⟩
    · rw [Scheduler.launch_fst, same]
    · rw [Scheduler.launch_fst]
    · simp
  · next other =>
    refine (h uri st known).mono ?_ ?_ ?_
    · intro x p holds _ _
      have ne : x ≠ id := by
        rintro rfl
        cases ready.no_pass.symm.trans holds
      exact ⟨p, by rw [pass, if_neg ne, holds], rfl⟩
    · exact fun x there => launch_pause?_kept ready other there
    · rw [Scheduler.launch_documents]
      exact fun has => has

theorem AllHonest.finish {m : Moment} {s : Scheduler} {id : Nat} {p : Pass} {next : Following}
    {notes : History} (h : AllHonest m) (numbered : Numbered m) (holds : m.pass? id = some p)
    (turn : m.Turn id) (told : s = { m.scheduler with history := notes ++ m.history }) :
    AllHonest ⟨.task id next, s.endPass p⟩ := by
  intro uri st known
  have pass := finish_pass? p next numbered turn told
  have documents : (s.endPass p).documents = m.scheduler.documents := by
    rw [Scheduler.endPass_documents, told]
  have state : ∀ uri, s.state? uri = m.scheduler.state? uri := by rw [told]; exact fun _ => rfl
  have keep : ∀ st, m.scheduler.state? uri = some st →
      (uri = p.document.uri → st.serial ≠ p.serial) →
      Honest ⟨.task id next, s.endPass p⟩ uri st := by
    intro st old foreign
    refine (h uri st old).mono ?_ ?_ ?_
    · intro x q holds' about own
      -- A state that another pass runs for is not touched by the end of this one.
      have ne : x ≠ id := by
        rintro rfl
        obtain rfl := Option.some.inj (holds.symm.trans holds')
        exact foreign about.symm own.symm
      exact ⟨q, by rw [pass, if_neg ne, holds'], rfl⟩
    · exact fun x there => finish_pause?_kept _ _ numbered turn holds told there
    · rw [documents]
      exact fun has => has
  rw [Scheduler.state?_endPass, state] at known
  split at known
  · next same =>
    obtain ⟨old, before, rfl⟩ := Option.map_eq_some_iff.mp known
    have honest := h uri old before
    by_cases own : old.serial = p.serial
    · have after : DocState.after p old = { old with
          phase := if old.rerun then .scheduled else .idle, rerun := false,
            passes := old.passes + 1 } :=
        if_pos own
      rw [after]
      -- One more pass was asked for while this one ran, and so a pause begins; or nothing is left.
      cases rerun : old.rerun with
      | false => exact .idle rfl rfl
      | true =>
        refine ⟨by simp, fun _ => ?_, fun _ => ?_, by simp⟩
        · rcases finish_pause? p next numbered turn holds told with
            ⟨-, unwanted⟩ | ⟨new, -, pauses, -⟩
          · cases rerun.symm.trans (unwanted old (same ▸ before) own)
          · exact ⟨new, by rw [pauses, if_pos rfl, same]⟩
        · rw [documents]
          exact honest.stored (.inr rerun)
    · rw [show DocState.after p old = old from if_neg own]
      exact keep old before fun _ => own
  · next other => exact keep st known fun same => absurd same other

theorem Effect.allHonest {m n : Moment} (e : Effect w allowed m n) (numbered : Numbered m)
    (unasked : Unasked m) (h : AllHonest m) : AllHonest n := by
  cases e with
  | quiet notes history plain documents state pass pause sweeps fresh lives heard =>
    intro uri st known
    rw [state] at known
    refine (h uri st known).mono ?_ ?_ ?_
    · intro id p holds _ _
      exact flying_of_pass (fun id => (pass id).symm) holds
    · exact fun id there => (pause id).trans there
    · rw [documents]
      exact fun has => has
  | hear fine => exact h.hear numbered
  | @lapse s id uri wake stands closed =>
    intro u st known
    rw [Scheduler.state?_place] at known
    by_cases same : u = uri
    · -- The document is closed, so its state does not say that it is scheduled.
      subst same
      have absent : s.documents.has u = false := by
        rcases closed with unknown | absent
        · cases unknown.symm.trans known
        · rw [DocumentStore.has, absent]
          rfl
      have unscheduled : st.phase ≠ .scheduled := by
        intro phase
        cases absent.symm.trans ((h u st known).stored (.inl phase))
      refine ⟨fun phase => ?_, fun phase => absurd phase unscheduled, ?_, (h u st known).rerun⟩
      · obtain ⟨x, p, holds, facts⟩ := (h u st known).running phase
        exact ⟨x, p, (lapse_pass? stands x).trans holds, facts⟩
      · rw [Scheduler.place_documents]
        exact (h u st known).stored
    · refine (h u st known).mono ?_ ?_ ?_
      · exact fun x p holds _ _ => ⟨p, (lapse_pass? stands x).trans holds, rfl⟩
      · intro x there
        have ne : x ≠ id := by
          rintro rfl
          rw [pause?_point stands] at there
          exact same (Option.some.inj there).symm
        rw [lapse_pause?, if_neg ne, there]
      · rw [Scheduler.place_documents]
        exact fun has => has
  | launch ready => exact h.launch ready
  | finish notes holds follows turn outcome told => exact h.finish numbered holds turn told
  | @again s id order d runs => exact absurd rfl (unasked id order d)
  | list =>
    intro uri st known
    exact (h uri st known).mono (fun _ p holds _ _ => ⟨p, holds, rfl⟩) (fun _ there => there)
      fun has => has

/-! ## Edits that wait for a pass -/

/-- Whether a document was edited, not closed since, and no pass began on the snapshot that was then
in the store. -/
def Owed (uri : Text) : History → Prop
  | [] => False
  | (_, .received _ (.changed d)) :: older => d.uri = uri ∨ Owed uri older
  | (_, .received _ (.closed d)) :: older => d.uri ≠ uri ∧ Owed uri older
  | (_, .began _ p) :: older => (openAt older).get? uri ≠ some p.document ∧ Owed uri older
  | _ :: older => Owed uri older

theorem owed_append {notes : History} (plain : ∀ n ∈ notes, n.2.Plain) (uri : Text) (h : History) :
    Owed uri (notes ++ h) ↔ Owed uri h := by
  induction notes with
  | nil => exact .rfl
  | cons n notes ih =>
    obtain ⟨first, rest⟩ := List.forall_mem_cons.mp plain
    obtain ⟨t, n⟩ := n
    cases n with
    | received order r => exact first.elim
    | began starter p => exact first.elim
    | ended p => exact first.elim
    | _ => exact ih rest

/-- Something is left to do that leads to a pass on a document. -/
def Pending (m : Moment) (uri : Text) : Prop :=
  (∃ id, m.pause? id = some uri) ∨ ∃ st, m.scheduler.state? uri = some st ∧ st.rerun = true

/-- A document that waits for a pass: there is something to do, and it is open and known. -/
structure Watched (m : Moment) (uri : Text) : Prop where
  pending : Pending m uri
  known : m.scheduler.state? uri ≠ none
  stored : m.scheduler.documents.has uri = true

theorem Watched.mono {m n : Moment} {uri : Text} (h : Watched m uri)
    (pause : ∀ id, m.pause? id = some uri → n.pause? id = some uri)
    (state : n.scheduler.state? uri = m.scheduler.state? uri)
    (stored : n.scheduler.documents.has uri = m.scheduler.documents.has uri) : Watched n uri where
  pending := by
    rcases h.pending with ⟨id, there⟩ | ⟨st, known, rerun⟩
    · exact .inl ⟨id, pause id there⟩
    · exact .inr ⟨st, state.trans known, rerun⟩
  known := by
    rw [state]
    exact h.known
  stored := stored.trans h.stored

/-- What is owed has been watched so far. -/
def AllWatched (m : Moment) : Prop := ∀ uri, Owed uri m.history → Watched m uri

/-- A document that was just edited is watched: its pass runs and is to be followed by one more, or
there is a pause. -/
theorem watched_edited {s : Scheduler} {order : Nat} {d : Document}
    (honest : AllHonest ⟨.heard s.fresh order (.changed d), s.heard order (.changed d)⟩) :
    Watched ⟨.heard s.fresh order (.changed d), s.heard order (.changed d)⟩ d.uri := by
  have state : (s.heard order (.changed d)).state? d.uri
      = some (((s.state? d.uri).getD { serial := s.fresh + 1 }).edited s.now) := by
    rw [Scheduler.state?_heard]
    exact if_pos rfl
  refine ⟨?_, by simp [state], ?_⟩
  · have here := honest d.uri _ state
    cases phase : ((s.state? d.uri).getD { serial := s.fresh + 1 }).phase with
    | running => exact .inr ⟨_, state, by simp [DocState.edited, phase]⟩
    | scheduled => exact .inl (here.scheduled (by simp [DocState.edited, phase]))
    | idle => exact .inl (here.scheduled (by simp [DocState.edited, phase]))
  · rw [Scheduler.heard_documents]
    exact DocumentStore.has_put_self _ d

theorem AllWatched.hear {s : Scheduler} {order : Nat} {r : Request} (h : AllWatched ⟨.free, s⟩)
    (numbered : Numbered ⟨.free, s⟩)
    (honest : AllHonest ⟨.heard s.fresh order r, s.heard order r⟩) :
    AllWatched ⟨.heard s.fresh order r, s.heard order r⟩ := by
  intro uri owed
  have keep : Owed uri s.history →
      (r.state uri (s.fresh + 1) s.now (s.state? uri) = s.state? uri) →
      (s.documents.has uri = true → (r.store s.documents).has uri = true) →
      Watched ⟨.heard s.fresh order r, s.heard order r⟩ uri := by
    intro before state stored
    have old := h uri before
    refine old.mono (fun id there => hear_pause?_kept _ _ numbered there) ?_ ?_
    · rw [Scheduler.state?_heard]
      exact state
    · rw [Scheduler.heard_documents, stored old.stored]
      exact old.stored.symm
  rw [Moment.history, Scheduler.heard_history] at owed
  cases r with
  | opened d =>
    refine keep owed ?_ fun has => DocumentStore.has_put has d
    -- Opening makes a state only where there is none.
    obtain ⟨st, known⟩ := Option.ne_none_iff_exists'.mp (h uri owed).known
    simp only [Request.state]
    split
    · rw [known]
      rfl
    · rfl
  | changed d =>
    by_cases same : d.uri = uri
    · exact same ▸ watched_edited honest
    · exact keep (owed.resolve_left same) (if_neg fun eq => same eq.symm) fun has =>
        DocumentStore.has_put has d
  | saved d => exact keep owed rfl fun has => DocumentStore.has_put has d
  | closed d =>
    have other : uri ≠ d.uri := fun eq => owed.1 eq.symm
    exact keep owed.2 (if_neg other) fun has => (DocumentStore.has_remove_other other).trans has
  | validate d => exact keep owed rfl fun has => has
  | validateAll => exact keep owed rfl fun has => has
  | configure settings => exact keep owed rfl fun has => has
  | waitIdle => exact keep owed rfl fun has => has

theorem AllWatched.launch {m : Moment} {id : Nat} {starter : Starter} {d : Document}
    {next : Following} (h : AllWatched m) (ready : Ready m id starter d next)
    (recorded : Recorded m) (honest : AllHonest m)
    (unasked : Unasked m) : AllWatched
      ⟨.pass id .begun (m.scheduler.launch starter d).1 next,
        (m.scheduler.launch starter d).2⟩ := by
  intro uri owed
  rw [Moment.history, Scheduler.launch_history] at owed
  obtain ⟨stale, owed⟩ := owed
  rw [launch_document, ← Moment.history, ← recorded.documents] at stale
  have old := h uri owed
  have documents : (m.scheduler.launch starter d).2.documents.has uri =
      m.scheduler.documents.has uri := by
    rw [Scheduler.launch_documents]
  by_cases same : uri = d.uri
  · subst same
    cases ready with
    | opened idle current => exact absurd current stale
    | @asked s id order d still => exact absurd rfl (unasked id order d)
    | swept idle =>
      -- A sweep leaves busy documents out, so only a pause can be what is pending.
      rcases old.pending with ⟨x, there⟩ | ⟨st, known, rerun⟩
      · have ne : x ≠ id := by
          rintro rfl
          cases (pause?_hand rfl).symm.trans there
        refine ⟨.inl ⟨x, ?_⟩, ?_, documents.trans old.stored⟩
        · rw [launch_pause? (.swept idle), if_neg ne, there]
        · simp [Scheduler.state?_launch]
      · have phase := (honest d.uri st known).rerun rerun
        simp [Scheduler.busy, known, DocState.busy, phase] at idle
    | pause stands known due current => exact absurd current stale
  · refine old.mono (fun x there => launch_pause?_kept ready same there) ?_ documents
    rw [Scheduler.state?_launch, if_neg same]

theorem AllWatched.finish {m : Moment} {s : Scheduler} {id : Nat} {p : Pass} {next : Following}
    {notes : History} (h : AllWatched m) (numbered : Numbered m) (holds : m.pass? id = some p)
    (turn : m.Turn id) (plain : ∀ x ∈ notes, x.2.Plain)
    (told : s = { m.scheduler with history := notes ++ m.history }) :
    AllWatched ⟨.task id next, s.endPass p⟩ := by
  intro uri owed
  have state : ∀ uri, s.state? uri = m.scheduler.state? uri := by rw [told]; exact fun _ => rfl
  have documents : (s.endPass p).documents.has uri = m.scheduler.documents.has uri := by
    rw [Scheduler.endPass_documents, told]
  have before : Owed uri m.history := by
    rw [Moment.history, Scheduler.endPass_history, told] at owed
    exact (owed_append plain uri m.history).mp owed
  have old := h uri before
  refine ⟨?_, ?_, documents.trans old.stored⟩
  · rcases old.pending with ⟨x, there⟩ | ⟨st, known, rerun⟩
    · exact .inl ⟨x, finish_pause?_kept _ _ numbered turn holds told there⟩
    -- When the pass that ends is the one to be followed by one more, a pause takes its place.
    · by_cases own : uri = p.document.uri ∧ st.serial = p.serial
      · obtain ⟨rfl, own⟩ := own
        rcases finish_pause? p next numbered turn holds told with
          ⟨-, unwanted⟩ | ⟨new, -, pauses, -⟩
        · cases rerun.symm.trans (unwanted st known own)
        · exact .inl ⟨new, by rw [pauses, if_pos rfl]⟩
      · refine .inr ⟨st, ?_, rerun⟩
        rw [Scheduler.state?_endPass, state, known]
        split
        · next same => exact congrArg some (if_neg fun eq => own ⟨same, eq⟩)
        · rfl
  · rw [Scheduler.state?_endPass, state]
    split
    · simpa using old.known
    · exact old.known

/-- No task pauses or is in a pass. -/
def AtRest (s : Scheduler) : Prop := ∀ t ∈ s.tasks, t.point.pause? = none ∧ t.point.pass? = none

instance (s : Scheduler) : Decidable (AtRest s) :=
  inferInstanceAs (Decidable (∀ t ∈ s.tasks, t.point.pause? = none ∧ t.point.pass? = none))

theorem AtRest.point {s : Scheduler} (h : AtRest s) {id : Nat} {p : Point}
    (stands : s.point? id = some p) :
    p.pause? = none ∧ p.pass? = none := by
  obtain ⟨t, found, rfl⟩ := Option.map_eq_some_iff.mp stands
  exact h t (List.mem_of_find?_eq_some found)

theorem AtRest.pause? {s : Scheduler} (h : AtRest s) (id : Nat) :
    Moment.pause? ⟨.free, s⟩ id = none := by
  cases stands : s.point? id with
  | none => simp [pause?_free, stands]
  | some p => rw [pause?_point stands, (h.point stands).1]

theorem AtRest.pass? {s : Scheduler} (h : AtRest s) (id : Nat) :
    Moment.pass? ⟨.free, s⟩ id = none := by
  cases stands : s.point? id with
  | none => simp [pass?_free, stands]
  | some p => rw [pass?_point stands, (h.point stands).2]

section Edit

variable {later older : History} {t : Rat} {order : Nat} {d : Document}

end Edit

/-- A pass ended, and what it found was published, unless the pass or the publishing raised. -/
def Delivered (w : Surroundings) (p : Pass) (h : History) : Prop :=
  ∃ newer t q notes older, h = newer ++ (t, .ended q) :: (notes ++ older) ∧ q.start = p ∧
    (Published w q older notes ∨ Raised w q older notes)

end ContractCheck.Schedule
