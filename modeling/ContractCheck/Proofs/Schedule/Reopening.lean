import ContractCheck.Proofs.Schedule.Overlap

/-! # Closing a document while something goes on for it

Closing with care is not only enough for passes not to overlap, it is needed: when a document is
closed while a pause or a pass on it goes on, and edited again, the run can go on so that two passes
on it are in flight (`overlap_of_careless`).  After the edit a new pause leads to one of them.  The
other one is the pass that was in flight, or comes of the old pause; for the latter, compiling is
switched on and linting off, so that no pass ends at once.
-/
namespace ContractCheck.Schedule

variable {w : Surroundings}

/-- The truth of the notes is kept by every event. -/
theorem Faithful.step {s : Scheduler} (h : Faithful w ⟨.free, s⟩) (e : Scheduler.Event) :
    Faithful w ⟨.free, s.step w e⟩ :=
  kept_run (Faithful w) (fun _ _ move faithful => move.effect.faithful faithful)
    (Permitted.all w s [e]) h

theorem Going.extends {m n : Moment} (h : Going w m n) : m.history <:+ n.history := by
  induction h with
  | refl => exact List.suffix_refl _
  | tail _ g ih =>
    have effect : Effect w (fun _ _ => True) _ _ := g.effect
    obtain ⟨notes, history, -⟩ := effect.extends
    rw [history]
    exact ih.trans (List.suffix_append ..)

/-! ## A second pass -/

/-- A pause for a document leads to a pass on it. -/
structure Due (s : Scheduler) (id : Nat) (d : Document) : Prop where
  stands : ∃ wake, s.point? id = some (.pausing d.uri wake) ∧ wake ≤ s.now
  quiet : ∃ st, s.state? d.uri = some st ∧ st.requestedAt + s.settings.delay ≤ s.now
  current : s.documents.get? d.uri = some d

theorem Due.resume {s : Scheduler} {id : Nat} {d : Document} (due : Due s id d) :
    s.step w (.resume id) = s.wake w id d.uri := by
  obtain ⟨wake, stands, elapsed⟩ := due.stands
  simp [Scheduler.step, Scheduler.resume, stands, elapsed]

/-- When a pause is over while a pass on its document is in flight, there are two passes. -/
theorem Due.overlap {s : Scheduler} {id x : Nat} {d : Document} {p : Pass} (due : Due s id d)
    (faithful : Faithful w ⟨.free, s⟩) (holds : Moment.pass? ⟨.free, s⟩ x = some p)
    (about : p.document.uri = d.uri) : ¬ AlwaysOnePass (s.step w (.resume id)).history := by
  intro always
  obtain ⟨st, known, quiet⟩ := due.quiet
  have going := wake_going (w := w) id known quiet due.current
  rw [Scheduler.launch_putState .pause known] at going
  rw [due.resume] at always
  have one := always _ going.extends
  rw [Moment.history, Scheduler.launch_history] at one
  -- The pass that begins has a new number, so it is not the one in flight.
  have flying : p.start ∈ inFlight s.history := (faithful.recorded.flying _).mpr ⟨x, p, holds, rfl⟩
  have same := one p.start (List.mem_cons_of_mem _ flying) _ (List.mem_cons_self ..) about
  have number : p.number = s.history.length := by
    rw [← Pass.start_number, same, Scheduler.launch_fst]
  exact Nat.lt_irrefl _ (number ▸ faithful.recorded.bounded x p holds)

/-! ## After an edit -/

section Edit

variable {s : Scheduler} {d : Document} {order : Nat}

/-- What is left of a request when its task is over, for the other tasks. -/
theorem point?_answer {id order x : Nat} {p : Point} (s : Scheduler) (other : x ≠ id)
    (stands : s.point? x = some p) : (s.answer id order).point? x = some p := by
  rw [Scheduler.answer, Scheduler.point?_drop, if_neg other]
  exact stands

theorem Numbered.lt {x : Nat} {p : Point} (numbered : Numbered ⟨.free, s⟩)
    (stands : s.point? x = some p) :
    x < s.fresh :=
  numbered x (.inr (by simp [stands]))

/-- A document that nothing is known about is edited: a new pause begins. -/
theorem edit_pauses (order : Nat) (numbered : Numbered ⟨.free, s⟩)
    (unknown : s.state? d.uri = none) :
    ∃ new, s.point? new = none ∧
      (s.step w (.request order (.changed d))).point? new = some (.pausing d.uri s.now) := by
  have idle : s.busy d.uri = false := by simp [Scheduler.busy, unknown]
  rcases s.heard_point? order (.changed d) with ⟨busy, -⟩ | ⟨_, ⟨⟩, -, new, later, -, points⟩
  · cases idle.symm.trans (busy d rfl)
  · refine ⟨new, numbered.point? (Nat.le_of_lt later), ?_⟩
    exact point?_answer _ (Nat.ne_of_gt later) (by rw [points, if_pos rfl])

theorem edit_keeps_point (numbered : Numbered ⟨.free, s⟩) {x : Nat} {p : Point}
    (stands : s.point? x = some p) :
    (s.step w (.request order (.changed d))).point? x = some p := by
  refine point?_answer _ (Nat.ne_of_lt (numbered.lt stands)) ?_
  rcases s.heard_point? order (.changed d) with ⟨-, -, points⟩ | ⟨_, -, -, new, later, -, points⟩
  · rw [points, stands]
  · have other : x ≠ new := Nat.ne_of_lt (Nat.lt_trans (numbered.lt stands) later)
    rw [points, if_neg other, stands]

theorem edit_requests (order : Nat) (unknown : s.state? d.uri = none) :
    ∃ st, (s.step w (.request order (.changed d))).state? d.uri = some st ∧
      st.requestedAt = s.now := by
  refine ⟨_, (Scheduler.state?_heard s order (.changed d) d.uri).trans (if_pos rfl), ?_⟩
  rw [unknown]
  rfl

theorem edit_current : (s.step w (.request order (.changed d))).documents.get? d.uri = some d := by
  have documents : (s.step w (.request order (.changed d))).documents = s.documents.put d :=
    Scheduler.heard_documents s order (.changed d)
  rw [documents, DocumentStore.get?_put_self]

theorem edit_circumstances (s : Scheduler) (d : Document) (order : Nat) :
    (s.step w (.request order (.changed d))).circumstances = s.circumstances :=
  Scheduler.heard_circumstances s order (.changed d)

/-- A document that nothing is known about is edited, and time passes. -/
structure Reopened (s s' : Scheduler) (d : Document) (new : Nat) (time : Rat) : Prop where
  fresh : s.point? new = none
  due : Due s' new d
  settings : s'.settings = s.settings
  linter : s'.linter = s.linter
  later : time ≤ s'.now
  points : ∀ x p, s.point? x = some p → s'.point? x = some p

theorem reopened (order : Nat) (numbered : Numbered ⟨.free, s⟩) (unknown : s.state? d.uri = none)
    {time : Rat} (enough : s.now + s.settings.delay ≤ time) :
    ∃ new, Reopened s ((s.step w (.request order (.changed d))).step w (.clock time)) d
      new time := by
  obtain ⟨new, fresh, stands⟩ := edit_pauses (w := w) order numbered unknown
  obtain ⟨st, known, requested⟩ := edit_requests (w := w) order unknown
  have circumstances := edit_circumstances (w := w) s d order
  simp only [Scheduler.circumstances, Prod.mk.injEq] at circumstances
  obtain ⟨settings, linter, now⟩ := circumstances
  have forward : s.now ≤ time := by
    -- Delays are natural numbers.
    have delay : (0 : Rat) ≤ (s.settings.delay : Rat) := by exact_mod_cast Nat.zero_le _
    grind
  -- The clock changes nothing but the time.
  generalize edited : s.step w (.request order (.changed d)) = e at *
  have clock : ∃ now, e.step w (.clock time) = { e with now } ∧ time ≤ now := by
    simp only [Scheduler.step]
    split
    · exact ⟨time, rfl, Rat.le_refl⟩
    · next past => exact ⟨e.now, rfl, Rat.not_lt.mp past⟩
  obtain ⟨now', passed, later⟩ := clock
  rw [passed]
  refine ⟨new, fresh, ⟨⟨s.now, stands, Rat.le_trans forward later⟩, ⟨st, known, ?_⟩, ?_⟩,
    settings, linter,
    later, fun x p there => ?_⟩
  · rw [requested, settings]
    exact Rat.le_trans enough later
  · rw [← edited]
    exact edit_current (w := w)
  · rw [← edited]
    exact edit_keeps_point (w := w) numbered there

end Edit

/-! ## After the document was closed -/

section Close

variable {s : Scheduler} {d : Document} {order : Nat}

theorem close_unknown : (s.step w (.request order (.closed d))).state? d.uri = none := by
  have forgotten : (s.heard order (.closed d)).state? d.uri = none :=
    (Scheduler.state?_heard ..).trans (if_pos rfl)
  simp only [Scheduler.step, Scheduler.receive]
  split
  · rw [Scheduler.state?_place]
    exact forgotten
  · exact forgotten

theorem close_absent : (s.step w (.request order (.closed d))).documents.get? d.uri = none := by
  have removed : (s.heard order (.closed d)).documents.get? d.uri = none := by
    rw [Scheduler.heard_documents]
    exact DocumentStore.get?_remove_self ..
  simp only [Scheduler.step, Scheduler.receive]
  split
  · rw [Scheduler.place_documents]
    exact removed
  · exact removed

theorem close_keeps_point (order : Nat) (numbered : Numbered ⟨.free, s⟩) {x : Nat} {p : Point}
    (stands : s.point? x = some p) : (s.step w (.request order (.closed d))).point? x = some p := by
  have other : x ≠ s.fresh := Nat.ne_of_lt (numbered.lt stands)
  simp only [Scheduler.step, Scheduler.receive]
  split
  · rw [Scheduler.point?_place, if_neg other]
    exact stands
  · rw [Scheduler.refuse, Scheduler.point?_drop, if_neg other]
    exact stands

end Close

/-! ## After compiling is switched on and linting off -/

/-- Nothing changes for a document and a task, nor what passes go by. -/
structure Spares (s s' : Scheduler) (uri : Text) (x : Nat) : Prop where
  circumstances : s'.circumstances = s.circumstances
  documents : s'.documents = s.documents
  state : s'.state? uri = s.state? uri
  point : s'.point? x = s.point? x

theorem Spares.trans {s₁ s₂ s₃ : Scheduler} {uri : Text} {x : Nat} (h : Spares s₁ s₂ uri x)
    (h' : Spares s₂ s₃ uri x) : Spares s₁ s₃ uri x :=
  ⟨h'.circumstances.trans h.circumstances, h'.documents.trans h.documents, h'.state.trans h.state,
    h'.point.trans h.point⟩

theorem place_spares (s : Scheduler) {id x : Nat} (p : Point) (uri : Text) (other : x ≠ id) :
    Spares s (s.place id p) uri x :=
  ⟨Scheduler.place_circumstances .., Scheduler.place_documents .., Scheduler.state?_place ..,
    by rw [Scheduler.point?_place, if_neg other]⟩

theorem launch_spares (s : Scheduler) (starter : Starter) {d : Document} {uri : Text} (x : Nat)
    (other : uri ≠ d.uri) : Spares s (s.launch starter d).2 uri x :=
  ⟨Scheduler.launch_circumstances .., Scheduler.launch_documents ..,
    by rw [Scheduler.state?_launch, if_neg other], Scheduler.point?_launch ..⟩

/-- A pass that is to be compiled stops for it. -/
theorem towardsCompile_stops {s : Scheduler} (id : Nat) (p : Pass)
    (wanted : s.settings.asYouType = true) :
    ∃ stage s', s.towardsCompile w id p = (some stage, s') ∧ stage.pass = p ∧
      ∀ uri x, Spares s s' uri x := by
  unfold Scheduler.towardsCompile
  rw [if_pos wanted]
  split
  · exact ⟨_, _, rfl, rfl, fun _ _ => ⟨rfl, rfl, rfl, rfl⟩⟩
  · exact ⟨_, _, rfl, rfl, fun _ _ => ⟨rfl, rfl, rfl, rfl⟩⟩

theorem beginPass_stops {s : Scheduler} (id : Nat) (starter : Starter) {d : Document}
    (unset : s.linter = none) (wanted : s.settings.asYouType = true)
    (still : s.running d.uri = false) :
    ∃ stage s', s.beginPass w id starter d = (some stage, s') ∧
      stage.pass = (s.launch starter d).1 ∧
      ∀ uri x, Spares (s.launch starter d).2 s' uri x := by
  have settings : (s.launch starter d).2.settings = s.settings :=
    congrArg Prod.fst (Scheduler.launch_circumstances s starter d)
  rw [beginPass_of_still still, launch_linter, unset]
  exact towardsCompile_stops id _ (settings ▸ wanted)

theorem sweep_spares {s : Scheduler} {id x : Nat} {uri : Text} {docs : List Document}
    (order listed : Nat) (unset : s.linter = none) (wanted : s.settings.asYouType = true)
    (other : x ≠ id)
    (apart : ∀ d ∈ docs, uri ≠ d.uri) : Spares s (s.sweep w id order listed docs) uri x := by
  induction docs with
  | nil =>
    refine ⟨rfl, rfl, rfl, ?_⟩
    simp only [Scheduler.sweep, Scheduler.answer, Scheduler.point?_drop, if_neg other]
    rfl
  | cons d rest ih =>
    obtain ⟨first, rest⟩ := List.forall_mem_cons.mp apart
    unfold Scheduler.sweep
    split
    · exact ih rest
    · next idle =>
      have still : s.running d.uri = false := running_of_not_busy (by simpa using idle)
      -- The first pass of the sweep stops to compile, and the sweep with it.
      obtain ⟨stage, s', stops, -, spares⟩ := beginPass_stops (w := w) id (.sweep listed) unset
        wanted still
      rw [stops]
      exact (launch_spares s _ x first).trans ((spares uri x).trans (place_spares s' _ uri other))

/-- The settings with which every pass stops to compile. -/
def compileOnly : ValidationSettings := { linter := none, asYouType := true }

theorem configure_spares {s : Scheduler} {x : Nat} {uri : Text} {p : Point} (order : Nat)
    (numbered : Numbered ⟨.free, s⟩) (distinct : s.documents.Distinct)
    (absent : s.documents.get? uri = none) (stands : s.point? x = some p) :
    Spares { s with settings := compileOnly, linter := none }
      (s.step w (.request order (.configure compileOnly))) uri x := by
  have other : x ≠ s.fresh := Nat.ne_of_lt (numbered.lt stands)
  have apart : ∀ d ∈ s.documents.toList, uri ≠ d.uri := by
    rintro d mem rfl
    cases absent.symm.trans (distinct d mem)
  show Spares _ (Scheduler.beginSweep w s.fresh order
    { s.heard order (.configure compileOnly) with settings := compileOnly, linter := none }) uri x
  unfold Scheduler.beginSweep
  split
  · refine ⟨rfl, rfl, rfl, ?_⟩
    rw [Scheduler.answer, Scheduler.point?_drop, if_neg other]
    rfl
  · have swept := sweep_spares (w := w) order (s.heard order (.configure compileOnly)).occasion
      (s := { s.heard order (.configure compileOnly) with
        settings := compileOnly, linter := none, sweeping := true }) rfl rfl other apart
    exact ⟨swept.circumstances, swept.documents, swept.state, swept.point⟩

/-! ## Two passes -/

/-- Events that are neither the closing of a document nor a single validation. -/
def Harmless : Scheduler.Event → Prop
  | .request _ r => (∀ d, r ≠ .validate d) ∧ ∀ d, r ≠ .closed d
  | _ => True

/-- The pass that a due pause leads to stops to be compiled, and another pause of the document stays
due. -/
theorem Due.stops {s : Scheduler} {id new : Nat} {d : Document} (due : Due s id d)
    (due' : Due s new d) (unset : s.linter = none) (wanted : s.settings.asYouType = true)
    (other : new ≠ id) :
    (∃ p, Moment.pass? ⟨.free, s.step w (.resume id)⟩ id = some p ∧ p.document.uri = d.uri) ∧
      Due (s.step w (.resume id)) new d := by
  obtain ⟨st, known, quiet⟩ := due.quiet
  have still : (s.putState d.uri { st with phase := .idle }).running d.uri = false := by
    simp [Scheduler.running, Scheduler.state?_putState]
  obtain ⟨stage, s', stops, same, spares⟩ := beginPass_stops (w := w) id .pause
    (s := s.putState d.uri { st with phase := .idle }) unset wanted still
  rw [Scheduler.launch_putState .pause known] at same spares
  have wakes : s.step w (.resume id) = s'.place id (.inPass stage .nothing) := by
    rw [due.resume]
    simp only [Scheduler.wake, known, due.current]
    rw [if_neg (Rat.not_lt.mpr quiet), stops]
    rfl
  rw [wakes]
  have kept := (spares d.uri new).trans (place_spares s' (.inPass stage .nothing) d.uri other)
  have circumstances := kept.circumstances.trans (Scheduler.launch_circumstances s .pause d)
  simp only [Scheduler.circumstances, Prod.mk.injEq] at circumstances
  obtain ⟨settings, -, now⟩ := circumstances
  have state := kept.state.trans ((Scheduler.state?_launch ..).trans (if_pos rfl))
  refine ⟨⟨stage.pass, pass?_point (point?_placed s' id _), ?_⟩, ?_, ⟨_, state, ?_⟩, ?_⟩
  · rw [same, Scheduler.launch_fst]
  · obtain ⟨wake, stands, elapsed⟩ := due'.stands
    exact ⟨wake, by rw [kept.point, Scheduler.point?_launch, stands], by rw [now]; exact elapsed⟩
  · rw [settings, now, Scheduler.remember_fst, known]
    exact quiet
  · rw [kept.documents, Scheduler.launch_documents]
    exact due.current

theorem exists_later (a b : Rat) : ∃ time, a ≤ time ∧ b ≤ time := by
  rcases (Rat.le_total : a ≤ b ∨ b ≤ a) with le | le
  · exact ⟨b, le, Rat.le_refl⟩
  · exact ⟨a, Rat.le_refl, le⟩

/-- A document is edited while a pass on an older snapshot of it is in flight that nobody knows
of. -/
theorem overlap_of_pass {s : Scheduler} {d : Document} {id : Nat} {point : Point} {p : Pass}
    (faithful : Faithful w ⟨.free, s⟩) (unknown : s.state? d.uri = none)
    (stands : s.point? id = some point) (pass : point.pass? = some p)
    (about : p.document.uri = d.uri) :
    ∃ more, (∀ e ∈ more, Harmless e) ∧ ¬ AlwaysOnePass (s.run w more).history := by
  obtain ⟨new, again⟩ := reopened (w := w) 0 faithful.numbered unknown Rat.le_refl
  refine ⟨[.request 0 (.changed d), .clock (s.now + s.settings.delay), .resume new], ?_, ?_⟩
  · simp [Harmless]
  · have holds := (pass?_point (again.points id point stands)).trans pass
    exact again.due.overlap ((faithful.step _).step _) holds about

/-- A document is edited while a pause for it is left that nobody knows of.  Two pauses go on, and
the passes that they lead to both stop to be compiled. -/
theorem overlap_of_pause {s : Scheduler} {d : Document} {id : Nat} {wake : Rat}
    (faithful : Faithful w ⟨.free, s⟩) (unknown : s.state? d.uri = none)
    (absent : s.documents.get? d.uri = none) (stands : s.point? id = some (.pausing d.uri wake)) :
    ∃ more, (∀ e ∈ more, Harmless e) ∧ ¬ AlwaysOnePass (s.run w more).history := by
  have spares := configure_spares (w := w) 0 faithful.numbered
    (faithful.recorded.documents ▸ openAt_distinct _) absent stands
  have configured := faithful.step (.request 0 (.configure compileOnly))
  have circumstances := spares.circumstances
  simp only [Scheduler.circumstances, Prod.mk.injEq] at circumstances
  obtain ⟨settings, linter, -⟩ := circumstances
  have stands := spares.point.trans stands
  -- From here on only what was spared matters.
  generalize config : s.step w (.request 0 (.configure compileOnly)) = s₁ at *
  obtain ⟨time, enough, elapsed⟩ := exists_later (s₁.now + s₁.settings.delay) wake
  obtain ⟨new, again⟩ := reopened (w := w) 0 configured.numbered (spares.state.trans unknown) enough
  have edited := (configured.step (.request 0 (.changed d))).step (.clock time)
  refine ⟨[.request 0 (.configure compileOnly), .request 0 (.changed d), .clock time, .resume id,
    .resume new], ?_, ?_⟩
  · simp [Harmless]
  · have other : new ≠ id := by
      rintro rfl
      cases again.fresh.symm.trans stands
    -- By that time both pauses are over, and the older one is resumed first.
    have due : Due ((s₁.step w (.request 0 (.changed d))).step w (.clock time)) id d :=
      ⟨⟨wake, again.points id _ stands, Rat.le_trans elapsed again.later⟩, again.due.quiet,
        again.due.current⟩
    obtain ⟨⟨p, holds, about⟩, due'⟩ := due.stops (w := w) again.due (again.linter.trans linter)
      (by rw [again.settings, settings]; rfl) other
    have overlap := due'.overlap (edited.step (.resume id)) holds about
    rw [← config] at overlap
    exact overlap

theorem Point.of_pause? {p : Point} {uri : Text} (h : p.pause? = some uri) :
    ∃ wake, p = .pausing uri wake := by
  cases p with
  | pausing uri' wake => exact ⟨wake, by rw [Option.some.inj h]⟩
  | _ => cases h

/-- **Two passes.**  When a document is closed while a task pauses for it or is in a pass on it, the
run can go on, without closing anything, so that two passes on it are in flight. -/
theorem overlap_of_careless {s : Scheduler} {d : Document} (order : Nat)
    (faithful : Faithful w ⟨.free, s⟩) (careless : ¬ Clear s d.uri) :
    ∃ more, (∀ e ∈ more, Harmless e) ∧
      ¬ AlwaysOnePass ((s.step w (.request order (.closed d))).run w more).history := by
  have closed := faithful.step (.request order (.closed d))
  simp only [Clear, not_forall] at careless
  obtain ⟨id, point, stands, careless⟩ := careless
  have stands := close_keeps_point (w := w) (d := d) order faithful.numbered stands
  by_cases pauses : point.pause? = some d.uri
  · obtain ⟨wake, rfl⟩ := Point.of_pause? pauses
    exact overlap_of_pause closed close_unknown close_absent stands
  · have passes : ∃ p, point.pass? = some p ∧ p.document.uri = d.uri := by
      by_contra none
      exact careless ⟨pauses, fun p pass about => none ⟨p, pass, about⟩⟩
    obtain ⟨p, pass, about⟩ := passes
    exact overlap_of_pass closed close_unknown stands pass about

/-! ## Runs -/

theorem run_append (s : Scheduler) (events more : List Scheduler.Event) :
    s.run w (events ++ more) = (s.run w events).run w more :=
  List.foldl_append ..

theorem permitted_append {allowed : Scheduler → Request → Prop} {s : Scheduler}
    {events more : List Scheduler.Event} :
    Permitted w allowed s (events ++ more) ↔
      Permitted w allowed s events ∧ Permitted w allowed (s.run w events) more := by
  induction events generalizing s with
  | nil => exact ⟨fun h => ⟨trivial, h⟩, And.right⟩
  | cons e events ih =>
    show _ ∧ Permitted w allowed (s.step w e) (events ++ more) ↔ _
    rw [ih, and_assoc.symm]
    rfl

theorem careful_of_harmless {s : Scheduler} {events : List Scheduler.Event}
    (harmless : ∀ e ∈ events, Harmless e) :
    Permitted w Careful s events := by
  induction events generalizing s with
  | nil => trivial
  | cons e events ih =>
    obtain ⟨first, rest⟩ := List.forall_mem_cons.mp harmless
    refine ⟨?_, ih rest⟩
    cases e with
    | request order r => exact ⟨first.1, fun d closed => absurd closed (first.2 d)⟩
    | _ => trivial

/-- An editor that is not careful closes a document while something goes on for it. -/
theorem careless_close {s : Scheduler} {events : List Scheduler.Event}
    (may : Permitted w OfEditor s events) (careless : ¬ Permitted w Careful s events) :
    ∃ before order d after, events = before ++ .request order (.closed d) :: after ∧
      ¬ Clear (s.run w before) d.uri := by
  induction events generalizing s with
  | nil => exact absurd trivial careless
  | cons e events ih =>
    by_cases first : Permits Careful s e
    · obtain ⟨before, order, d, after, rfl, unclear⟩ := ih may.2 fun rest => careless ⟨first, rest⟩
      exact ⟨e :: before, order, d, after, rfl, unclear⟩
    · cases e with
      | request order r =>
        by_contra clear
        refine first ⟨may.1, ?_⟩
        rintro d rfl
        by_contra unclear
        exact clear ⟨[], order, d, events, rfl, unclear⟩
      | clock time => exact absurd trivial first
      | resume id => exact absurd trivial first

/-- **When at most one pass on each document is in flight.**  In the runs of an editor, documents
are only closed when nothing is pending or in flight for them, if and only if no two passes on one
document are ever in flight, however the run goes on from any time without closing anything. -/
theorem careful_iff_alwaysOnePass {root : Option Text} {settings : Option ValidationSettings}
    {given : Option Linter} {events : List Scheduler.Event}
    (may : Permitted w OfEditor (Scheduler.start w root settings given).2 events) :
    Permitted w Careful (Scheduler.start w root settings given).2 events ↔
      ∀ before, before <+: events → ∀ more, (∀ e ∈ more, Harmless e) →
        AlwaysOnePass ((Scheduler.start w root settings given).2.run w
          (before ++ more)).history := by
  constructor
  · rintro careful before ⟨after, rfl⟩ more harmless
    refine alwaysOnePass_of_careful (permitted_append.mpr ⟨(permitted_append.mp careful).1, ?_⟩)
    exact careful_of_harmless harmless
  · intro always
    by_contra careless
    obtain ⟨before, order, d, after, rfl, unclear⟩ := careless_close may careless
    have faithful : Faithful w ⟨.free, (Scheduler.start w root settings given).2.run w before⟩ :=
      kept_run (Faithful w) (fun _ _ move faithful => move.effect.faithful faithful)
        (Permitted.all w _ before) (start_blank root settings given).faithful
    -- Up to the careless closing the run is one that `always` speaks of, and it can go on from
    -- there.
    obtain ⟨more, harmless, two⟩ := overlap_of_careless order faithful unclear
    have closed : before ++ [.request order (.closed d)] <+: before ++
        .request order (.closed d) :: after :=
      ⟨after, by simp⟩
    refine two ?_
    have one := always _ closed more harmless
    rwa [run_append, run_append] at one

/-- A document is opened, closed while it is compiled, and opened again. -/
def reopening : List Scheduler.Event :=
  [.request 0 (.opened { uri := "a".toList, path := "/a".toList, text := [] }),
    .request 1 (.closed { uri := "a".toList, path := "/a".toList, text := [] }),
    .request 2 (.opened { uri := "a".toList, path := "/a".toList, text := [] })]

theorem reopening_overlaps :
    ¬ OnePass ((Scheduler.start .calm none none none).2.run .calm reopening).history := by
  decide +kernel

/-- The run is not a careful one. -/
theorem reopening_careless :
    ¬ Permitted .calm Careful (Scheduler.start .calm none none none).2 reopening := by
  have may : Permitted .calm OfEditor (Scheduler.start .calm none none none).2 reopening :=
    ⟨fun _ => nofun, fun _ => nofun, fun _ => nofun, trivial⟩
  intro careful
  have always := (careful_iff_alwaysOnePass may).mp careful reopening (List.prefix_refl _) [] nofun
  have two : ¬ OnePass ((Scheduler.start .calm none none none).2.run .calm reopening).history := by
    decide +kernel
  exact two (always _ (List.suffix_refl _))

end ContractCheck.Schedule
