import ContractCheck.Proofs.Schedule.Effects

/-! # The numbers of tasks

A new task has a number that no task had before (`Numbered`).  So a move leaves the passes and the
pauses of all tasks but one alone.  What it does to them is said here for each effect, through
`pass?` and `pause?`.
-/
namespace ContractCheck.Schedule

/-- Every task that is there has a number that was given out. -/
def Numbered (m : Moment) : Prop := ∀ id, m.Lives id → id < m.scheduler.fresh

theorem Numbered.point? {s : Scheduler} {id : Nat} (h : Numbered ⟨.free, s⟩) (new : s.fresh ≤ id) :
    s.point? id = none := by
  by_contra there
  exact absurd (h id (.inr there)) (Nat.not_lt.mpr new)

theorem Numbered.fresh_point? {m : Moment} (h : Numbered m) :
    m.scheduler.point? m.scheduler.fresh = none := by
  by_contra there
  exact Nat.lt_irrefl _ (h _ (.inr there))

variable {w : Surroundings} {allowed : Scheduler → Request → Prop}

/-! ## A request comes in -/

section Hear

variable {s : Scheduler} (order : Nat) (r : Request)

/-- All that a request may leave behind is a task that pauses. -/
theorem heard_point?_bind {α : Type} {f : Point → Option α}
    (silent : ∀ uri wake, f (.pausing uri wake) = none) (numbered : Numbered ⟨.free, s⟩)
    (id : Nat) :
    ((s.heard order r).point? id).bind f = (s.point? id).bind f := by
  rcases s.heard_point? order r with ⟨-, -, points⟩ | ⟨d, -, -, pause, later, -, points⟩
  · rw [points id]
  · rw [points id]
    split
    · next same =>
      rw [same, numbered.point? (Nat.le_of_lt later)]
      exact silent d.uri s.now
    · rfl

theorem hear_seen {α : Type} {hand : Hand → Option α} {point : Point → Option α}
    (silent : ∀ uri wake, point (.pausing uri wake) = none)
    (bare : ∀ id order r, hand (.heard id order r) = none) (numbered : Numbered ⟨.free, s⟩)
    (id : Nat) :
    Moment.seen hand point ⟨.heard s.fresh order r, s.heard order r⟩ id
      = Moment.seen hand point ⟨.free, s⟩ id := by
  rw [seen_free]
  by_cases new : id = s.fresh
  · rw [new, numbered.point? (Nat.le_refl _)]
    exact (if_pos rfl).trans (bare ..)
  · rw [Moment.seen_of_other (.inr rfl) new]
    exact heard_point?_bind order r silent numbered id

theorem hear_pass? (numbered : Numbered ⟨.free, s⟩) (id : Nat) :
    Moment.pass? ⟨.heard s.fresh order r, s.heard order r⟩ id = Moment.pass? ⟨.free, s⟩ id :=
  hear_seen order r (fun _ _ => rfl) (fun _ _ _ => rfl) numbered id

theorem hear_next? (numbered : Numbered ⟨.free, s⟩) (id : Nat) :
    Moment.next? ⟨.heard s.fresh order r, s.heard order r⟩ id = Moment.next? ⟨.free, s⟩ id :=
  hear_seen order r (fun _ _ => rfl) (fun _ _ _ => rfl) numbered id

/-- A request makes a task pause when it edits an idle document, and only then. -/
theorem hear_pause? (numbered : Numbered ⟨.free, s⟩) :
    (∀ d, r = .changed d → s.busy d.uri = true) ∧
        (∀ id, Moment.pause? ⟨.heard s.fresh order r, s.heard order r⟩ id
          = Moment.pause? ⟨.free, s⟩ id) ∨
      ∃ d, r = .changed d ∧ s.busy d.uri = false ∧
        ∃ new, Moment.pause? ⟨.free, s⟩ new = none ∧
          ∀ id, Moment.pause? ⟨.heard s.fresh order r, s.heard order r⟩ id
            = if id = new then some d.uri else Moment.pause? ⟨.free, s⟩ id := by
  have own : Moment.pause? ⟨.free, s⟩ s.fresh = none := by
    rw [pause?_free, numbered.point? (Nat.le_refl _)]
    rfl
  have others : ∀ id, id ≠ s.fresh → Moment.pause? ⟨.heard s.fresh order r, s.heard order r⟩ id
      = ((s.heard order r).point? id).bind Point.pause? :=
    fun id other => Moment.seen_of_other (.inr rfl) other
  rcases s.heard_point? order r with ⟨busy, -, points⟩ | ⟨d, changed, idle, new, later, -, points⟩
  · refine .inl ⟨busy, fun id => ?_⟩
    by_cases mine : id = s.fresh
    · rw [mine, own, pause?_hand rfl]
    · rw [others id mine, points id, pause?_free]
  · refine .inr ⟨d, changed, idle, new, ?_, fun id => ?_⟩
    · rw [pause?_free, numbered.point? (Nat.le_of_lt later)]
      rfl
    · by_cases mine : id = s.fresh
      · rw [mine, own, pause?_hand rfl, if_neg (Nat.ne_of_lt later)]
      · rw [others id mine, points id, pause?_free]
        split <;> rfl

theorem hear_pause?_kept (numbered : Numbered ⟨.free, s⟩) {id : Nat} {uri : Text}
    (there : Moment.pause? ⟨.free, s⟩ id = some uri) :
    Moment.pause? ⟨.heard s.fresh order r, s.heard order r⟩ id = some uri := by
  rcases hear_pause? order r numbered with
    ⟨-, same⟩ | ⟨d, -, -, new, none, pauses⟩
  · rw [same, there]
  · have other : id ≠ new := by
      rintro rfl
      cases none.symm.trans there
    rw [pauses, if_neg other, there]

end Hear

/-! ## A pause comes to nothing -/

section Lapse

variable {s : Scheduler} {id : Nat} {uri : Text} {wake : Rat}

theorem lapse_seen {α : Type} {hand : Hand → Option α} {point : Point → Option α}
    (silent : ∀ uri wake, point (.pausing uri wake) = none) (ended : point .spent = none)
    (stands : s.point? id = some (.pausing uri wake)) (x : Nat) :
    Moment.seen hand point ⟨.free, s.place id .spent⟩ x = Moment.seen hand point ⟨.free, s⟩ x := by
  rw [seen_free, seen_free, Scheduler.point?_place]
  split
  · next same => rw [same, stands, Option.bind_some, Option.bind_some, ended, silent]
  · rfl

theorem lapse_pass? (stands : s.point? id = some (.pausing uri wake)) (x : Nat) :
    Moment.pass? ⟨.free, s.place id .spent⟩ x = Moment.pass? ⟨.free, s⟩ x :=
  lapse_seen (fun _ _ => rfl) rfl stands x

theorem lapse_next? (stands : s.point? id = some (.pausing uri wake)) (x : Nat) :
    Moment.next? ⟨.free, s.place id .spent⟩ x = Moment.next? ⟨.free, s⟩ x :=
  lapse_seen (fun _ _ => rfl) rfl stands x

theorem lapse_pause? (x : Nat) :
    Moment.pause? ⟨.free, s.place id .spent⟩ x =
      if x = id then none else Moment.pause? ⟨.free, s⟩ x := by
  rw [pause?_free, pause?_free, Scheduler.point?_place]
  split <;> rfl

end Lapse

/-! ## A pass begins -/

section Launch

variable {m : Moment} {id : Nat} {starter : Starter} {d : Document} {next : Following}

theorem Ready.turn (ready : Ready m id starter d next) : m.Turn id := by
  cases ready with
  | opened _ _ => exact .of_hand rfl
  | asked _ => exact .of_hand rfl
  | swept _ => exact .of_hand rfl
  | pause stands _ _ _ => exact .of_point stands

theorem Ready.no_pass (ready : Ready m id starter d next) : m.pass? id = none := by
  cases ready with
  | opened _ _ => exact pass?_hand rfl
  | asked _ => exact pass?_hand rfl
  | swept _ => exact pass?_hand rfl
  | pause stands _ _ _ => exact pass?_point stands

theorem launch_seen {α : Type} {hand : Hand → Option α} {point : Point → Option α}
    (ready : Ready m id starter d next) (x : Nat) :
    Moment.seen hand point
        ⟨.pass id .begun (m.scheduler.launch starter d).1 next, (m.scheduler.launch starter d).2⟩ x
      = if x = id then hand (.pass id .begun (m.scheduler.launch starter d).1 next)
        else m.seen hand point x := by
  refine Moment.seen_of_turn rfl ready.turn.1 (fun y => ?_) x
  rw [Scheduler.point?_launch]

theorem launch_pass? (ready : Ready m id starter d next) (x : Nat) :
    Moment.pass? ⟨.pass id .begun (m.scheduler.launch starter d).1 next,
      (m.scheduler.launch starter d).2⟩ x
      = if x = id then some (m.scheduler.launch starter d).1 else m.pass? x :=
  launch_seen ready x

theorem launch_pause? (ready : Ready m id starter d next) (x : Nat) :
    Moment.pause? ⟨.pass id .begun (m.scheduler.launch starter d).1 next,
      (m.scheduler.launch starter d).2⟩ x
      = if x = id then none else m.pause? x :=
  launch_seen ready x

theorem launch_next? (ready : Ready m id starter d next) (x : Nat) :
    Moment.next? ⟨.pass id .begun (m.scheduler.launch starter d).1 next,
      (m.scheduler.launch starter d).2⟩ x
      = if x = id then some next else m.next? x :=
  launch_seen ready x

/-- Only the pause of the document itself is over when a pass on it begins. -/
theorem launch_pause?_kept (ready : Ready m id starter d next) {x : Nat} {uri : Text}
    (other : uri ≠ d.uri) (there : m.pause? x = some uri) :
    Moment.pause? ⟨.pass id .begun (m.scheduler.launch starter d).1 next,
      (m.scheduler.launch starter d).2⟩ x
      = some uri := by
  have ne : x ≠ id := by
    rintro rfl
    -- Only a task that paused could be the one that goes on, and it paused for the document.
    cases ready with
    | opened _ _ => cases (pause?_hand rfl).symm.trans there
    | asked _ => cases (pause?_hand rfl).symm.trans there
    | swept _ => cases (pause?_hand rfl).symm.trans there
    | pause stands _ _ _ =>
      rw [pause?_point stands] at there
      exact other (Option.some.inj there).symm
  rw [launch_pause? ready, if_neg ne, there]

end Launch

/-! ## A pass ends -/

/-- A task that is in a pass does not pause. -/
theorem pause?_of_pass {m : Moment} {id : Nat} {p : Pass} (holds : m.pass? id = some p) :
    m.pause? id = none := by
  unfold Moment.pass? Moment.seen at holds
  unfold Moment.pause? Moment.seen
  split
  · rfl
  · next free =>
    rw [if_neg free] at holds
    obtain ⟨point, stands, pass⟩ := Option.bind_eq_some_iff.mp holds
    cases point with
    | inPass stage following => simp [stands, Point.pause?]
    | _ => simp [Point.pass?] at pass

section Finish

variable {m : Moment} {s : Scheduler} {id : Nat} {notes : History} (p : Pass) (next : Following)

/-- All that a pass may leave behind when it ends is a task that pauses. -/
theorem endPass_point?_bind {α : Type} {f : Point → Option α}
    (silent : ∀ uri wake, f (.pausing uri wake) = none) (numbered : Numbered m)
    (told : s = { m.scheduler with history := notes ++ m.history }) (x : Nat) :
    ((s.endPass p).point? x).bind f = (m.scheduler.point? x).bind f := by
  have points : s.point? x = m.scheduler.point? x := by rw [told]; rfl
  rcases s.endPass_point? p with ⟨-, kept, -⟩ | ⟨-, new, -⟩
  · rw [kept, points]
  · rw [new]
    split
    · next fresh =>
      have fresh : x = m.scheduler.fresh := by rw [fresh, told]
      rw [fresh, numbered.fresh_point?]
      exact silent p.document.uri s.now
    · rw [points]

theorem finish_seen {α : Type} {hand : Hand → Option α} {point : Point → Option α}
    (silent : ∀ uri wake, point (.pausing uri wake) = none) (numbered : Numbered m)
    (turn : m.Turn id) (told : s = { m.scheduler with history := notes ++ m.history }) (x : Nat) :
    Moment.seen hand point ⟨.task id next, s.endPass p⟩ x
      = if x = id then hand (.task id next) else m.seen hand point x :=
  Moment.seen_of_turn rfl turn.1 (endPass_point?_bind p silent numbered told) x

theorem finish_pass? (numbered : Numbered m) (turn : m.Turn id)
    (told : s = { m.scheduler with history := notes ++ m.history }) (x : Nat) :
    Moment.pass? ⟨.task id next, s.endPass p⟩ x = if x = id then none else m.pass? x :=
  finish_seen p next (fun _ _ => rfl) numbered turn told x

theorem finish_next? (numbered : Numbered m) (turn : m.Turn id)
    (told : s = { m.scheduler with history := notes ++ m.history }) (x : Nat) :
    Moment.next? ⟨.task id next, s.endPass p⟩ x = if x = id then some next else m.next? x :=
  finish_seen p next (fun _ _ => rfl) numbered turn told x

/-- When one more pass was asked for during a pass of a document's own state, a pause begins. -/
theorem finish_pause? (numbered : Numbered m) (turn : m.Turn id) (holds : m.pass? id = some p)
    (told : s = { m.scheduler with history := notes ++ m.history }) :
    (∀ x, Moment.pause? ⟨.task id next, s.endPass p⟩ x = m.pause? x) ∧
        (∀ st, m.scheduler.state? p.document.uri = some st → st.serial = p.serial →
          st.rerun = false) ∨
      ∃ new, m.pause? new = none ∧
        (∀ x, Moment.pause? ⟨.task id next, s.endPass p⟩ x
          = if x = new then some p.document.uri else m.pause? x) ∧
        ∃ st, m.scheduler.state? p.document.uri = some st ∧ st.serial = p.serial ∧
          st.rerun = true := by
  have points : ∀ x, s.point? x = m.scheduler.point? x := by rw [told]; exact fun _ => rfl
  have fresh : s.fresh = m.scheduler.fresh := by rw [told]
  have state : s.state? p.document.uri = m.scheduler.state? p.document.uri := by rw [told]; rfl
  have others : ∀ x, x ≠ id → Moment.pause? ⟨.task id next, s.endPass p⟩ x
      = ((s.endPass p).point? x).bind Point.pause? :=
      fun x other => Moment.seen_of_other (.inr rfl) other
  have before : ∀ x, x ≠ id → m.pause? x = (m.scheduler.point? x).bind Point.pause? :=
    fun x other => Moment.seen_of_other turn.1 other
  rw [← state]
  rcases s.endPass_point? p with ⟨-, kept, wanted⟩ | ⟨-, new, wanted⟩
  · refine .inl ⟨fun x => ?_, wanted⟩
    by_cases same : x = id
    · rw [same, pause?_hand rfl, pause?_of_pass holds]
    · rw [others x same, before x same, kept, points]
  · refine .inr ⟨m.scheduler.fresh, ?_, fun x => ?_, wanted⟩
    · simp [Moment.pause?, Moment.seen, numbered.fresh_point?]
    · by_cases same : x = id
      -- The task that ends its pass is an old one, so it is not the pause that begins.
      · have old : ¬ id = m.scheduler.fresh := fun eq => Nat.lt_irrefl _ (eq ▸ numbered id turn.2)
        rw [same, pause?_hand rfl, if_neg old, pause?_of_pass holds]
      · rw [others x same, before x same, new, points, fresh]
        split <;> rfl

theorem finish_pause?_kept (numbered : Numbered m) (turn : m.Turn id) (holds : m.pass? id = some p)
    (told : s = { m.scheduler with history := notes ++ m.history }) {x : Nat} {uri : Text}
    (there : m.pause? x = some uri) : Moment.pause? ⟨.task id next, s.endPass p⟩ x = some uri := by
  rcases finish_pause? p next numbered turn holds told with
    ⟨same, -⟩ | ⟨new, none, pauses, -⟩
  · rw [same, there]
  · have other : x ≠ new := by
      rintro rfl
      cases none.symm.trans there
    rw [pauses, if_neg other, there]

end Finish

/-! ## One more pass is asked for, or a sweep begins -/

theorem again_pass? (s : Scheduler) (id order : Nat) (d : Document) (x : Nat) :
    Moment.pass? ⟨.task id (.answer order), s.askAgain d.uri⟩ x
      = Moment.pass? ⟨.heard id order (.validate d), s⟩ x := by
  simp [Moment.pass?, Moment.seen, Hand.id?, Hand.pass?]

theorem again_next? (s : Scheduler) (id order : Nat) (d : Document) (x : Nat) :
    Moment.next? ⟨.task id (.answer order), s.askAgain d.uri⟩ x
      = if x = id then some (.answer order)
      else Moment.next? ⟨.heard id order (.validate d), s⟩ x := by
  refine Moment.seen_of_turn rfl (.inr rfl) (fun y => ?_) x
  rw [Scheduler.point?_askAgain]

theorem list_next? (s : Scheduler) (id order : Nat) (r : Request) (next : Following) (x : Nat) :
    Moment.next? ⟨.task id next, { s with sweeping := true }⟩ x
      = if x = id then some next else Moment.next? ⟨.heard id order r, s⟩ x :=
  Moment.seen_of_turn (n := ⟨.task id next, { s with sweeping := true }⟩)
    (m := ⟨.heard id order r, s⟩) rfl
    (.inr rfl) (fun _ => rfl) x

/-! ## Every move keeps the numbers right -/

theorem Numbered.free (s : Scheduler) (none : s.tasks = []) : Numbered ⟨.free, s⟩ := by
  intro id there
  rcases there with held | there
  · cases held
  · simp [Scheduler.point?, none] at there

theorem Effect.numbered {m n : Moment} (e : Effect w allowed m n) (h : Numbered m) :
    Numbered n := by
  intro x there
  cases e with
  | quiet notes _ _ _ _ _ _ _ fresh lives _ =>
    -- No task is new.
    rw [fresh]
    exact h x (lives x there)
  | @hear s order r fine =>
    have known : ∀ id, s.point? id ≠ none → id < s.fresh := fun id there => h id (.inr there)
    -- Two tasks may be new: that of the request, and a pause with the number after it.
    rcases s.heard_point? order r with ⟨-, more, points⟩ | ⟨d, -, -, new, later, more, points⟩
    · rcases there with held | there
      · exact Option.some.inj held ▸ more
      · rw [points] at there
        exact Nat.lt_trans (known x there) more
    · rcases there with held | there
      · exact Option.some.inj held ▸ Nat.lt_trans later more
      · rw [points] at there
        by_cases same : x = new
        · exact same ▸ more
        · rw [if_neg same] at there
          exact Nat.lt_trans (known x there) (Nat.lt_trans later more)
  | @lapse s id uri wake stands closed =>
    rcases there with held | there
    · cases held
    · rw [Scheduler.point?_place] at there
      rw [Scheduler.place_fresh]
      by_cases same : x = id
      · exact same ▸ h id (.inr (by simp [stands]))
      · rw [if_neg same] at there
        exact h x (.inr there)
  | @launch _ id starter d next ready =>
    refine Nat.lt_of_lt_of_le ?_ (Scheduler.le_remember_fresh m.scheduler d.uri)
    rcases there with held | there
    · exact Option.some.inj held ▸ h id ready.turn.2
    · rw [Scheduler.point?_launch] at there
      exact h x (.inr there)
  | @finish _ s id p next notes holds follows turn outcome told =>
    have points : ∀ x, s.point? x = m.scheduler.point? x := by rw [told]; exact fun _ => rfl
    have fresh : s.fresh = m.scheduler.fresh := by rw [told]
    have mine : id < m.scheduler.fresh := h id turn.2
    rcases s.endPass_point? p with ⟨same, kept, -⟩ | ⟨more, new, -⟩
    · rw [same, fresh]
      rcases there with held | there
      · exact Option.some.inj held ▸ mine
      · rw [kept, points] at there
        exact h x (.inr there)
    · rw [more, fresh]
      rcases there with held | there
      · exact Option.some.inj held ▸ Nat.lt_succ_of_lt mine
      · rw [new, points, fresh] at there
        by_cases same : x = m.scheduler.fresh
        · exact same ▸ Nat.lt_succ_self _
        · rw [if_neg same] at there
          exact Nat.lt_succ_of_lt (h x (.inr there))
  | @again s id order d runs =>
    refine Nat.lt_of_lt_of_le ?_ (Scheduler.le_remember_fresh s d.uri)
    rcases there with held | there
    · exact h x (.inl held)
    · rw [Scheduler.point?_askAgain] at there
      exact h x (.inr there)
  | list => exact h x there

end ContractCheck.Schedule
