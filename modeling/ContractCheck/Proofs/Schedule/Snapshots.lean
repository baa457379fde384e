import ContractCheck.Proofs.Schedule.Ledger

/-! # Which snapshots are validated

A document that is opened is validated as it is opened, and after a pause it is validated as the
store then holds it.  A sweep validates the documents as it listed them when it began (`Listed`),
and looks at the store no more.  So what it validates is what the store holds just as long as the
document stayed as it was listed.
-/
namespace ContractCheck.Schedule

variable {w : Surroundings} {allowed : Scheduler → Request → Prop}

/-- The notes when there were so many. -/
def earlier (h : History) (n : Nat) : History := h.drop (h.length - n)

theorem earlier_append {older : History} {n : Nat} (le : n ≤ older.length) (newer : History) :
    earlier (newer ++ older) n = earlier older n := by
  unfold earlier
  have shift : (newer ++ older).length - n = newer.length + (older.length - n) := by
    rw [List.length_append]
    omega
  rw [shift, List.drop_length_add_append]

theorem earlier_length (h : History) : earlier h h.length = h := by
  simp [earlier]

/-! ## What a sweep has left to do -/

/-- The documents that are left of a sweep are as they were when it listed them. -/
def ListedAt (listed : Nat) (rest : List Document) (h : History) : Prop :=
  listed ≤ h.length ∧ ∀ d ∈ rest, (openAt (earlier h listed)).get? d.uri = some d

theorem ListedAt.append {listed : Nat} {rest : List Document} {h : History}
    (l : ListedAt listed rest h)
    (newer : History) : ListedAt listed rest (newer ++ h) := by
  refine ⟨?_, ?_⟩
  · rw [List.length_append]
    exact Nat.le_trans l.1 (Nat.le_add_left ..)
  · rw [earlier_append l.1]
    exact l.2

theorem ListedAt.sub {listed : Nat} {all rest : List Document} {h : History}
    (l : ListedAt listed all h)
    (sub : rest ⊆ all) : ListedAt listed rest h :=
  ⟨l.1, fun d mem => l.2 d (sub mem)⟩

/-- All sweeps go on with what they listed. -/
def Listed (m : Moment) : Prop :=
  ∀ id order listed rest, m.next? id = some (.sweep order listed rest) →
    ListedAt listed rest m.history

theorem Listed.launch {m : Moment} {id : Nat} {starter : Starter} {d : Document} {next : Following}
    (h : Listed m) (ready : Ready m id starter d next) : Listed
      ⟨.pass id .begun (m.scheduler.launch starter d).1 next,
        (m.scheduler.launch starter d).2⟩ := by
  intro x order listed rest follows
  rw [Moment.history, Scheduler.launch_history]
  refine ListedAt.append ?_ [_]
  rw [launch_next? ready] at follows
  split at follows
  -- The sweep that begins a pass has one document fewer left.
  · obtain rfl := Option.some.inj follows
    cases ready with
    | swept idle => exact (h id order listed _ (next?_hand rfl)).sub (List.subset_cons_self ..)
  · exact h x order listed rest follows

theorem Effect.listed {m n : Moment} (e : Effect w allowed m n) (faithful : Faithful w m)
    (h : Listed m) :
    Listed n := by
  cases e with
  | quiet notes history plain documents state pass pause sweeps fresh lives heard =>
    intro id order listed rest follows
    obtain ⟨all, before, sub⟩ := sweeps id order listed rest follows
    rw [history]
    exact ((h id order listed all before).sub sub).append notes
  | hear fine =>
    intro id order listed rest follows
    rw [hear_next? _ _ faithful.numbered] at follows
    rw [Moment.history, Scheduler.heard_history]
    exact (h id order listed rest follows).append [_]
  | lapse stands closed =>
    intro id order listed rest follows
    rw [lapse_next? stands] at follows
    rw [Moment.history, Scheduler.place_history]
    exact h id order listed rest follows
  | launch ready => exact h.launch ready
  | @finish _ s id p next notes holds follows turn outcome told =>
    intro x order listed rest follows'
    have before : m.next? x = some (.sweep order listed rest) := by
      rw [finish_next? _ _ faithful.numbered turn told] at follows'
      split at follows'
      -- A task that ends its pass goes on with what it was to do next.
      · next same => rw [same, follows, follows']
      · exact follows'
    rw [Moment.history, Scheduler.endPass_history, told]
    exact (h x order listed rest before).append ((_, _) :: notes)
  | @again s id order d runs =>
    intro x order' listed rest follows
    rw [again_next?] at follows
    rw [Moment.history, Scheduler.askAgain_history]
    split at follows
    · cases follows
    · exact h x order' listed rest follows
  | @list s id order r =>
    intro x order' listed rest follows
    rw [list_next? s id order r] at follows
    split at follows
    · obtain ⟨⟩ := Option.some.inj follows
      -- A sweep lists what is in the store, where no document is twice.
      refine ⟨Nat.le_refl _, ?_⟩
      rw [Moment.history, earlier_length, ← Moment.history, ← faithful.recorded.documents]
      exact faithful.recorded.documents ▸ openAt_distinct _
    · exact h x order' listed rest follows

/-! ## What passes begin on -/

/-- A pass begins on the snapshot that the store holds, or, in a sweep, held when the sweep listed
it. -/
def Timely (n : Note) (older : History) : Prop :=
  match n with
  | .began .opened p | .began .pause p => (openAt older).get? p.document.uri = some p.document
  | .began (.sweep listed) p =>
    (openAt (earlier older listed)).get? p.document.uri = some p.document
  | _ => True

theorem timely_append {notes older : History} (h : Each Timely older)
    (plain : ∀ n ∈ notes, n.2.Plain) :
    Each Timely (notes ++ older) := by
  refine h.append fun n mem mid _ => ?_
  have first := plain n mem
  obtain ⟨t, n⟩ := n
  cases n with
  | began starter p => exact first.elim
  | _ => trivial

theorem Ready.timely {m : Moment} {id : Nat} {starter : Starter} {d : Document}
    {next : Following} {p : Pass} (ready : Ready m id starter d next) (recorded : Recorded m)
    (listed : Listed m) (about : p.document = d) :
    Timely (.began starter p) m.history := by
  subst about
  have store : ∀ uri, (openAt m.history).get? uri = m.scheduler.documents.get? uri := by
    intro uri
    rw [recorded.documents]
  cases ready with
  | opened idle current => exact (store _).trans current
  | asked still => trivial
  | swept idle => exact (listed id _ _ _ (next?_hand rfl)).2 _ (List.mem_cons_self ..)
  | pause stands known due current => exact (store _).trans current

theorem Effect.timely {m n : Moment} (e : Effect w allowed m n) (faithful : Faithful w m)
    (listed : Listed m)
    (h : Each Timely m.history) : Each Timely n.history := by
  cases e with
  | quiet notes history plain documents state pass pause sweeps fresh lives heard =>
    rw [history]
    exact timely_append h fun x mem => (plain x mem).1
  | hear fine =>
    rw [Moment.history, Scheduler.heard_history]
    exact ⟨trivial, h⟩
  | lapse stands closed =>
    rw [Moment.history, Scheduler.place_history]
    exact h
  | launch ready =>
    rw [Moment.history, Scheduler.launch_history]
    exact ⟨ready.timely faithful.recorded listed (launch_document ..), h⟩
  | @finish _ s id p next notes holds follows turn outcome told =>
    rw [Moment.history, Scheduler.endPass_history, told]
    exact ⟨trivial, timely_append h fun x mem => (outcome.plain x mem).1⟩
  | again runs =>
    rw [Moment.history, Scheduler.askAgain_history]
    exact h
  | list => exact h

/-- A pass that the scheduler begins by itself is on what the store holds, unless it is one of a
sweep and the document has changed since it was listed. -/
theorem Timely.current_iff {starter : Starter} {p : Pass} {older : History}
    (h : Timely (.began starter p) older) (own : starter ≠ .asked) :
    (openAt older).get? p.document.uri = some p.document ↔
      ∀ listed, starter = .sweep listed →
        (openAt older).get? p.document.uri =
          (openAt (earlier older listed)).get? p.document.uri := by
  cases starter with
  | opened => exact ⟨nofun, fun _ => h⟩
  | asked => exact absurd rfl own
  | pause => exact ⟨nofun, fun _ => h⟩
  | sweep listed =>
    constructor
    · rintro current _ ⟨⟩
      exact current.trans h.symm
    · intro same
      exact (same listed rfl).trans h

/-! ## Runs -/

/-- **What is validated.**  Every pass that is begun by opening a document, after a pause, or by a
sweep is on the snapshot that the store holds at that time if and only if it is not one of a sweep
whose document was changed or closed since it was listed.  And all that is linted or compiled are
the snapshots of passes in flight. -/
theorem pass_current_iff {root : Option Text} {settings : Option ValidationSettings}
    {given : Option Linter} {events : List Scheduler.Event} {newer older : History} {t : Rat}
    {n : Note}
    (noted : ((Scheduler.start w root settings given).2.run w events).history =
      newer ++ (t, n) :: older) :
    (∀ starter p, n = .began starter p → starter ≠ .asked →
      ((openAt older).get? p.document.uri = some p.document ↔
        ∀ listed, starter = .sweep listed →
          (openAt older).get? p.document.uri =
            (openAt (earlier older listed)).get? p.document.uri)) ∧
      ∀ d, n.subject? = some d → ∃ p ∈ inFlight older, p.document = d := by
  have blank := start_blank (w := w) root settings given
  have idle : ∀ id, Moment.next? ⟨.free, (Scheduler.start w root settings given).2⟩ id = none := by
    intro id
    simp [next?_free, blank.point?]
  have calm : Listed ⟨.free, (Scheduler.start w root settings given).2⟩ := by
    intro id order listed rest follows
    rw [idle id] at follows
    cases follows
  have bare : Each Timely ((Scheduler.start w root settings given).2.history ++ []) :=
    timely_append trivial blank.plain
  rw [List.append_nil] at bare
  obtain ⟨faithful, -, timely⟩ := invariant_run
    (fun m => Listed m ∧ Each Timely m.history)
    (fun m n e faithful kept => ⟨e.listed faithful kept.1, e.timely faithful kept.1 kept.2⟩) blank
    ⟨calm, bare⟩ (Permitted.all w _ events)
  have truthful := faithful.truthful
  rw [Moment.history, noted] at timely truthful
  refine ⟨?_, ?_⟩
  · rintro starter p rfl own
    exact timely.of_append.1.current_iff own
  · intro d subject
    have right := truthful.of_append.1
    cases n with
    | lint l d' => exact Option.some.inj subject ▸ right
    | compile d' root dependencies contracts => exact Option.some.inj subject ▸ right
    | _ => cases subject

/-! A sweep over two documents begins, and the second one is closed while the first one is
compiled. -/

/-- The document that is closed. -/
def second : Document := { uri := "b".toList, path := "/b".toList, text := [] }

/-- The run with the sweep. -/
def closing : Scheduler := (Scheduler.start .calm none none none).2.run .calm
  [.request 0 (.saved { uri := "a".toList, path := "/a".toList, text := [] }),
    .request 1 (.saved second),
    .request 2 .validateAll, .request 3 (.closed second), .resume 2]

theorem second_begins : closing.history
    = closing.history.take 1 ++ (0,
      .began (.sweep 3) { document := second, serial := 5, number := 11 })
      :: closing.history.drop 2 := by
  have here : closing.history.drop 1
      = (0, .began (.sweep 3) { document := second, serial := 5, number := 11 })
        :: closing.history.drop 2 := by
    rfl
  rw [← here, List.take_append_drop]

/-- The pass on the closed document is not current, since the document changed after it was
listed. -/
theorem second_not_current :
    (openAt (closing.history.drop 2)).get? second.uri ≠ some second ∧
      (openAt (closing.history.drop 2)).get? second.uri
        ≠ (openAt (earlier (closing.history.drop 2) 3)).get? second.uri := by
  have current := (pass_current_iff second_begins).1 _ _ rfl (by simp)
  have closed : (openAt (closing.history.drop 2)).get? second.uri ≠ some second := by decide +kernel
  exact ⟨closed, fun same => closed (current.mpr fun _ listed => Starter.sweep.inj listed ▸ same)⟩

/-- A sweep begins a pass on a document that is closed. -/
theorem sweep_begins_closed :
    ∃ newer t listed p older, closing.history = newer ++ (t, .began (.sweep listed) p) :: older ∧
      (openAt older).has p.document.uri = false :=
  ⟨_, _, _, _, _, second_begins, by decide +kernel⟩

end ContractCheck.Schedule
