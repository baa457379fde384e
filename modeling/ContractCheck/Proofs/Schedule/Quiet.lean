import ContractCheck.Proofs.Schedule.InForce

/-! # A pause waits for quiet

A task that pauses looks again and again whether its document has been left alone for long enough.
Edits move the time at which that will be so, and changes of the configuration move it too; the task
finds out when it looks.  What counts is what it finds at the moment at which its pass begins: the
time of the newest edit, which the state of the document keeps (`Dated`), and the settings in force.

So no pass begins after a pause before the document was left alone for the delay that is set then
(`pause_waits`).  That goes for the first pass after an edit and for passes that were asked for
during another.
-/
namespace ContractCheck.Schedule

/-- When a document was last edited, as far as it was not closed since. -/
def editedAt (uri : Text) : History → Option Rat
  | [] => none
  | (t, .received _ (.changed d)) :: older => if d.uri = uri then some t else editedAt uri older
  | (_, .received _ (.closed d)) :: older => if d.uri = uri then none else editedAt uri older
  | _ :: older => editedAt uri older

theorem editedAt_cons (uri : Text) {n : Rat × Note} (other : ∀ order r, n.2 ≠ .received order r)
    (h : History) :
    editedAt uri (n :: h) = editedAt uri h := by
  obtain ⟨t, n⟩ := n
  cases n with
  | received order r => exact absurd rfl (other order r)
  | _ => rfl

theorem editedAt_append (uri : Text) {notes : History}
    (others : ∀ n ∈ notes, ∀ order r, n.2 ≠ .received order r)
    (h : History) : editedAt uri (notes ++ h) = editedAt uri h := by
  induction notes with
  | nil => rfl
  | cons n notes ih =>
    obtain ⟨other, rest⟩ := List.forall_mem_cons.mp others
    exact (editedAt_cons uri other _).trans (ih rest)

theorem Note.Plain.unasked {n : Note} (plain : n.Plain) (order : Nat) (r : Request) :
    n ≠ .received order r := by
  rintro rfl
  exact plain

/-- A pass that begins after a pause begins when its document has been left alone for the delay in
force. -/
def Waited (first : Scheduler) (t : Rat) (n : Note) (older : History) : Prop :=
  ∀ p, n = .began .pause p → ∀ edit, editedAt p.document.uri older = some edit →
    edit + (settingsAt first older).delay ≤ t

/-- Every pass after a pause began when its document had been left alone. -/
def Patient (first : Scheduler) : History → Prop
  | [] => True
  | (t, n) :: older => Waited first t n older ∧ Patient first older

theorem Patient.append {first : Scheduler} {notes h : History}
    (others : ∀ x ∈ notes, ∀ p, x.2 ≠ .began .pause p) (patient : Patient first h) :
    Patient first (notes ++ h) := by
  induction notes with
  | nil => exact patient
  | cons n notes ih =>
    obtain ⟨other, rest⟩ := List.forall_mem_cons.mp others
    exact ⟨fun p began => absurd began (other p), ih rest⟩

theorem Patient.of_append {first : Scheduler} {newer older : History}
    (h : Patient first (newer ++ older)) :
    Patient first older := by
  induction newer with
  | nil => exact h
  | cons n newer ih => exact ih h.2

/-- The state of a document keeps the time of its newest edit. -/
def Dated (m : Moment) : Prop :=
  ∀ uri edit, editedAt uri m.history = some edit →
    (m.scheduler.state? uri).map DocState.requestedAt = some edit

variable {w : Surroundings} {allowed : Scheduler → Request → Prop}

/-! ## Edits are dated -/

/-- The time of an edit is kept when nothing was edited and states keep their times. -/
theorem Dated.keep {m n : Moment} (notes : History) (h : Dated m)
    (history : n.history = notes ++ m.history)
    (others : ∀ x ∈ notes, ∀ order r, x.2 ≠ .received order r)
    (state : ∀ uri edit, (m.scheduler.state? uri).map DocState.requestedAt = some edit →
      (n.scheduler.state? uri).map DocState.requestedAt = some edit) : Dated n := by
  intro uri edit newest
  rw [history, editedAt_append uri others] at newest
  exact state uri edit (h uri edit newest)

theorem requestedAt_remember {s : Scheduler} {uri : Text} {edit : Rat}
    (dated : (s.state? uri).map DocState.requestedAt = some edit) :
    (s.remember uri).1.requestedAt = edit := by
  obtain ⟨st, known, rfl⟩ := Option.map_eq_some_iff.mp dated
  rw [Scheduler.remember_fst, known, Option.getD_some]

theorem requestedAt_after (p : Pass) (st : DocState) :
    (st.after p).requestedAt = st.requestedAt := by
  unfold DocState.after
  split <;> rfl

theorem requestedAt_edited (st : DocState) (now : Rat) : (st.edited now).requestedAt = now := by
  unfold DocState.edited
  split <;> rfl

/-- A request brings a time, leaves it, or takes it away. -/
theorem Dated.hear {s : Scheduler} (h : Dated ⟨.free, s⟩) (hand : Hand) (order : Nat)
    (r : Request) :
    Dated ⟨hand, s.heard order r⟩ := by
  intro uri edit newest
  rw [Moment.history, Scheduler.heard_history] at newest
  rw [Scheduler.state?_heard]
  cases r with
  | opened d =>
    have before := h uri edit newest
    obtain ⟨st, known, same⟩ := Option.map_eq_some_iff.mp before
    rw [known]
    simp only [Request.state]
    split <;> simp [same]
  | changed d =>
    simp only [editedAt] at newest
    simp only [Request.state]
    by_cases mine : d.uri = uri
    · rw [if_pos mine] at newest
      rw [if_pos mine.symm, Option.map_some, requestedAt_edited, newest]
    · rw [if_neg mine] at newest
      rw [if_neg (Ne.symm mine)]
      exact h uri edit newest
  | closed d =>
    simp only [editedAt] at newest
    simp only [Request.state]
    by_cases mine : d.uri = uri
    · rw [if_pos mine] at newest
      cases newest
    · rw [if_neg mine] at newest
      rw [if_neg (Ne.symm mine)]
      exact h uri edit newest
  | saved d => exact h uri edit newest
  | validate d => exact h uri edit newest
  | validateAll => exact h uri edit newest
  | configure settings => exact h uri edit newest
  | waitIdle => exact h uri edit newest

theorem Effect.dated {m n : Moment} (e : Effect w allowed m n) (h : Dated m) : Dated n := by
  cases e with
  | quiet notes history plain documents state pass pause sweeps fresh lives heard =>
    refine h.keep notes history (fun x mem => (plain x mem).1.unasked) fun uri edit dated => ?_
    rw [state]
    exact dated
  | hear fine => exact h.hear _ _ _
  | @lapse s id uri wake stands closed =>
    refine h.keep [] (s.place_history id .spent) (by simp) fun uri edit dated => ?_
    rw [Scheduler.state?_place]
    exact dated
  | @launch m id starter d next ready =>
    refine h.keep [_] (m.scheduler.launch_history starter d) ?_ fun uri edit dated => ?_
    · exact List.forall_mem_singleton.mpr (by simp)
    · rw [Scheduler.state?_launch]
      split
      · next same =>
        subst same
        simp [requestedAt_remember dated]
      · exact dated
  | @finish m s id p next notes holds follows turn outcome told =>
    refine h.keep ((s.now, .ended p) :: notes) ?_ ?_ fun uri edit dated => ?_
    · rw [Moment.history, Scheduler.endPass_history, told]
      rfl
    · exact List.forall_mem_cons.mpr ⟨by simp, fun x mem => (outcome.plain x mem).1.unasked⟩
    · have same : s.state? uri = m.scheduler.state? uri := by rw [told]; rfl
      rw [Scheduler.state?_endPass, same]
      split
      · rw [Option.map_map]
        exact (congrArg (fun f => (m.scheduler.state? uri).map f)
          (funext (requestedAt_after p))).trans dated
      · exact dated
  | @again s id order d runs =>
    refine h.keep [] (s.askAgain_history d.uri) (by simp) fun uri edit dated => ?_
    rw [Scheduler.state?_askAgain]
    split
    · next same =>
      subst same
      simp [requestedAt_remember dated]
    · exact dated
  | list => exact h

theorem Stride.dated {m n : Moment} (stride : Stride w m n) (h : Dated m) : Dated n := by
  cases stride with
  | begins b => exact b.effect.dated h
  | goes g other =>
    have effect : Effect w (fun _ _ => True) m n := g.effect
    exact effect.dated h
  | @configures s order settings =>
    obtain ⟨notes, history, preparing⟩ := configured_history (w := w) order settings s
    have heard : Dated ⟨.heard s.fresh order (.configure settings),
        s.heard order (.configure settings)⟩ :=
      h.hear _ order (.configure settings)
    refine heard.keep notes history (fun x mem => (preparing x mem).plain.unasked)
      fun uri edit dated => ?_
    rw [configured_frame]
    exact dated

/-! ## Passes begin when it is quiet -/

theorem Note.Plain.unbegun {n : Note} (plain : n.Plain) (starter : Starter) (p : Pass) :
    n ≠ .began starter p := by
  rintro rfl
  exact plain

theorem Effect.patient {first : Scheduler} {m n : Moment} (e : Effect w allowed m n)
    (force : InForce w first m) (dated : Dated m) (h : Patient first m.history) :
    Patient first n.history := by
  cases e with
  | quiet notes history plain documents state pass pause sweeps fresh lives heard =>
    rw [history]
    exact h.append fun x mem => (plain x mem).1.unbegun .pause
  | @hear s order r fine =>
    rw [Moment.history, Scheduler.heard_history]
    exact ⟨by simp [Waited], h⟩
  | lapse stands closed =>
    rw [Moment.history, Scheduler.place_history]
    exact h
  | @launch m id starter d next ready =>
    rw [Moment.history, Scheduler.launch_history]
    refine ⟨?_, h⟩
    rintro p began edit newest
    obtain ⟨rfl, rfl⟩ := Note.began.inj began
    cases ready with
    | @pause s id wake st d stands known due current =>
      -- The state that the task looked at has the time of the newest edit.
      have newest := dated d.uri edit newest
      rw [known, Option.map_some] at newest
      obtain rfl := Option.some.inj newest
      have settings : s.settings = settingsAt first s.history := force.settings
      rw [settings] at due
      exact due
  | @finish m s id p next notes holds follows turn outcome told =>
    rw [Moment.history, Scheduler.endPass_history, told]
    exact ⟨by simp [Waited], h.append fun x mem => (outcome.plain x mem).1.unbegun .pause⟩
  | again runs =>
    rw [Moment.history, Scheduler.askAgain_history]
    exact h
  | list => exact h

theorem Stride.patient {first : Scheduler} {m n : Moment} (stride : Stride w m n)
    (force : InForce w first m)
    (dated : Dated m) (h : Patient first m.history) : Patient first n.history := by
  cases stride with
  | begins b => exact b.effect.patient force dated h
  | goes g other =>
    have effect : Effect w (fun _ _ => True) m n := g.effect
    exact effect.patient force dated h
  | @configures s order settings =>
    obtain ⟨notes, history, preparing⟩ := configured_history (w := w) order settings s
    rw [Moment.history, history]
    exact Patient.append (fun x mem => (preparing x mem).plain.unbegun .pause) ⟨by simp [Waited], h⟩

/-! ## Runs -/

theorem start_quiet (root : Option Text) (settings : Option ValidationSettings)
    (given : Option Linter) :
    Dated ⟨.free, (Scheduler.start w root settings given).2⟩ ∧
      Patient (Scheduler.start w root settings given).2
        (Scheduler.start w root settings given).2.history := by
  have plain := (start_blank (w := w) root settings given).plain
  have unedited : ∀ uri, editedAt uri (Scheduler.start w root settings given).2.history = none := by
    intro uri
    have read := editedAt_append uri (fun x mem => (plain x mem).unasked) []
    rw [List.append_nil] at read
    exact read
  refine ⟨fun uri edit newest => ?_, ?_⟩
  · cases (unedited uri).symm.trans newest
  · have bare : Patient (Scheduler.start w root settings given).2
        ((Scheduler.start w root settings given).2.history ++ []) :=
      Patient.append (fun x mem => (plain x mem).unbegun .pause) trivial
    rwa [List.append_nil] at bare

/-- **A pause waits for quiet**: when a pass begins after a pause, the newest edit of its document
lies back by the delay that is in force at that moment, or by more. -/
theorem pause_waits {root : Option Text} {settings : Option ValidationSettings}
    {given : Option Linter} {events : List Scheduler.Event} {newer older : History} {t edit : Rat}
    {p : Pass}
    (began : ((Scheduler.start w root settings given).2.run w events).history
      = newer ++ (t, .began .pause p) :: older)
    (edited : editedAt p.document.uri older = some edit) :
    edit + (settingsAt (Scheduler.start w root settings given).2 older).delay ≤ t := by
  have start := start_quiet (w := w) root settings given
  have force := start_inForce (w := w) root settings given
  generalize (Scheduler.start w root settings given).2 = first at *
  have kept : Patient first (first.run w events).history :=
    (kept_in_force (fun m => Dated m ∧ Patient first m.history)
      (fun m n stride force _ kept => ⟨stride.dated kept.1, stride.patient force kept.1 kept.2⟩)
      force start).2.2
  rw [began] at kept
  exact kept.of_append.1 p rfl edit edited

/-! A document is edited at once and again after a second.  The task that pauses looks after one
second and a half, and after two and a half. -/

/-- The run with the two edits. -/
def keystrokes : Scheduler := (Scheduler.start .calm none none none).2.run .calm
  (let d : Document := { uri := "a".toList, path := "/a".toList, text := [] }
  [.request 0 (.changed d), .clock 1000, .request 1 (.changed d), .clock 1500, .resume 2,
    .clock 2500, .resume 2])

/-- The pass begins one and a half seconds after the second edit. -/
theorem typing_waits :
    ∃ newer older p, keystrokes.history = newer ++ (2500, .began .pause p) :: older ∧
      editedAt p.document.uri older = some 1000 ∧
      (1000 : Rat) + (settingsAt (Scheduler.start .calm none none none).2 older).delay ≤ 2500 := by
  have here : keystrokes.history.drop 1 = (2500, .began .pause
      { document := { uri := "a".toList, path := "/a".toList, text := [] }, serial := 1,
        number := 4 }) :: keystrokes.history.drop 2 := by
    with_unfolding_all rfl
  have began := List.take_append_drop 1 keystrokes.history
  rw [here] at began
  have edited : editedAt "a".toList (keystrokes.history.drop 2) = some 1000 := by decide +kernel
  exact ⟨_, _, _, began.symm, edited, pause_waits began.symm edited⟩

end ContractCheck.Schedule
