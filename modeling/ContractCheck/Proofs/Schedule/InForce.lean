import ContractCheck.Proofs.Schedule.Ledger

/-! # What is in force

Passes go by the settings and the linter of the scheduler, which a change of the configuration
replaces.  Which ones are in force can be read off the requests that came in (`settingsAt`,
`linterAt`).

Seen as moves, a request for another configuration is dealt with bit by bit.  Here it is one stride:
the request comes in, and the new settings and their linter are in force before anything else goes
on (`Stride`).  So the requests tell at every moment what is in force (`Stride.inForce`), and what
all strides keep holds after every run (`kept_in_force`).
-/
namespace ContractCheck.Schedule

/-- Whether a note says that another configuration is asked for. -/
def Note.Configures : Note → Prop
  | .received _ (.configure _) => True
  | _ => False

/-- The settings in force, according to the requests to a scheduler. -/
def settingsAt (first : Scheduler) : History → ValidationSettings
  | [] => first.settings
  | (_, .received _ (.configure settings)) :: _ => settings
  | _ :: older => settingsAt first older

/-- The linter in force, according to the requests to a scheduler: the one that came of the newest
configuration. -/
def linterAt (w : Surroundings) (first : Scheduler) : History → Option Linter
  | [] => first.linter
  | (t, .received order (.configure settings)) :: older =>
    (Scheduler.applySettings w (some settings) none
      { root := first.root, linter := linterAt w first older
        history := (t, .received order (.configure settings)) :: older }).2.linter
  | _ :: older => linterAt w first older

theorem settingsAt_cons (first : Scheduler) {n : Rat × Note} (other : ¬ n.2.Configures)
    (h : History) :
    settingsAt first (n :: h) = settingsAt first h := by
  obtain ⟨t, n⟩ := n
  cases n with
  | received order r => cases r <;> first | rfl | exact absurd trivial other
  | _ => rfl

theorem linterAt_cons (w : Surroundings) (first : Scheduler) {n : Rat × Note}
    (other : ¬ n.2.Configures)
    (h : History) : linterAt w first (n :: h) = linterAt w first h := by
  obtain ⟨t, n⟩ := n
  cases n with
  | received order r => cases r <;> first | rfl | exact absurd trivial other
  | _ => rfl

theorem settingsAt_append (first : Scheduler) {notes : History}
    (others : ∀ n ∈ notes, ¬ n.2.Configures)
    (h : History) : settingsAt first (notes ++ h) = settingsAt first h := by
  induction notes with
  | nil => rfl
  | cons n notes ih =>
    obtain ⟨other, rest⟩ := List.forall_mem_cons.mp others
    exact (settingsAt_cons first other _).trans (ih rest)

theorem linterAt_append (w : Surroundings) (first : Scheduler) {notes : History}
    (others : ∀ n ∈ notes, ¬ n.2.Configures) (h : History) :
    linterAt w first (notes ++ h) = linterAt w first h := by
  induction notes with
  | nil => rfl
  | cons n notes ih =>
    obtain ⟨other, rest⟩ := List.forall_mem_cons.mp others
    exact (linterAt_cons w first other _).trans (ih rest)

theorem Note.Plain.other {n : Note} (plain : n.Plain) : ¬ n.Configures := by
  cases n <;> first | exact id | exact plain.elim

theorem Note.Preparing.plain {n : Note} (preparing : n.Preparing) : n.Plain := by
  cases n <;> trivial

/-! ## Strides -/

/-- Whether a hand holds a request for another configuration. -/
def Hand.Configures : Hand → Prop
  | .heard _ _ (.configure _) => True
  | _ => False

/-- The scheduler after a request for another configuration came in and was followed. -/
def configured (w : Surroundings) (order : Nat) (settings : ValidationSettings) (s : Scheduler) :
    Scheduler :=
  ((s.heard order (.configure settings)).applySettings w (some settings) none).2

/-- A stride: a move, or a change of the configuration, after which the request only waits for its
answer. -/
inductive Stride (w : Surroundings) : Moment → Moment → Prop
  | begins {s : Scheduler} {m : Moment}
      (b : Begins w (fun _ r => ∀ settings, r ≠ .configure settings) s m) :
      Stride w ⟨.free, s⟩ m
  | configures {s : Scheduler} (order : Nat) (settings : ValidationSettings) :
      Stride w ⟨.free, s⟩ ⟨.heard s.fresh order .validateAll, configured w order settings s⟩
  | goes {m n : Moment} (g : Goes w m n) (other : ¬ m.hand.Configures) : Stride w m n

variable {w : Surroundings}

/-- Inside an event no request comes in. -/
theorem Goes.configures {m n : Moment} (g : Goes w m n) (there : n.hand.Configures) :
    m.hand.Configures := by
  cases g <;> first | exact there | exact there.elim

theorem Begins.configures {s : Scheduler} {m : Moment}
    (b : Begins w (fun _ r => ∀ settings, r ≠ .configure settings) s m) : ¬ m.hand.Configures := by
  cases b with
  | @hear order r fine =>
    cases r with
    | configure settings => exact absurd rfl (fine settings)
    | _ => exact id
  | _ => exact id

/-- When the configuration was changed, all documents are validated, or the request is answered. -/
theorem configure_going (s : Scheduler) (order : Nat) (settings : ValidationSettings) :
    Going w ⟨.heard s.fresh order .validateAll, configured w order settings s⟩
      ⟨.free, s.receive w order (.configure settings)⟩ := by
  unfold Scheduler.receive configured
  dsimp only
  split
  · next h =>
    rw [h]
    exact .head .turn (.single (.refuse _))
  · next h =>
    rw [h]
    split
    · exact beginSweep_going
    · exact .head .turn (.single .answer)

/-- **What every stride keeps holds after every run.** -/
theorem kept_strides (Kept : Moment → Prop) (stride : ∀ m n, Stride w m n → Kept m → Kept n)
    {s : Scheduler} {events : List Scheduler.Event} (start : Kept ⟨.free, s⟩) :
    Kept ⟨.free, s.run w events⟩ := by
  have going : ∀ {m n}, Going w m n → ¬ m.hand.Configures → Kept m → Kept n := by
    intro m n h other
    induction h using Relation.ReflTransGen.head_induction_on with
    | refl => exact id
    | head g _ ih =>
      exact fun kept =>
        ih (fun there => other (g.configures there)) (stride _ _ (.goes g other) kept)
  have event : ∀ {s e}, Kept ⟨.free, s⟩ → Kept ⟨.free, s.step w e⟩ := by
    intro s e kept
    have moves : Permits (fun _ r => ∀ settings, r ≠ .configure settings) s e →
        Kept ⟨.free, s.step w e⟩ := by
      intro may
      rcases event_moves (w := w) may with same | ⟨m, b, g⟩
      · rw [same]
        exact kept
      · exact going g b.configures (stride _ _ (.begins b) kept)
    cases e with
    | clock t => exact moves trivial
    | resume id => exact moves trivial
    | request order r =>
      cases r with
      | configure settings =>
        exact going (configure_going s order settings) id
          (stride _ _ (.configures order settings) kept)
      | _ => exact moves nofun
  -- The induction is on the events; inside one of them, `going` was on the moves.
  induction events generalizing s with
  | nil => exact start
  | cons e events ih => exact ih (event start)

/-! ## The requests tell what is in force -/

/-- What is in force is what the requests tell. -/
structure InForce (w : Surroundings) (first : Scheduler) (m : Moment) : Prop where
  root : m.scheduler.root = first.root
  settings : m.scheduler.settings = settingsAt first m.history
  linter : m.scheduler.linter = linterAt w first m.history

/-- The part of a scheduler that is in force. -/
def outfit (s : Scheduler) : Option Text × ValidationSettings × Option Linter :=
  (s.root, s.settings, s.linter)

theorem outfit_of_fixtures {s s' : Scheduler} (same : s'.fixtures = s.fixtures) :
    outfit s' = outfit s := by
  have read : outfit s'.fixtures = outfit s.fixtures := congrArg outfit same
  exact read

theorem outfit_place (s : Scheduler) (id : Nat) (p : Point) : outfit (s.place id p) = outfit s :=
  outfit_of_fixtures (s.place_fixtures id p)

theorem InForce.steady {first : Scheduler} {m n : Moment} (notes : History) (h : InForce w first m)
    (same : outfit n.scheduler = outfit m.scheduler) (history : n.history = notes ++ m.history)
    (others : ∀ x ∈ notes, ¬ x.2.Configures) : InForce w first n where
  root := (congrArg Prod.fst same).trans h.root
  settings := by
    rw [history, settingsAt_append first others]
    exact (congrArg (·.2.1) same).trans h.settings
  linter := by
    rw [history, linterAt_append w first others]
    exact (congrArg (·.2.2) same).trans h.linter

/-- The notes that a pass leaves when it ends are about the pass. -/
theorem conclude_steady (p : Pass) (s : Scheduler) :
    outfit (s.conclude w p) = outfit s ∧
      ∃ notes, (s.conclude w p).history = notes ++ s.history ∧ ∀ x ∈ notes, ¬ x.2.Configures := by
  obtain ⟨notes, told, outcome⟩ := conclude_outcome (w := w) p s
  rw [told, Scheduler.endPass_history]
  refine ⟨outfit_of_fixtures (Scheduler.endPass_fixtures p _), _ :: notes, rfl, ?_⟩
  exact List.forall_mem_cons.mpr ⟨id, fun x mem => (outcome.plain x mem).1.other⟩

theorem Goes.inForce {first : Scheduler} {m n : Moment} (g : Goes w m n)
    (other : ¬ m.hand.Configures)
    (h : InForce w first m) : InForce w first n := by
  cases g with
  | log level message => exact h.steady [_] rfl rfl (List.forall_mem_singleton.mpr id)
  | rule l => exact h.steady [_] rfl rfl (List.forall_mem_singleton.mpr id)
  | adjust settings => exact absurd trivial other
  | relint linter => exact absurd trivial other
  | clear => exact h.steady [_] rfl rfl (List.forall_mem_singleton.mpr id)
  | opened idle current =>
    exact h.steady [_] (outfit_of_fixtures (Scheduler.launch_fixtures ..))
      (Scheduler.launch_history ..)
      (List.forall_mem_singleton.mpr id)
  | asked still =>
    exact h.steady [_] (outfit_of_fixtures (Scheduler.launch_fixtures ..))
      (Scheduler.launch_history ..)
      (List.forall_mem_singleton.mpr id)
  | swept idle =>
    exact h.steady [_] (outfit_of_fixtures (Scheduler.launch_fixtures ..))
      (Scheduler.launch_history ..)
      (List.forall_mem_singleton.mpr id)
  | again runs =>
    exact h.steady [] (outfit_of_fixtures (Scheduler.remember_fixtures ..))
      (Scheduler.askAgain_history ..) nofun
  | lint set =>
    exact h.steady [_] (outfit_place ..) (Scheduler.place_history ..)
      (List.forall_mem_singleton.mpr id)
  | queue wanted taken =>
    exact h.steady [] (outfit_place ..) (Scheduler.place_history ..) nofun
  | compile wanted free =>
    exact h.steady [_] (outfit_place ..) (Scheduler.place_history ..)
      (List.forall_mem_singleton.mpr id)
  | @conclude s id progress p next done =>
    obtain ⟨same, notes, history, others⟩ := conclude_steady (w := w) p s
    exact h.steady notes same history others
  | answer => exact h.steady [_] rfl rfl (List.forall_mem_singleton.mpr id)
  | refuse t => exact h.steady [_] rfl rfl (List.forall_mem_singleton.mpr id)
  | store path =>
    exact h.steady [] (outfit_place ..) (Scheduler.place_history ..) nofun
  | await ids =>
    exact h.steady [] (outfit_place ..) (Scheduler.place_history ..) nofun
  | spend =>
    exact h.steady [] (outfit_place ..) (Scheduler.place_history ..) nofun
  | _ => exact h.steady [] rfl rfl nofun

theorem Begins.inForce {first s : Scheduler} {m : Moment}
    (b : Begins w (fun _ r => ∀ settings, r ≠ .configure settings) s m)
    (h : InForce w first ⟨.free, s⟩) :
    InForce w first m := by
  cases b with
  | clock later => exact h.steady [] rfl rfl nofun
  | @hear order r fine =>
    refine h.steady [_] (outfit_of_fixtures (s.heard_fixtures order r)) (s.heard_history order r)
      (List.forall_mem_singleton.mpr ?_)
    cases r with
    | configure settings => exact absurd rfl (fine settings)
    | _ => exact id
  | wait stands known early =>
    exact h.steady [] (outfit_place ..) (Scheduler.place_history ..) nofun
  | lapse stands closed =>
    exact h.steady [] (outfit_place ..) (Scheduler.place_history ..) nofun
  | wake stands known due current =>
    exact h.steady [_] (outfit_of_fixtures (Scheduler.launch_fixtures ..))
      (Scheduler.launch_history ..)
      (List.forall_mem_singleton.mpr id)
  | promote stands => exact h.steady [_] rfl rfl (List.forall_mem_singleton.mpr id)
  | lintFailed stands answer named => exact h.steady [_] rfl rfl (List.forall_mem_singleton.mpr id)
  | lintLost stands answer unset =>
    refine h.steady [_, _] (outfit_of_fixtures (Scheduler.endPass_fixtures ..))
      (Scheduler.endPass_history ..) ?_
    exact List.forall_mem_cons.mpr ⟨id, List.forall_mem_singleton.mpr id⟩
  | lock stands unlocked first =>
    exact h.steady [_] (outfit_place ..) (Scheduler.place_history ..)
      (List.forall_mem_singleton.mpr id)
  | compiled stands answer => exact h.steady [_] rfl rfl (List.forall_mem_singleton.mpr id)
  | compileFailed stands answer =>
    exact h.steady [_, _] rfl rfl (List.forall_mem_cons.mpr ⟨id, List.forall_mem_singleton.mpr id⟩)
  | _ => exact h.steady [] rfl rfl nofun

/-- The linter that settings lead to depends on the root, the linter before and what was noted. -/
theorem applySettings_linter {s s' : Scheduler} (settings : ValidationSettings)
    (root : s'.root = s.root) (linter : s'.linter = s.linter) (history : s'.history = s.history) :
    (s'.applySettings w (some settings) none).2.linter =
      (s.applySettings w (some settings) none).2.linter := by
  have used : ∀ (l : Option Linter) (a b : Scheduler), a.settings = b.settings →
      a.history = b.history →
      (a.useLinter w l).2.linter = (b.useLinter w l).2.linter := by
    intro l a b settings history
    cases l with
    | none => rfl
    | some l =>
      simp only [Scheduler.useLinter, Scheduler.occasion, Scheduler.noted_history,
        settings, history,
        List.length_cons]
      cases w.setRules (b.history.length + 1) (l.withRules b.settings.linterRules) <;> rfl
  unfold Scheduler.applySettings
  dsimp only [Option.getD_some]
  cases settings.linter with
  | none => rfl
  | some name =>
    simp only [Scheduler.occasion, history, root]
    cases w.linter s.history.length name s.root with
    | made l => exact used _ _ _ rfl rfl
    | unavailable reason => rfl
    | broken t => exact linter

/-- A request for another configuration, followed: everything but the settings, the linter and the
notes is as the request left it. -/
theorem configured_frame (order : Nat) (settings : ValidationSettings) (s : Scheduler) :
    configured w order settings s =
      { s.heard order (.configure settings) with
        settings, linter := (configured w order settings s).linter
        history := (configured w order settings s).history } :=
  Scheduler.applySettings_frame _ (some settings) none

theorem configured_history (order : Nat) (settings : ValidationSettings) (s : Scheduler) :
    ∃ notes, (configured w order settings s).history
        = notes ++ (s.now, .received order (.configure settings)) :: s.history ∧
      ∀ x ∈ notes, x.2.Preparing :=
  Scheduler.applySettings_notes (s.heard order (.configure settings)) (some settings) none

/-- **Every stride leaves in force what the requests tell.** -/
theorem Stride.inForce {first : Scheduler} {m n : Moment} (stride : Stride w m n)
    (h : InForce w first m) :
    InForce w first n := by
  cases stride with
  | begins b => exact b.inForce h
  | goes g other => exact g.inForce other h
  | @configures s order settings =>
    obtain ⟨notes, history, preparing⟩ := configured_history (w := w) order settings s
    have others : ∀ x ∈ notes, ¬ x.2.Configures := fun x mem => (preparing x mem).plain.other
    have frame := configured_frame (w := w) order settings s
    refine ⟨(congrArg (·.root) frame).trans h.root, ?_, ?_⟩
    · rw [Moment.history, history, settingsAt_append first others]
      exact congrArg (·.settings) frame
    · rw [Moment.history, history, linterAt_append w first others]
      exact applySettings_linter settings h.root h.linter rfl

/-- The notes stay true, whatever request is held in the hand. -/
theorem Faithful.hold {s : Scheduler} {id order : Nat} {r r' : Request}
    (h : Faithful w ⟨.heard id order r, s⟩) :
    Faithful w ⟨.heard id order r', s⟩ :=
  ⟨h.numbered, ⟨h.recorded.documents, h.recorded.flying, h.recorded.distinct, h.recorded.bounded⟩,
    h.truthful⟩

/-- Every stride keeps the notes true. -/
theorem Stride.faithful {m n : Moment} (stride : Stride w m n) (h : Faithful w m) :
    Faithful w n := by
  have moves : ∀ {m n : Moment}, Move w (fun _ _ => True) m n → Faithful w m → Faithful w n :=
    fun move h => move.effect.faithful h
  cases stride with
  | begins b => exact b.effect.faithful h
  | goes g other => exact moves (.goes g) h
  | @configures s order settings =>
    have going : ∀ {m n}, Going w m n → Faithful w m → Faithful w n := by
      intro m n h
      induction h with
      | refl => exact id
      | tail _ g ih => exact fun k => moves (.goes g) (ih k)
    have heard := moves (.begins (.hear order (r := .configure settings) trivial)) h
    exact (going applySettings_going heard).hold

/-- What every stride keeps while the requests tell what is in force holds after every run. -/
theorem kept_in_force {first : Scheduler} {events : List Scheduler.Event} (Kept : Moment → Prop)
    (stride : ∀ m n, Stride w m n → InForce w first m → InForce w first n → Kept m → Kept n)
    (force : InForce w first ⟨.free, first⟩) (start : Kept ⟨.free, first⟩) :
    InForce w first ⟨.free, first.run w events⟩ ∧ Kept ⟨.free, first.run w events⟩ := by
  refine kept_strides (fun m => InForce w first m ∧ Kept m) ?_ ⟨force, start⟩
  rintro m n taken ⟨force, kept⟩
  exact ⟨taken.inForce force, stride m n taken force (taken.inForce force) kept⟩

theorem start_inForce (root : Option Text) (settings : Option ValidationSettings)
    (given : Option Linter) :
    InForce w (Scheduler.start w root settings given).2
      ⟨.free, (Scheduler.start w root settings given).2⟩ := by
  have others : ∀ x ∈ (Scheduler.start w root settings given).2.history, ¬ x.2.Configures :=
    fun x mem => ((start_blank root settings given).plain x mem).other
  refine ⟨rfl, ?_, ?_⟩
  · have read := settingsAt_append (Scheduler.start w root settings given).2 others []
    rw [List.append_nil] at read
    exact read.symm
  · have read := linterAt_append w (Scheduler.start w root settings given).2 others []
    rw [List.append_nil] at read
    exact read.symm

end ContractCheck.Schedule
