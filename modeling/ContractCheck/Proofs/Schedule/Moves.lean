import ContractCheck.Schedule.Machine
import Mathlib.Logic.Relation

/-! # The moves of a scheduler

`Scheduler.step` answers an event at one go, in which several passes may begin and end.  Here an
event is taken apart into **moves**: something begins it (`Begins`), and then the task that it
concerns goes on (`Goes`) until it stands at a point again.  Between two moves the task has
something in its **hand**: the request that came in, or the pass that it is in.

The main statement is `event_moves`: every event is a beginning and moves after it.  So what every
move keeps holds after every run (`kept_run`).
-/
namespace ContractCheck.Schedule

/-- How far the pass in a task's hand has come. -/
inductive Progress where
  | begun
  | linted
  | compiled
deriving DecidableEq

/-- What goes on inside an event. -/
inductive Hand where
  /-- Nothing: all tasks stand at their points. -/
  | free
  /-- A request came in and has become a task. -/
  | heard (id order : Nat) (request : Request)
  /-- A task goes on outside a pass. -/
  | task (id : Nat) (next : Following)
  /-- A task goes on inside a pass. -/
  | pass (id : Nat) (progress : Progress) (pass : Pass) (next : Following)

/-- A moment: a scheduler and what goes on in it. -/
structure Moment where
  hand : Hand
  scheduler : Scheduler

/-- How an event begins.  Only requests that are allowed come in. -/
inductive Begins (w : Surroundings) (allowed : Scheduler → Request → Prop) :
    Scheduler → Moment → Prop
  | clock {s : Scheduler} {t : Rat} (later : s.now < t) :
    Begins w allowed s ⟨.free, { s with now := t }⟩
  | hear {s : Scheduler} (order : Nat) {r : Request} (fine : allowed s r) :
      Begins w allowed s ⟨.heard s.fresh order r, s.heard order r⟩
  /-- A pause goes on for longer. -/
  | wait {s : Scheduler} {id : Nat} {uri : Text} {wake : Rat} {st : DocState}
      (stands : s.point? id = some (.pausing uri wake)) (known : s.state? uri = some st)
      (early : s.now < st.requestedAt + s.settings.delay) :
      Begins w allowed s ⟨.free, s.place id (.pausing uri (st.requestedAt + s.settings.delay))⟩
  /-- A pause is over, but the document was closed. -/
  | lapse {s : Scheduler} {id : Nat} {uri : Text} {wake : Rat}
      (stands : s.point? id = some (.pausing uri wake))
      (closed : s.state? uri = none ∨ s.documents.get? uri = none) :
      Begins w allowed s ⟨.free, s.place id .spent⟩
  /-- A pause is over, and a pass begins. -/
  | wake {s : Scheduler} {id : Nat} {uri : Text} {wake : Rat} {st : DocState} {d : Document}
      (stands : s.point? id = some (.pausing uri wake)) (known : s.state? uri = some st)
      (due : st.requestedAt + s.settings.delay ≤ s.now) (current : s.documents.get? uri = some d) :
      Begins w allowed s
        ⟨.pass id .begun ((s.putState uri { st with phase := .idle }).launch .pause d).1 .nothing,
          ((s.putState uri { st with phase := .idle }).launch .pause d).2⟩
  | vanish {s : Scheduler} {id : Nat} (stands : s.point? id = some .spent) :
      Begins w allowed s ⟨.free, s.drop id⟩
  | promote {s : Scheduler} {id order : Nat} {path : Text}
      (stands : s.point? id = some (.promoting order path)) :
      Begins w allowed s ⟨.task id (.answer order), s.noted (.promote path)⟩
  | look {s : Scheduler} {id order : Nat} {ids : List Nat}
      (stands : s.point? id = some (.awaiting order ids)) :
        Begins w allowed s ⟨.task id (.answer order), s⟩
  | linted {s : Scheduler} {id : Nat} {p : Pass} {l : Linter} {next : Following}
      {found : List EditorDiagnostic} (stands : s.point? id = some (.inPass (.linting p l) next))
      (answer : w.lint s.occasion l p.document = .ok found) :
      Begins w allowed s ⟨.pass id .linted { p with found } next, s⟩
  | lintFailed {s : Scheduler} {id : Nat} {p : Pass} {l l' : Linter} {next : Following}
      {t : Trouble}
      (stands : s.point? id = some (.inPass (.linting p l) next))
      (answer : w.lint s.occasion l p.document = .error t) (named : s.linter = some l') :
      Begins w allowed s ⟨.pass id .linted p next,
        s.logged .warning ("Linting failed: ".toList ++ t.message)
          (Scheduler.about p.document ++ [("linter".toList, .text l'.name.label)])⟩
  /-- The linter failed, and none is set any more: the whole pass fails. -/
  | lintLost {s : Scheduler} {id : Nat} {p : Pass} {l : Linter} {next : Following} {t : Trouble}
      (stands : s.point? id = some (.inPass (.linting p l) next))
      (answer : w.lint s.occasion l p.document = .error t) (unset : s.linter = none) :
      Begins w allowed s ⟨.task id next,
        (s.passFailed p.document "'NoneType' object has no attribute 'name'".toList).endPass p⟩
  /-- A pass that waited for the compile lock has it. -/
  | lock {s : Scheduler} {id : Nat} {p : Pass} {next : Following}
      (stands : s.point? id = some (.inPass (.queued p) next)) (unlocked : s.locked = false)
      (first : s.waiting.head? = some id) :
      Begins w allowed s ⟨.free, ({ s with waiting := s.waiting.tail }.beginCompile p).place id
        (.inPass (.compiling p) next)⟩
  | compiled {s : Scheduler} {id : Nat} {p : Pass} {next : Following} {errors : List CompilerError}
      (stands : s.point? id = some (.inPass (.compiling p) next))
      (answer : w.compile ({ s with locked := false }.noted (.compiled p.document)).occasion
        p.document
        = .ok errors) :
      Begins w allowed s ⟨.pass id .compiled
        { p with found := p.found ++ Scheduler.ownErrors p.document errors } next,
        { s with locked := false }.noted (.compiled p.document)⟩
  | compileFailed {s : Scheduler} {id : Nat} {p : Pass} {next : Following} {t : Trouble}
      (stands : s.point? id = some (.inPass (.compiling p) next))
      (answer : w.compile ({ s with locked := false }.noted (.compiled p.document)).occasion
        p.document
        = .error t) :
      Begins w allowed s ⟨.pass id .compiled p next,
        ({ s with locked := false }.noted (.compiled p.document)).logged .warning
          ("Compilation failed: ".toList ++ t.message) (Scheduler.about p.document)⟩

/-- How a task goes on inside an event. -/
inductive Goes (w : Surroundings) : Moment → Moment → Prop
  /-- The request asks for nothing more than its own task does. -/
  | turn {s : Scheduler} {id order : Nat} {r : Request} :
      Goes w ⟨.heard id order r, s⟩ ⟨.task id (.answer order), s⟩
  | log {s : Scheduler} {id order : Nat} {r : Request} (level : LogLevel) (message : Text) :
      Goes w ⟨.heard id order r, s⟩ ⟨.heard id order r, s.noted (.log level message)⟩
  | rule {s : Scheduler} {id order : Nat} {r : Request} (l : Linter) :
      Goes w ⟨.heard id order r, s⟩ ⟨.heard id order r, s.noted (.rules l)⟩
  | adjust {s : Scheduler} {id order : Nat} (settings : ValidationSettings) :
      Goes w ⟨.heard id order (.configure settings), s⟩
        ⟨.heard id order (.configure settings), { s with settings }⟩
  | relint {s : Scheduler} {id order : Nat} {settings : ValidationSettings}
      (linter : Option Linter) :
      Goes w ⟨.heard id order (.configure settings), s⟩
        ⟨.heard id order (.configure settings), { s with linter }⟩
  | clear {s : Scheduler} {id order : Nat} {d : Document} :
      Goes w ⟨.heard id order (.closed d), s⟩ ⟨.task id (.answer order),
        s.noted (.publish d.uri [])⟩
  /-- A document that was opened is validated. -/
  | opened {s : Scheduler} {id order : Nat} {d : Document} (idle : s.busy d.uri = false)
      (current : s.documents.get? d.uri = some d) :
      Goes w ⟨.heard id order (.opened d), s⟩
        ⟨.pass id .begun (s.launch .opened d).1 (.answer order), (s.launch .opened d).2⟩
  | asked {s : Scheduler} {id order : Nat} {d : Document} (still : s.running d.uri = false) :
      Goes w ⟨.heard id order (.validate d), s⟩
        ⟨.pass id .begun (s.launch .asked d).1 (.answer order), (s.launch .asked d).2⟩
  | again {s : Scheduler} {id order : Nat} {d : Document} (runs : s.running d.uri = true) :
      Goes w ⟨.heard id order (.validate d), s⟩ ⟨.task id (.answer order), s.askAgain d.uri⟩
  /-- A sweep lists the open documents. -/
  | list {s : Scheduler} {id order : Nat} {r : Request} (first : s.sweeping = false) :
      Goes w ⟨.heard id order r, s⟩
        ⟨.task id (.sweep order s.occasion s.documents.toList), { s with sweeping := true }⟩
  | skip {s : Scheduler} {id order listed : Nat} {d : Document} {rest : List Document}
      (busy : s.busy d.uri = true) :
      Goes w ⟨.task id (.sweep order listed (d :: rest)), s⟩
        ⟨.task id (.sweep order listed rest), s⟩
  | swept {s : Scheduler} {id order listed : Nat} {d : Document} {rest : List Document}
      (idle : s.busy d.uri = false) :
      Goes w ⟨.task id (.sweep order listed (d :: rest)), s⟩
        ⟨.pass id .begun (s.launch (.sweep listed) d).1 (.sweep order listed rest),
          (s.launch (.sweep listed) d).2⟩
  | unlist {s : Scheduler} {id order listed : Nat} :
      Goes w ⟨.task id (.sweep order listed []), s⟩ ⟨.task id (.answer order),
        { s with sweeping := false }⟩
  | lint {s : Scheduler} {id : Nat} {p : Pass} {next : Following} {l : Linter}
      (set : s.linter = some l) :
      Goes w ⟨.pass id .begun p next, s⟩
        ⟨.free, (s.noted (.lint l.name p.document)).place id (.inPass (.linting p l) next)⟩
  | plain {s : Scheduler} {id : Nat} {p : Pass} {next : Following} (unset : s.linter = none) :
      Goes w ⟨.pass id .begun p next, s⟩ ⟨.pass id .linted p next, s⟩
  | queue {s : Scheduler} {id : Nat} {p : Pass} {next : Following}
      (wanted : s.settings.asYouType = true)
      (taken : (!s.locked && s.waiting.isEmpty) = false) :
      Goes w ⟨.pass id .linted p next, s⟩
        ⟨.free, { s with waiting := s.waiting ++ [id] }.place id (.inPass (.queued p) next)⟩
  | compile {s : Scheduler} {id : Nat} {p : Pass} {next : Following}
      (wanted : s.settings.asYouType = true)
      (free : (!s.locked && s.waiting.isEmpty) = true) :
      Goes w ⟨.pass id .linted p next, s⟩
        ⟨.free, (s.beginCompile p).place id (.inPass (.compiling p) next)⟩
  | conclude {s : Scheduler} {id : Nat} {progress : Progress} {p : Pass} {next : Following}
      (done : progress = .compiled ∨ progress = .linted ∧ s.settings.asYouType = false) :
      Goes w ⟨.pass id progress p next, s⟩ ⟨.task id next, s.conclude w p⟩
  | answer {s : Scheduler} {id order : Nat} :
      Goes w ⟨.task id (.answer order), s⟩ ⟨.free, s.answer id order⟩
  | refuse {s : Scheduler} {id order : Nat} (t : Trouble) :
      Goes w ⟨.task id (.answer order), s⟩ ⟨.free, s.refuse id order t⟩
  | store {s : Scheduler} {id order : Nat} (path : Text) :
      Goes w ⟨.task id (.answer order), s⟩ ⟨.free, s.place id (.promoting order path)⟩
  | await {s : Scheduler} {id order : Nat} (ids : List Nat) :
      Goes w ⟨.task id (.answer order), s⟩ ⟨.free, s.place id (.awaiting order ids)⟩
  | spend {s : Scheduler} {id : Nat} :
      Goes w ⟨.task id .nothing, s⟩ ⟨.free, s.place id .spent⟩

/-- A move: an event begins, or a task goes on inside one. -/
inductive Move (w : Surroundings) (allowed : Scheduler → Request → Prop) : Moment → Moment → Prop
  | begins {s : Scheduler} {m : Moment} (b : Begins w allowed s m) : Move w allowed ⟨.free, s⟩ m
  | goes {m n : Moment} (g : Goes w m n) : Move w allowed m n

variable {w : Surroundings} {allowed : Scheduler → Request → Prop}

/-! ## Events as moves -/

/-- Moves from one moment to another inside an event. -/
abbrev Going (w : Surroundings) : Moment → Moment → Prop := Relation.ReflTransGen (Goes w)

/-- What a step of a pass gives: the task stands at the next stage, or the pass is over. -/
def Lands (w : Surroundings) (m : Moment) (id : Nat) (next : Following) :
    Option Stage × Scheduler → Prop
  | (some stage, s) => Going w m ⟨.free, s.place id (.inPass stage next)⟩
  | (none, s) => Going w m ⟨.task id next, s⟩

theorem Lands.of_goes {m n : Moment} {id : Nat} {next : Following} {r : Option Stage × Scheduler}
    (g : Goes w m n) (h : Lands w n id next r) : Lands w m id next r := by
  obtain ⟨stage, s⟩ := r
  cases stage with
  | none => exact .head g h
  | some stage => exact .head g h

theorem towardsCompile_lands {s : Scheduler} {id : Nat} {p : Pass} {next : Following} :
    Lands w ⟨.pass id .linted p next, s⟩ id next (s.towardsCompile w id p) := by
  unfold Scheduler.towardsCompile
  split
  · next wanted =>
    split
    · next free => exact .single (.compile wanted free)
    · next taken => exact .single (.queue wanted (by simpa using taken))
  · next unwanted => exact .single (.conclude (.inr ⟨rfl, by simpa using unwanted⟩))

theorem launch_lands {s : Scheduler} {id : Nat} {p : Pass} {next : Following} :
    Lands w ⟨.pass id .begun p next, s⟩ id next
      (match s.linter with
      | some l => (some (.linting p l), s.noted (.lint l.name p.document))
      | none => s.towardsCompile w id p) := by
  split
  · next l set => exact .single (.lint set)
  · next unset => exact .of_goes (.plain unset) towardsCompile_lands

@[simp] theorem launch_linter (s : Scheduler) (starter : Starter) (d : Document) :
    (s.launch starter d).2.linter = s.linter := by
  simp only [Scheduler.launch, Scheduler.remember]
  split <;> rfl

@[simp] theorem launch_document (s : Scheduler) (starter : Starter) (d : Document) :
    (s.launch starter d).1.document = d := rfl

theorem beginPass_of_still {s : Scheduler} {id : Nat} {starter : Starter} {d : Document}
    (still : s.running d.uri = false) :
    s.beginPass w id starter d =
      match (s.launch starter d).2.linter with
      | some l => (some (.linting (s.launch starter d).1 l),
          (s.launch starter d).2.noted (.lint l.name (s.launch starter d).1.document))
      | none => (s.launch starter d).2.towardsCompile w id (s.launch starter d).1 := by
  unfold Scheduler.beginPass
  rw [if_neg (by simp [still])]
  rfl

theorem running_of_not_busy {s : Scheduler} {uri : Text} (idle : s.busy uri = false) :
    s.running uri = false := by
  unfold Scheduler.running Scheduler.busy at *
  cases h : s.state? uri with
  | none => rfl
  | some st =>
    rw [h] at idle
    have : st.phase = .idle := by simpa [DocState.busy] using idle
    simp [this]

/-- A document that is opened is in the store. -/
theorem heard_opened_get? (s : Scheduler) (order : Nat) (d : Document) :
    (s.heard order (.opened d)).documents.get? d.uri = some d := by
  simp only [Scheduler.heard, Scheduler.remember]
  split <;> exact DocumentStore.get?_put_self _ d

/-- A sweep goes on until a pass of it stops, or it is over. -/
theorem sweep_going {s : Scheduler} {id order listed : Nat} {docs : List Document} :
    Going w ⟨.task id (.sweep order listed docs), s⟩ ⟨.free, s.sweep w id order listed docs⟩ := by
  induction docs generalizing s with
  | nil => exact .head .unlist (.single .answer)
  | cons d rest ih =>
    unfold Scheduler.sweep
    split
    · next busy => exact .head (.skip busy) ih
    · next idle =>
      have idle : s.busy d.uri = false := by simpa using idle
      have lands : Lands w ⟨.task id (.sweep order listed (d :: rest)), s⟩ id
          (.sweep order listed rest) (s.beginPass w id (.sweep listed) d) := by
        rw [beginPass_of_still (running_of_not_busy idle)]
        exact .of_goes (.swept idle) launch_lands
      split
      -- The pass stops, and the sweep waits for it; or it is over at once, and the sweep goes on.
      · next h => rw [h] at lands; exact lands
      · next h => rw [h] at lands; exact .trans lands ih

/-- After a step of its pass a task goes on to its next point. -/
theorem follow_going {m : Moment} {id : Nat} {next : Following} {r : Option Stage × Scheduler}
    (h : Lands w m id next r) : Going w m ⟨.free, Scheduler.follow w id next r⟩ := by
  obtain ⟨stage, s⟩ := r
  cases stage with
  | some stage => exact h
  | none =>
    cases next with
    | answer order => exact .tail h .answer
    | sweep order listed rest => exact .trans h sweep_going
    | nothing => exact .tail h .spend

theorem beginSweep_going {s : Scheduler} {id order : Nat} {r : Request} :
    Going w ⟨.heard id order r, s⟩ ⟨.free, s.beginSweep w id order⟩ := by
  unfold Scheduler.beginSweep
  split
  · exact .head (.log _ _) (.head .turn (.single .answer))
  · next first => exact .head (.list (by simpa using first)) sweep_going

theorem awaitIdle_going {s : Scheduler} {id order : Nat} :
    Going w ⟨.task id (.answer order), s⟩ ⟨.free, s.awaitIdle id order⟩ := by
  unfold Scheduler.awaitIdle
  split
  · exact .single .answer
  · exact .single (.await _)

theorem useLinter_going {s : Scheduler} {id order : Nat} {settings : ValidationSettings}
    {linter : Option Linter} :
    Going w ⟨.heard id order (.configure settings), s⟩
      ⟨.heard id order (.configure settings), (s.useLinter w linter).2⟩ := by
  unfold Scheduler.useLinter
  split
  · exact .single (.relint none)
  · next l =>
    dsimp only
    split
    · exact .head (.rule _) (.single (.relint _))
    · exact .head (.rule _) (.single (.relint _))

theorem applySettings_going {s : Scheduler} {id order : Nat} {settings : ValidationSettings} :
    Going w ⟨.heard id order (.configure settings), s⟩
      ⟨.heard id order (.configure settings), (s.applySettings w (some settings) none).2⟩ := by
  refine .head (.adjust settings) ?_
  unfold Scheduler.applySettings
  dsimp only [Option.getD_some]
  split
  · exact useLinter_going
  · split
    · exact useLinter_going
    · exact .head (.log _ _) useLinter_going
    · exact .refl

/-- A request comes in. -/
theorem receive_moves {s : Scheduler} {order : Nat} {r : Request} :
    Going w ⟨.heard s.fresh order r, s.heard order r⟩ ⟨.free, s.receive w order r⟩ := by
  unfold Scheduler.receive
  cases r with
  | opened d =>
    dsimp only
    split
    · exact .head .turn (.single .answer)
    · next idle =>
      have idle : (s.heard order (.opened d)).busy d.uri = false := by simp_all
      refine follow_going ?_
      rw [beginPass_of_still (running_of_not_busy idle)]
      exact .of_goes (.opened idle (heard_opened_get? s order d)) launch_lands
  | changed d => exact .head .turn (.single .answer)
  | saved d => exact .head .turn (.single (.store d.path))
  | closed d =>
    dsimp only
    split
    · exact .head .clear (.single (.store d.path))
    · exact .head .clear (.single (.refuse _))
  | validate d =>
    refine follow_going ?_
    cases runs : (s.heard order (.validate d)).running d.uri with
    | true =>
      have again : (s.heard order (.validate d)).beginPass w s.fresh .asked d
          = (none, (s.heard order (.validate d)).askAgain d.uri) := by
        simp [Scheduler.beginPass, runs]
      rw [again]
      exact .single (.again runs)
    | false =>
      rw [beginPass_of_still runs]
      exact .of_goes (.asked runs) launch_lands
  | validateAll => exact beginSweep_going
  | configure settings =>
    dsimp only
    split
    · next h => exact .trans (h ▸ applySettings_going) (.head .turn (.single (.refuse _)))
    · next h =>
      refine .trans (h ▸ applySettings_going) ?_
      split
      · exact beginSweep_going
      · exact .head .turn (.single .answer)
  | waitIdle => exact .head .turn awaitIdle_going

/-! ## Runs as moves -/

/-- Whether an event is one that may come: a request that is allowed, or anything but a request. -/
def Permits (allowed : Scheduler → Request → Prop) (s : Scheduler) : Scheduler.Event → Prop
  | .request _ r => allowed s r
  | _ => True

/-- Whether all events of a run may come when they do. -/
def Permitted (w : Surroundings) (allowed : Scheduler → Request → Prop) :
    Scheduler → List Scheduler.Event → Prop
  | _, [] => True
  | s, e :: events => Permits allowed s e ∧ Permitted w allowed (s.step w e) events

/-- When every request is allowed, every run may come. -/
theorem Permitted.all (w : Surroundings) (s : Scheduler) (events : List Scheduler.Event) :
    Permitted w (fun _ _ => True) s events := by
  induction events generalizing s with
  | nil => trivial
  | cons e events ih =>
    refine ⟨?_, ih _⟩
    cases e <;> trivial

/-- What an event does: nothing, or something begins and the task goes on. -/
def Happens (w : Surroundings) (allowed : Scheduler → Request → Prop) (s s' : Scheduler) : Prop :=
  s' = s ∨ ∃ m, Begins w allowed s m ∧ Going w m ⟨.free, s'⟩

/-- A pause that is over leads to a pass on the snapshot in the store. -/
theorem wake_going {s : Scheduler} (id : Nat) {uri : Text} {st : DocState} {d : Document}
    (known : s.state? uri = some st) (due : st.requestedAt + s.settings.delay ≤ s.now)
    (current : s.documents.get? uri = some d) :
    Going w
      ⟨.pass id .begun ((s.putState uri { st with phase := .idle }).launch .pause d).1 .nothing,
        ((s.putState uri { st with phase := .idle }).launch .pause d).2⟩
      ⟨.free, s.wake w id uri⟩ := by
  have wakes : s.wake w id uri
      = ((s.putState uri { st with phase := .idle }).beginPass w id .pause d |>
          Scheduler.follow w id .nothing) := by
    simp only [Scheduler.wake, known, current]
    rw [if_neg (Rat.not_lt.mpr due)]
  rw [wakes]
  refine follow_going ?_
  -- The phase was just set to idle, so no pass is taken to be running.
  have same : d.uri = uri := DocumentStore.get?_uri current
  have still : (s.putState uri { st with phase := .idle }).running d.uri = false := by
    simp [Scheduler.running, Scheduler.state?, Scheduler.putState, same]
  rw [beginPass_of_still still]
  exact launch_lands

theorem wake_happens {s : Scheduler} {id : Nat} {uri : Text} {wake : Rat}
    (stands : s.point? id = some (.pausing uri wake)) : Happens w allowed s (s.wake w id uri) := by
  cases known : s.state? uri with
  | none =>
    refine .inr ⟨_, .lapse stands (.inl known), ?_⟩
    simp only [Scheduler.wake, known]
    exact .refl
  | some st =>
    by_cases early : s.now < st.requestedAt + s.settings.delay
    · refine .inr ⟨_, .wait stands known early, ?_⟩
      simp only [Scheduler.wake, known, if_pos early]
      exact .refl
    · cases current : s.documents.get? uri with
      | none =>
        refine .inr ⟨_, .lapse stands (.inr current), ?_⟩
        simp only [Scheduler.wake, known, if_neg early, current]
        exact .refl
      | some d =>
        have due := Rat.not_lt.mp early
        exact .inr ⟨_, .wake stands known due current, wake_going _ known due current⟩

theorem resume_happens {s : Scheduler} {id : Nat} : Happens w allowed s (s.resume w id) := by
  unfold Scheduler.resume
  split
  · exact .inl rfl
  · next stands =>
    -- Before its time a pause does not go on.
    split
    · exact wake_happens stands
    · exact .inl rfl
  · next p l next stands =>
    -- When the linter fails, the pass goes on without it, unless none is set any more.
    cases answer : w.lint s.occasion l p.document with
    | ok found =>
      refine .inr ⟨_, .linted stands answer, follow_going ?_⟩
      simpa only [Scheduler.afterLint, answer] using towardsCompile_lands
    | error t =>
      cases set : s.linter with
      | some l' =>
        refine .inr ⟨_, .lintFailed stands answer set, follow_going ?_⟩
        simpa only [Scheduler.afterLint, answer, set] using towardsCompile_lands
      | none =>
        refine .inr ⟨_, .lintLost stands answer set, follow_going ?_⟩
        simp only [Scheduler.afterLint, answer, set]
        exact .refl
  · next p next stands =>
    split
    · next free =>
      have free : s.locked = false ∧ s.waiting.head? = some id := by simpa using free
      exact .inr ⟨_, .lock stands free.1 free.2, .refl⟩
    · exact .inl rfl
  · next p next stands =>
    cases answer : w.compile ({ s with locked := false }.noted (.compiled p.document)).occasion
      p.document with
    | ok errors =>
      refine .inr ⟨_, .compiled stands answer, follow_going ?_⟩
      simp only [Scheduler.afterCompile, answer]
      exact .single (.conclude (.inl rfl))
    | error t =>
      refine .inr ⟨_, .compileFailed stands answer, follow_going ?_⟩
      simp only [Scheduler.afterCompile, answer]
      exact .single (.conclude (.inl rfl))
  · next stands => exact .inr ⟨_, .vanish stands, .refl⟩
  · next stands =>
    -- The answer to the request tells whether the document could be stored.
    dsimp only
    split
    · exact .inr ⟨_, .promote stands, .single .answer⟩
    · exact .inr ⟨_, .promote stands, .single (.refuse _)⟩
  · next stands =>
    -- The task looks whether all that it waits for are over.
    split
    · exact .inl rfl
    · exact .inr ⟨_, .look stands, awaitIdle_going⟩

/-- **An event is a beginning and moves after it**, unless nothing can go on. -/
theorem event_moves {s : Scheduler} {e : Scheduler.Event} (may : Permits allowed s e) :
    Happens w allowed s (s.step w e) := by
  cases e with
  | clock t =>
    unfold Scheduler.step
    dsimp only
    split
    · next later => exact .inr ⟨_, .clock later, .refl⟩
    · exact .inl rfl
  | request order r => exact .inr ⟨_, .hear order may, receive_moves⟩
  | resume id => exact resume_happens

/-- What every move keeps holds after every run. -/
theorem kept_run (Kept : Moment → Prop) (move : ∀ m n, Move w allowed m n → Kept m → Kept n)
    {s : Scheduler} {events : List Scheduler.Event} (may : Permitted w allowed s events)
    (start : Kept ⟨.free, s⟩) : Kept ⟨.free, s.run w events⟩ := by
  have going : ∀ {m n}, Going w m n → Kept m → Kept n := by
    intro m n h
    induction h with
    | refl => exact id
    | tail _ g ih => exact fun k => move _ _ (.goes g) (ih k)
  -- The induction is on the events; inside one of them, `going` was on the moves.
  induction events generalizing s with
  | nil => exact start
  | cons e events ih =>
    have next : Kept ⟨.free, s.step w e⟩ := by
      rcases event_moves may.1 with same | ⟨m, b, g⟩
      · rw [same]
        exact start
      · exact going g (move _ _ (.begins b) start)
    exact ih may.2 next

end ContractCheck.Schedule
