import ContractCheck.Proofs.Schedule.Moves
import ContractCheck.Proofs.Schedule.Views

/-! # What moves do

At a moment a task is in a pass, or pauses, or sweeps; the task that goes on does what its hand
holds, and every other one what its point says (`pass?`, `pause?`, `next?`).  Seen in this way there
are few kinds of moves (`Effect`).  A request comes in, a pass begins or ends, a pause comes to
nothing, a sweep begins, one more pass is asked for; all other moves only write notes and hand
passes on.

The main statement is `Move.effect`.  What is to be kept by every move is shown for each effect.
-/
namespace ContractCheck.Schedule

/-- The notes, the newest first. -/
abbrev History := List (Rat × Note)

namespace Pass

/-- The pass as it was when it began. -/
def start (p : Pass) : Pass := { p with found := [] }

@[simp] theorem start_document (p : Pass) : p.start.document = p.document := rfl

@[simp] theorem start_serial (p : Pass) : p.start.serial = p.serial := rfl

@[simp] theorem start_number (p : Pass) : p.start.number = p.number := rfl

end Pass

namespace Point

/-- The pass that a task at the point is in. -/
def pass? : Point → Option Pass
  | .inPass stage _ => some stage.pass
  | _ => none

/-- The document that a task at the point waits for. -/
def pause? : Point → Option Text
  | .pausing uri _ => some uri
  | _ => none

/-- What a task at the point does after its pass. -/
def next? : Point → Option Following
  | .inPass _ next => some next
  | _ => none

end Point

namespace Hand

/-- The task that goes on. -/
def id? : Hand → Option Nat
  | .free => none
  | .heard id _ _ | .task id _ | .pass id _ _ _ => some id

/-- The pass in the hand. -/
def pass? : Hand → Option Pass
  | .pass _ _ p _ => some p
  | _ => none

/-- What the task does next outside of a pass. -/
def next? : Hand → Option Following
  | .task _ next | .pass _ _ _ next => some next
  | _ => none

end Hand

namespace Moment

/-- What is seen of a task: in the hand if it goes on, and else at its point. -/
def seen {α : Type} (hand : Hand → Option α) (point : Point → Option α) (m : Moment) (id : Nat) :
    Option α :=
  if m.hand.id? = some id then hand m.hand else (m.scheduler.point? id).bind point

/-- The pass that a task is in. -/
def pass? (m : Moment) (id : Nat) : Option Pass := m.seen Hand.pass? Point.pass? id

/-- The document for which a task pauses. -/
def pause? (m : Moment) (id : Nat) : Option Text := m.seen (fun _ => none) Point.pause? id

/-- What a task does after its pass, or next if it is in none. -/
def next? (m : Moment) (id : Nat) : Option Following := m.seen Hand.next? Point.next? id

/-- The notes written so far. -/
abbrev history (m : Moment) : History := m.scheduler.history

/-- Whether a task is there. -/
def Lives (m : Moment) (id : Nat) : Prop := m.hand.id? = some id ∨ m.scheduler.point? id ≠ none

/-- Whether a task is there and no other one goes on. -/
def Turn (m : Moment) (id : Nat) : Prop := (m.hand = .free ∨ m.hand.id? = some id) ∧ m.Lives id

theorem Turn.of_hand {m : Moment} {id : Nat} (held : m.hand.id? = some id) : m.Turn id :=
  ⟨.inr held, .inl held⟩

theorem Turn.of_point {s : Scheduler} {id : Nat} {p : Point} (stands : s.point? id = some p) :
    Turn ⟨.free, s⟩ id :=
  ⟨.inl rfl, .inr (by simp [stands])⟩

end Moment

/-- Whether a note neither brings a request in nor begins or ends a pass. -/
def Note.Plain : Note → Prop
  | .received _ _ | .began _ _ | .ended _ => False
  | _ => True

/-- The document that is worked on according to a note. -/
def Note.subject? : Note → Option Document
  | .lint _ d | .compile d _ _ _ => some d
  | _ => none

/-- Notes that a pass at work may leave. -/
def Quiet (m : Moment) (notes : History) : Prop :=
  ∀ n ∈ notes, n.2.Plain ∧
    ∀ d, n.2.subject? = some d → ∃ id p, m.pass? id = some p ∧ p.document = d

/-- A pass on a snapshot may begin in a task, and what the task does after it. -/
inductive Ready : Moment → Nat → Starter → Document → Following → Prop
  | opened {s : Scheduler} {id order : Nat} {d : Document} (idle : s.busy d.uri = false)
      (current : s.documents.get? d.uri = some d) :
      Ready ⟨.heard id order (.opened d), s⟩ id .opened d (.answer order)
  | asked {s : Scheduler} {id order : Nat} {d : Document} (still : s.running d.uri = false) :
      Ready ⟨.heard id order (.validate d), s⟩ id .asked d (.answer order)
  | swept {s : Scheduler} {id order listed : Nat} {d : Document} {rest : List Document}
      (idle : s.busy d.uri = false) :
      Ready ⟨.task id (.sweep order listed (d :: rest)), s⟩ id (.sweep listed) d
        (.sweep order listed rest)
  | pause {s : Scheduler} {id : Nat} {wake : Rat} {st : DocState} {d : Document}
      (stands : s.point? id = some (.pausing d.uri wake)) (known : s.state? d.uri = some st)
      (due : st.requestedAt + s.settings.delay ≤ s.now)
      (current : s.documents.get? d.uri = some d) :
      Ready ⟨.free, s⟩ id .pause d .nothing

/-- What a pass found was published, as is noted. -/
def Published (w : Surroundings) (p : Pass) (older notes : History) : Prop :=
  w.publish (older.length + 1) p.document.uri p.found = none ∧
    ∃ t t' message, notes = [(t', .log .debug message), (t, .publish p.document.uri p.found)]

/-- A pass failed, and why is noted. -/
inductive Raised (w : Surroundings) (p : Pass) (older : History) : History → Prop
  /-- Publishing raised. -/
  | publishing {t t' : Rat} {trouble : Trouble}
      (answer : w.publish (older.length + 1) p.document.uri p.found = some trouble) :
      Raised w p older
        [(t', .log .error ("Validation pass failed: ".toList ++ trouble.message ++
            Log.renderContext (Scheduler.about p.document))), (t, .publish p.document.uri p.found)]
  /-- The linter raised when none was set any more, and with it the whole pass. -/
  | linting {t : Rat} {l : Linter} {trouble : Trouble} {reason : Text}
      (answer : w.lint older.length l p.document = .error trouble) :
      Raised w p older
        [(t, .log .error ("Validation pass failed: ".toList ++ reason ++
            Log.renderContext (Scheduler.about p.document)))]

/-- What comes of a pass, and what is noted before it ends. -/
inductive Outcome (w : Surroundings) (documents : DocumentStore) (p : Pass)
    (older notes : History) : Prop
  /-- The document was closed. -/
  | unwanted (closed : documents.has p.document.uri = false) (none : notes = [])
  | published (told : Published w p older notes)
  | raised (told : Raised w p older notes)

/-- The kinds of moves. -/
inductive Effect (w : Surroundings) (allowed : Scheduler → Request → Prop) : Moment → Moment → Prop
  | quiet {m n : Moment} (notes : History) (history : n.history = notes ++ m.history)
      (plain : Quiet m notes) (documents : n.scheduler.documents = m.scheduler.documents)
      (state : ∀ uri, n.scheduler.state? uri = m.scheduler.state? uri)
      (pass : ∀ id, (n.pass? id).map Pass.start = (m.pass? id).map Pass.start)
      (pause : ∀ id, n.pause? id = m.pause? id)
      (sweeps : ∀ id order listed rest, n.next? id = some (.sweep order listed rest) →
        ∃ all, m.next? id = some (.sweep order listed all) ∧ rest ⊆ all)
      (fresh : n.scheduler.fresh = m.scheduler.fresh) (lives : ∀ id, n.Lives id → m.Lives id)
      (heard : ∀ id order r, n.hand = .heard id order r → m.hand = .heard id order r) :
      Effect w allowed m n
  | hear {s : Scheduler} {order : Nat} {r : Request} (fine : allowed s r) :
      Effect w allowed ⟨.free, s⟩ ⟨.heard s.fresh order r, s.heard order r⟩
  | lapse {s : Scheduler} {id : Nat} {uri : Text} {wake : Rat}
      (stands : s.point? id = some (.pausing uri wake))
      (closed : s.state? uri = none ∨ s.documents.get? uri = none) :
      Effect w allowed ⟨.free, s⟩ ⟨.free, s.place id .spent⟩
  | launch {m : Moment} {id : Nat} {starter : Starter} {d : Document} {next : Following}
      (ready : Ready m id starter d next) :
      Effect w allowed m
        ⟨.pass id .begun (m.scheduler.launch starter d).1 next, (m.scheduler.launch starter d).2⟩
  | finish {m : Moment} {s : Scheduler} {id : Nat} {p : Pass} {next : Following} (notes : History)
      (holds : m.pass? id = some p) (follows : m.next? id = some next)
      (turn : m.Turn id) (outcome : Outcome w m.scheduler.documents p m.history notes)
      (told : s = { m.scheduler with history := notes ++ m.history }) :
      Effect w allowed m ⟨.task id next, s.endPass p⟩
  | again {s : Scheduler} {id order : Nat} {d : Document} (runs : s.running d.uri = true) :
      Effect w allowed ⟨.heard id order (.validate d), s⟩ ⟨.task id (.answer order),
        s.askAgain d.uri⟩
  | list {s : Scheduler} {id order : Nat} {r : Request} :
      Effect w allowed ⟨.heard id order r, s⟩
        ⟨.task id (.sweep order s.history.length s.documents.toList), { s with sweeping := true }⟩

variable {w : Surroundings} {allowed : Scheduler → Request → Prop}

/-! ## Every move is of one of these kinds -/

namespace Moment

theorem no_other {m : Moment} {id x : Nat} (only : m.hand = .free ∨ m.hand.id? = some id)
    (other : x ≠ id) :
    ¬ m.hand.id? = some x := by
  rcases only with free | held
  · simp [free, Hand.id?]
  · rw [held]
    exact fun same => other (Option.some.inj same).symm

/-- Of a task that does not go on, its point is seen. -/
theorem seen_of_other {α : Type} {hand : Hand → Option α} {point : Point → Option α} {m : Moment}
    {id x : Nat} (only : m.hand = .free ∨ m.hand.id? = some id) (other : x ≠ id) :
    m.seen hand point x = (m.scheduler.point? x).bind point :=
  if_neg (no_other only other)

/-- When a task goes on and all others stay at their points, nothing else that is seen changes. -/
theorem seen_of_turn {α : Type} {hand : Hand → Option α} {point : Point → Option α}
    {m n : Moment} {id : Nat} (held : n.hand.id? = some id)
    (only : m.hand = .free ∨ m.hand.id? = some id)
    (points : ∀ x, (n.scheduler.point? x).bind point = (m.scheduler.point? x).bind point)
    (x : Nat) :
    n.seen hand point x = if x = id then hand n.hand else m.seen hand point x := by
  by_cases same : x = id
  · rw [same, if_pos rfl]
    exact if_pos held
  · rw [seen_of_other (.inr held) same, seen_of_other only same, if_neg same, points]

end Moment

/-- What is noted is quiet, and nothing else that is seen of the scheduler changes. -/
structure Writes (m : Moment) (notes : History) (s : Scheduler) : Prop where
  history : s.history = notes ++ m.history
  quiet : Quiet m notes
  documents : s.documents = m.scheduler.documents
  state : ∀ uri, s.state? uri = m.scheduler.state? uri
  fresh : s.fresh = m.scheduler.fresh
  point : ∀ id, s.point? id = m.scheduler.point? id

theorem Writes.of_eq {m : Moment} {s : Scheduler} (notes : History)
    (same : s = { m.scheduler with
      settings := s.settings, linter := s.linter, sweeping := s.sweeping, locked := s.locked,
      waiting := s.waiting, now := s.now, history := notes ++ m.history })
    (quiet : Quiet m notes) : Writes m notes s := by
  rw [same]
  exact ⟨rfl, quiet, rfl, fun _ => rfl, rfl, fun _ => rfl⟩

theorem quiet_nil (m : Moment) : Quiet m [] := nofun

theorem quiet_single {m : Moment} {t : Rat} {n : Note} (plain : n.Plain)
    (none : n.subject? = none) :
    Quiet m [(t, n)] := by
  intro x mem
  obtain rfl := List.mem_singleton.mp mem
  exact ⟨plain, fun d some => by simp [none] at some⟩

theorem quiet_work {m : Moment} {t : Rat} {n : Note} {id : Nat} {p : Pass} (plain : n.Plain)
    (subject : n.subject? = some p.document) (holds : m.pass? id = some p) : Quiet m [(t, n)] := by
  intro x mem
  obtain rfl := List.mem_singleton.mp mem
  exact ⟨plain, fun d some => ⟨id, p, holds, Option.some.inj (subject.symm.trans some)⟩⟩

/-- Where the task that goes on is put. -/
inductive Put (s : Scheduler) (id : Nat) : Scheduler → Prop
  | stays : Put s id s
  | placed (p : Point) : Put s id (s.place id p)
  | dropped : Put s id (s.drop id)

namespace Put

variable {s s' : Scheduler} {id : Nat}

theorem history (put : Put s id s') : s'.history = s.history := by
  cases put with
  | stays => rfl
  | placed p => exact Scheduler.place_history s id p
  | dropped => rfl

theorem documents (put : Put s id s') : s'.documents = s.documents := by
  cases put with
  | stays => rfl
  | placed p => exact Scheduler.place_documents s id p
  | dropped => rfl

theorem state (put : Put s id s') (uri : Text) : s'.state? uri = s.state? uri := by
  cases put with
  | stays => rfl
  | placed p => exact Scheduler.state?_place s id p uri
  | dropped => rfl

theorem fresh (put : Put s id s') : s'.fresh = s.fresh := by
  cases put with
  | stays => rfl
  | placed p => exact Scheduler.place_fresh s id p
  | dropped => rfl

theorem others (put : Put s id s') {x : Nat} (other : x ≠ id) : s'.point? x = s.point? x := by
  cases put with
  | stays => rfl
  | placed p => rw [Scheduler.point?_place, if_neg other]
  | dropped => rw [Scheduler.point?_drop, if_neg other]

end Put

/-- A move is quiet when only one task goes on and keeps its pass and its pause. -/
theorem Effect.of_task {m n : Moment} {s : Scheduler} {id : Nat} {notes : History}
    (writes : Writes m notes s) (put : Put s id n.scheduler) (turn : m.Turn id)
    (after : n.hand = .free ∨ n.hand.id? = some id)
    (pass : (n.pass? id).map Pass.start = (m.pass? id).map Pass.start)
    (pause : n.pause? id = m.pause? id)
    (sweeps : ∀ order listed rest, n.next? id = some (.sweep order listed rest) →
      ∃ all, m.next? id = some (.sweep order listed all) ∧ rest ⊆ all)
    (heard : ∀ x order r, n.hand = .heard x order r → m.hand = .heard x order r) :
    Effect w allowed m n := by
  have others : ∀ x, x ≠ id → n.scheduler.point? x = m.scheduler.point? x :=
    fun x other => (put.others other).trans (writes.point x)
  -- Of all other tasks the points are seen, before and after.
  have seen : ∀ {α : Type} (hand : Hand → Option α) (point : Point → Option α) (x : Nat), x ≠ id →
      n.seen hand point x = m.seen hand point x := by
    intro α hand point x other
    rw [Moment.seen_of_other after other, Moment.seen_of_other turn.1 other, others x other]
  refine .quiet notes (put.history.trans writes.history) writes.quiet
    (put.documents.trans writes.documents) (fun uri => (put.state uri).trans (writes.state uri))
    ?_ ?_ ?_ (put.fresh.trans writes.fresh) ?_ heard
  · intro x
    by_cases same : x = id
    · exact same ▸ pass
    · exact congrArg (Option.map Pass.start) (seen _ _ x same)
  · intro x
    by_cases same : x = id
    · exact same ▸ pause
    · exact seen _ _ x same
  · intro x order listed rest next
    by_cases same : x = id
    · exact same ▸ sweeps order listed rest (same ▸ next)
    · exact ⟨rest, (seen _ _ x same).symm.trans next, fun _ h => h⟩
  · intro x there
    by_cases same : x = id
    · exact same ▸ turn.2
    · refine .inr ?_
      rw [← others x same]
      exact there.resolve_left (Moment.no_other after same)

/-! What a task has in its hand, and what it does at its point. -/

theorem pass?_hand {m : Moment} {id : Nat} (held : m.hand.id? = some id) :
    m.pass? id = m.hand.pass? :=
  if_pos held

theorem pause?_hand {m : Moment} {id : Nat} (held : m.hand.id? = some id) : m.pause? id = none :=
  if_pos held

theorem next?_hand {m : Moment} {id : Nat} (held : m.hand.id? = some id) :
    m.next? id = m.hand.next? :=
  if_pos held

section Stands

variable {s : Scheduler} {id : Nat} {p : Point}

theorem seen_free {α : Type} {hand : Hand → Option α} {point : Point → Option α} :
    Moment.seen hand point ⟨.free, s⟩ id = (s.point? id).bind point :=
  if_neg nofun

theorem pass?_free : Moment.pass? ⟨.free, s⟩ id = (s.point? id).bind Point.pass? := seen_free

theorem pause?_free : Moment.pause? ⟨.free, s⟩ id = (s.point? id).bind Point.pause? := seen_free

theorem next?_free : Moment.next? ⟨.free, s⟩ id = (s.point? id).bind Point.next? := seen_free

theorem pass?_point (stands : s.point? id = some p) : Moment.pass? ⟨.free, s⟩ id = p.pass? := by
  rw [pass?_free, stands, Option.bind_some]

theorem pause?_point (stands : s.point? id = some p) : Moment.pause? ⟨.free, s⟩ id = p.pause? := by
  rw [pause?_free, stands, Option.bind_some]

theorem next?_point (stands : s.point? id = some p) : Moment.next? ⟨.free, s⟩ id = p.next? := by
  rw [next?_free, stands, Option.bind_some]

theorem point?_placed (s : Scheduler) (id : Nat) (p : Point) :
    (s.place id p).point? id = some p := by
  rw [Scheduler.point?_place, if_pos rfl]

end Stands

variable {m : Moment} {s : Scheduler} {id : Nat} {notes : History}

/-- A task that is in a pass comes to a stage of it. -/
theorem Effect.of_stage {p : Pass} {stage : Stage} {next : Following} (writes : Writes m notes s)
    (turn : m.Turn id) (holds : m.pass? id = some p) (awake : m.pause? id = none)
    (follows : m.next? id = some next) (at_ : stage.pass = p) :
    Effect w allowed m ⟨.free, s.place id (.inPass stage next)⟩ := by
  have stands := point?_placed s id (.inPass stage next)
  refine .of_task writes (.placed _) turn (.inl rfl) ?_ ?_ ?_ nofun
  · rw [pass?_point stands, holds, ← at_]
    rfl
  · rw [pause?_point stands, awake]
    rfl
  · intro order listed rest h
    rw [next?_point stands] at h
    exact ⟨rest, follows.trans h, fun _ h => h⟩

/-- A task that is in no pass comes to a point outside of passes. -/
theorem Effect.of_settled {p : Point} (writes : Writes m notes s) (turn : m.Turn id)
    (noPass : m.pass? id = none ∧ p.pass? = none) (noNext : p.next? = none)
    (pause : m.pause? id = p.pause?) : Effect w allowed m ⟨.free, s.place id p⟩ := by
  have stands := point?_placed s id p
  refine .of_task writes (.placed p) turn (.inl rfl) ?_ ?_ ?_ nofun
  · rw [pass?_point stands, noPass.1, noPass.2]
  · rw [pause?_point stands, pause]
  · intro order listed rest h
    rw [next?_point stands, noNext] at h
    cases h

/-- A task that is neither in a pass nor pauses is over. -/
theorem Effect.of_over (writes : Writes m notes s) (turn : m.Turn id) (noPass : m.pass? id = none)
    (awake : m.pause? id = none) : Effect w allowed m ⟨.free, s.drop id⟩ := by
  have gone : (s.drop id).point? id = none := by rw [Scheduler.point?_drop, if_pos rfl]
  refine .of_task writes .dropped turn (.inl rfl) ?_ ?_ ?_ nofun
  · rw [noPass, pass?_free, gone, Option.bind_none]
  · rw [awake, pause?_free, gone, Option.bind_none]
  · rw [next?_free, gone, Option.bind_none]
    exact nofun

/-- A task goes on, and what it has in its hand is what it had in its hand or at its point. -/
theorem Effect.of_hand {hand : Hand} (writes : Writes m notes s) (turn : m.Turn id)
    (held : hand.id? = some id) (pass : hand.pass?.map Pass.start = (m.pass? id).map Pass.start)
    (awake : m.pause? id = none)
    (sweeps : ∀ order listed rest, hand.next? = some (.sweep order listed rest) →
      ∃ all, m.next? id = some (.sweep order listed all) ∧ rest ⊆ all)
    (heard : ∀ x order r, hand = .heard x order r → m.hand = .heard x order r) :
    Effect w allowed m ⟨hand, s⟩ := by
  refine .of_task writes .stays turn (.inr held) ?_ ?_ ?_ heard
  · rw [pass?_hand held]
    exact pass
  · rw [pause?_hand held, awake]
  · rw [next?_hand held]
    exact sweeps

/-- A request that was heard goes on being dealt with. -/
theorem Effect.of_heard {s s' : Scheduler} {id order : Nat} {r : Request} {notes : History}
    (writes : Writes ⟨.heard id order r, s⟩ notes s') :
    Effect w allowed ⟨.heard id order r, s⟩ ⟨.heard id order r, s'⟩ := by
  refine .of_hand writes (.of_hand rfl) rfl ?_ (pause?_hand rfl) nofun fun _ _ _ h => h
  rw [pass?_hand rfl]

/-- A task that is in no pass has its request to answer, and nothing more. -/
theorem Effect.of_answer {order : Nat} (writes : Writes m notes s) (turn : m.Turn id)
    (noPass : m.pass? id = none) (awake : m.pause? id = none) :
    Effect w allowed m ⟨.task id (.answer order), s⟩ := by
  refine .of_hand writes turn rfl ?_ awake nofun nofun
  rw [noPass]
  rfl

/-- A task that stands in a pass takes the pass in its hand. -/
theorem Effect.of_taken {s s' : Scheduler} {stage : Stage} {progress : Progress} {p : Pass}
    {next : Following} (writes : Writes ⟨.free, s⟩ notes s')
    (stands : s.point? id = some (.inPass stage next)) (same : p.start = stage.pass.start) :
    Effect w allowed ⟨.free, s⟩ ⟨.pass id progress p next, s'⟩ := by
  refine .of_hand writes (.of_point stands) rfl ?_ (pause?_point stands) ?_ nofun
  · rw [pass?_point stands]
    exact congrArg some same
  · exact fun order listed rest h => ⟨rest, (next?_point stands).trans h, fun _ h => h⟩

theorem conclude_outcome (p : Pass) (s : Scheduler) :
    ∃ notes, s.conclude w p = ({ s with history := notes ++ s.history } : Scheduler).endPass p ∧
      Outcome w s.documents p s.history notes := by
  unfold Scheduler.conclude
  split
  · dsimp only
    split
    · next answer => exact ⟨_, rfl, .published ⟨answer, _, _, _, rfl⟩⟩
    · next t answer => exact ⟨_, rfl, .raised (.publishing answer)⟩
  · next closed => exact ⟨[], rfl, .unwanted (by simpa using closed) rfl⟩

theorem Goes.effect {m n : Moment} (g : Goes w m n) : Effect w allowed m n := by
  cases g with
  | turn =>
    exact .of_answer (.of_eq [] rfl (quiet_nil _)) (.of_hand rfl) (pass?_hand rfl) (pause?_hand rfl)
  | log level message => exact .of_heard (.of_eq [_] rfl (quiet_single trivial rfl))
  | rule l => exact .of_heard (.of_eq [_] rfl (quiet_single trivial rfl))
  | adjust settings => exact .of_heard (.of_eq [] rfl (quiet_nil _))
  | relint linter => exact .of_heard (.of_eq [] rfl (quiet_nil _))
  | clear =>
    exact .of_answer (.of_eq [_] rfl (quiet_single trivial rfl)) (.of_hand rfl) (pass?_hand rfl)
      (pause?_hand rfl)
  | opened idle current => exact .launch (.opened idle current)
  | asked still => exact .launch (.asked still)
  | again runs => exact .again runs
  | list first => exact .list
  | @skip s id order listed d rest busy =>
    refine .of_hand (.of_eq [] rfl (quiet_nil _)) (.of_hand rfl) rfl (by rw [pass?_hand rfl]; rfl)
      (pause?_hand rfl) ?_ nofun
    -- What a sweep leaves out is not listed any more.
    rintro _ _ _ ⟨⟩
    exact ⟨d :: rest, next?_hand rfl, List.subset_cons_self d rest⟩
  | swept idle => exact .launch (.swept idle)
  | unlist =>
    exact .of_answer (.of_eq [] rfl (quiet_nil _)) (.of_hand rfl) (pass?_hand rfl) (pause?_hand rfl)
  | @lint s id p next l set =>
    exact .of_stage (s := s.noted (.lint l.name p.document))
      (.of_eq [_] rfl (quiet_work trivial rfl (pass?_hand rfl))) (.of_hand rfl) (pass?_hand rfl)
      (pause?_hand rfl) (next?_hand rfl) rfl
  | plain unset =>
    exact .of_hand (.of_eq [] rfl (quiet_nil _)) (.of_hand rfl) rfl (by rw [pass?_hand rfl]; rfl)
      (pause?_hand rfl) (fun _ _ rest h => ⟨rest, (next?_hand rfl).trans h, fun _ h => h⟩) nofun
  | queue wanted taken =>
    exact .of_stage (.of_eq [] rfl (quiet_nil _)) (.of_hand rfl) (pass?_hand rfl) (pause?_hand rfl)
      (next?_hand rfl) rfl
  | compile wanted free =>
    exact .of_stage (.of_eq [_] rfl (quiet_work trivial rfl (pass?_hand rfl))) (.of_hand rfl)
      (pass?_hand rfl) (pause?_hand rfl) (next?_hand rfl) rfl
  | @conclude s id progress p next done =>
    obtain ⟨notes, told, outcome⟩ := conclude_outcome (w := w) p s
    rw [told]
    exact .finish notes (pass?_hand rfl) (next?_hand rfl) (.of_hand rfl) outcome rfl
  | answer =>
    exact .of_over (.of_eq [_] rfl (quiet_single trivial rfl)) (.of_hand rfl) (pass?_hand rfl)
      (pause?_hand rfl)
  | refuse t =>
    exact .of_over (.of_eq [_] rfl (quiet_single trivial rfl)) (.of_hand rfl) (pass?_hand rfl)
      (pause?_hand rfl)
  | store path =>
    exact .of_settled (.of_eq [] rfl (quiet_nil _)) (.of_hand rfl) ⟨pass?_hand rfl, rfl⟩ rfl
      (pause?_hand rfl)
  | await ids =>
    exact .of_settled (.of_eq [] rfl (quiet_nil _)) (.of_hand rfl) ⟨pass?_hand rfl, rfl⟩ rfl
      (pause?_hand rfl)
  | spend =>
    exact .of_settled (.of_eq [] rfl (quiet_nil _)) (.of_hand rfl) ⟨pass?_hand rfl, rfl⟩ rfl
      (pause?_hand rfl)

theorem Begins.effect {s : Scheduler} {m : Moment} (b : Begins w allowed s m) :
    Effect w allowed ⟨.free, s⟩ m := by
  cases b with
  | clock later =>
    exact .quiet [] rfl (quiet_nil _) rfl (fun _ => rfl) (fun _ => rfl) (fun _ => rfl)
      (fun _ _ _ rest next => ⟨rest, next, fun _ h => h⟩) rfl (fun _ h => h) nofun
  | hear order fine => exact .hear fine
  | wait stands known early =>
    exact .of_settled (.of_eq [] rfl (quiet_nil _)) (.of_point stands) ⟨pass?_point stands, rfl⟩ rfl
      (by rw [pause?_point stands]; rfl)
  | lapse stands closed => exact .lapse stands closed
  | wake stands known due current =>
    obtain rfl := DocumentStore.get?_uri current
    -- The phase that a pause leaves is overwritten when the pass begins.
    rw [Scheduler.launch_putState .pause known]
    exact .launch (m := ⟨.free, s⟩) (.pause stands known due current)
  | vanish stands =>
    exact .of_over (.of_eq [] rfl (quiet_nil _)) (.of_point stands) (pass?_point stands)
      (pause?_point stands)
  | promote stands =>
    exact .of_answer (.of_eq [_] rfl (quiet_single trivial rfl)) (.of_point stands)
      (pass?_point stands)
      (pause?_point stands)
  | look stands =>
    exact .of_answer (.of_eq [] rfl (quiet_nil _)) (.of_point stands) (pass?_point stands)
      (pause?_point stands)
  | linted stands answer => exact .of_taken (.of_eq [] rfl (quiet_nil _)) stands rfl
  | lintFailed stands answer named =>
    exact .of_taken (.of_eq [_] rfl (quiet_single trivial rfl)) stands rfl
  | lintLost stands answer unset =>
    exact .finish [_] (pass?_point stands) (next?_point stands) (.of_point stands)
      (.raised (.linting answer)) rfl
  | lock stands unlocked first =>
    exact .of_stage (.of_eq [_] rfl (quiet_work trivial rfl (pass?_point stands)))
      (.of_point stands)
      (pass?_point stands) (pause?_point stands) (next?_point stands) rfl
  | compiled stands answer => exact .of_taken (.of_eq [_] rfl (quiet_single trivial rfl)) stands rfl
  | compileFailed stands answer =>
    refine .of_taken (.of_eq [_, _] rfl ?_) stands rfl
    -- Two notes are written: the compiler is done, and it failed.
    intro n mem
    simp only [List.mem_cons, List.not_mem_nil, or_false] at mem
    rcases mem with rfl | rfl
    · exact ⟨trivial, nofun⟩
    · exact ⟨trivial, nofun⟩

/-- **Every move has one of these effects.** -/
theorem Move.effect {m n : Moment} (h : Move w allowed m n) : Effect w allowed m n := by
  cases h with
  | begins b => exact b.effect
  | goes g => exact g.effect

/-! ## Validations that are asked for -/

/-- The requests that editing makes: all but that for one validation. -/
def OfEditor (_ : Scheduler) (r : Request) : Prop := ∀ d, r ≠ .validate d

/-- No single validation is being asked for. -/
def Unasked (m : Moment) : Prop := ∀ id order d, m.hand ≠ .heard id order (.validate d)

theorem Effect.unasked {m n : Moment} (never : ∀ s d, ¬ allowed s (.validate d))
    (e : Effect w allowed m n)
    (h : Unasked m) : Unasked n := by
  intro id order d asked
  cases e with
  | quiet notes _ _ _ _ _ _ _ _ _ heard => exact h id order d (heard id order _ asked)
  | hear fine =>
    cases asked
    exact never _ d fine
  | _ => cases asked

end ContractCheck.Schedule
