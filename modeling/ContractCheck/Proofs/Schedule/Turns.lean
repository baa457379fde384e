import ContractCheck.Proofs.Schedule.Bookkeeping

/-! # One compilation and one sweep at a time

Tasks take turns at the compile lock.  A task that asks for it waits at the gate or passes it
(`Gate`), and only a task that compiles has passed it.  `Move.gates` tells what a move does at the
gate: nothing, a task joins the queue, the first one enters, or the one inside leaves.  In the same
way `Move.sweeps` tells that a sweep begins only when none goes on.

So in every state of a run the lock is held exactly while one task compiles, the queue lists the
tasks that wait, and all documents are being validated exactly while one task does that (`Serial`).
-/
namespace ContractCheck.Schedule

/-! ## Readings -/

/-- Where a task stands at the compile lock. -/
inductive Gate where
  | waiting
  | compiling (document : Document)
deriving DecidableEq

namespace Gate

/-- The document that is compiled behind the gate. -/
def inside? : Gate → Option Document
  | .compiling d => some d
  | .waiting => none

end Gate

namespace Point

/-- Where a task at the point stands at the compile lock. -/
def gate? : Point → Option Gate
  | .inPass (.queued _) _ => some .waiting
  | .inPass (.compiling p) _ => some (.compiling p.document)
  | _ => none

/-- Whether a task at the point is in its compile step. -/
def compiles (p : Point) : Bool := (p.gate?.bind Gate.inside?).isSome

end Point

/-- The request that a sweep goes on for. -/
def Following.sweep? : Following → Option Nat
  | .sweep order _ _ => some order
  | _ => none

/-- Whether a task at the point validates all documents. -/
def Point.sweeps (p : Point) : Bool := (p.next?.bind Following.sweep?).isSome

namespace Moment

/-- Where a task stands at the compile lock. -/
def gate? (m : Moment) (id : Nat) : Option Gate := m.seen (fun _ => none) Point.gate? id

/-- The request for which a task validates all documents. -/
def sweep? (m : Moment) (id : Nat) : Option Nat :=
  m.seen (fun h => h.next?.bind Following.sweep?) (fun p => p.next?.bind Following.sweep?) id

/-- The lock, the queue and the sweep of a moment. -/
abbrev turns (m : Moment) : Bool × List Nat × Bool := m.scheduler.turns

end Moment

/-- The documents whose compilation began and has not come back. -/
def underway : History → List Document
  | [] => []
  | (_, .compile d _ _ _) :: older => d :: underway older
  | (_, .compiled d) :: older => (underway older).erase d
  | _ :: older => underway older

/-- Whether a note is about something else than compiling. -/
def Note.Idle : Note → Prop
  | .compile _ _ _ _ | .compiled _ => False
  | _ => True

/-- A compilation begins when none is underway, and the one that is underway comes back. -/
def InTurn (n : Note) (older : History) : Prop :=
  match n with
  | .compile _ _ _ _ => underway older = []
  | .compiled d => underway older = [d]
  | _ => True

theorem underway_cons {n : Rat × Note} (idle : n.2.Idle) (h : History) :
    underway (n :: h) = underway h := by
  obtain ⟨t, n⟩ := n
  cases n <;> first | rfl | exact idle.elim

theorem underway_append {notes : History} (idle : ∀ n ∈ notes, n.2.Idle) (h : History) :
    underway (notes ++ h) = underway h := by
  induction notes with
  | nil => rfl
  | cons n notes ih =>
    obtain ⟨first, rest⟩ := List.forall_mem_cons.mp idle
    exact (underway_cons first _).trans (ih rest)

theorem inTurn_idle {n : Note} (idle : n.Idle) (older : History) : InTurn n older := by
  cases n <;> trivial

theorem inTurn_append {notes h : History} (idle : ∀ n ∈ notes, n.2.Idle) (turn : Each InTurn h) :
    Each InTurn (notes ++ h) :=
  turn.append fun n mem _ _ => inTurn_idle (idle n mem) _

/-- When each note is in its turn, no two compilations are underway. -/
theorem underway_le_one {h : History} (turn : Each InTurn h) : (underway h).length ≤ 1 := by
  induction h with
  | nil => exact Nat.zero_le 1
  | cons n older ih =>
    obtain ⟨t, n⟩ := n
    have before := ih turn.2
    cases n with
    | compile d root dependencies contracts =>
      have none : underway older = [] := turn.1
      simp [underway, none]
    | compiled d =>
      have one : underway older = [d] := turn.1
      simp [underway, one]
    | _ => exact before

variable {w : Surroundings} {allowed : Scheduler → Request → Prop}

/-! ## What is seen of the task that goes on -/

section Turning

variable {α : Type} {hand : Hand → Option α} {point : Point → Option α} {m : Moment}
  {s : Scheduler} {id : Nat}

/-- A task that goes on comes to a point, and all others stay at theirs. -/
theorem seen_placed (only : m.hand = .free ∨ m.hand.id? = some id)
    (points : ∀ x, s.point? x = m.scheduler.point? x) (p : Point) (x : Nat) :
    Moment.seen hand point ⟨.free, s.place id p⟩ x =
      if x = id then point p else m.seen hand point x := by
  rw [seen_free, Scheduler.point?_place]
  by_cases same : x = id
  · rw [if_pos same, if_pos same, Option.bind_some]
  · rw [if_neg same, if_neg same, points, Moment.seen_of_other only same]

theorem seen_dropped (only : m.hand = .free ∨ m.hand.id? = some id)
    (points : ∀ x, s.point? x = m.scheduler.point? x) (x : Nat) :
    Moment.seen hand point ⟨.free, s.drop id⟩ x = if x = id then none else m.seen hand point x := by
  rw [seen_free, Scheduler.point?_drop]
  by_cases same : x = id
  · rw [if_pos same, if_pos same, Option.bind_none]
  · rw [if_neg same, if_neg same, points, Moment.seen_of_other only same]

end Turning

section Readings

variable {s : Scheduler} {id : Nat} {p : Point} {m : Moment}

theorem gate?_hand (held : m.hand.id? = some id) : m.gate? id = none := if_pos held

theorem gate?_point (stands : s.point? id = some p) : Moment.gate? ⟨.free, s⟩ id = p.gate? := by
  rw [Moment.gate?, seen_free, stands, Option.bind_some]

theorem sweep?_hand (held : m.hand.id? = some id) :
    m.sweep? id = m.hand.next?.bind Following.sweep? :=
  if_pos held

theorem sweep?_point (stands : s.point? id = some p) :
    Moment.sweep? ⟨.free, s⟩ id = p.next?.bind Following.sweep? := by
  rw [Moment.sweep?, seen_free, stands, Option.bind_some]

/-- What is the same for the task that goes on is the same for all. -/
theorem unchanged {β : Type} {before after : Nat → Option β} {b : Option β}
    (now : ∀ x, after x = if x = id then b else before x) (own : before id = b) (x : Nat) :
    after x = before x := by
  rw [now]
  split
  · next same => rw [same, own]
  · rfl

end Readings

/-! ## The gate -/

/-- What a move does at the gate. -/
inductive AtGate (m n : Moment) : Prop
  | still (gates : ∀ x, n.gate? x = m.gate? x) (locked : n.scheduler.locked = m.scheduler.locked)
      (waiting : n.scheduler.waiting = m.scheduler.waiting) (notes : History)
      (history : n.history = notes ++ m.history) (idle : ∀ x ∈ notes, x.2.Idle)
  /-- A task joins the queue. -/
  | joins (id : Nat) (new : m.gate? id = none)
      (gates : ∀ x, n.gate? x = if x = id then some .waiting else m.gate? x)
      (locked : n.scheduler.locked = m.scheduler.locked)
      (waiting : n.scheduler.waiting = m.scheduler.waiting ++ [id])
      (history : n.history = m.history)
  /-- A task passes the gate: at once when nobody waits, or as the first of those who wait. -/
  | enters (id : Nat) (p : Pass) (free : m.scheduler.locked = false)
      (gates : ∀ x, n.gate? x = if x = id then some (.compiling p.document) else m.gate? x)
      (locked : n.scheduler.locked = true)
      (first : m.gate? id = none ∧ n.scheduler.waiting = m.scheduler.waiting ∨
        m.scheduler.waiting = id :: n.scheduler.waiting) (t : Rat)
      (root : Option Text) (dependencies contracts : Text)
      (history : n.history = (t, .compile p.document root dependencies contracts) :: m.history)
  | leaves (id : Nat) (d : Document) (inside : m.gate? id = some (.compiling d))
      (gates : ∀ x, n.gate? x = if x = id then none else m.gate? x)
      (locked : n.scheduler.locked = false)
      (waiting : n.scheduler.waiting = m.scheduler.waiting) (t : Rat) (notes : History)
      (history : n.history = notes ++ (t, .compiled d) :: m.history) (idle : ∀ x ∈ notes, x.2.Idle)

theorem turns_locked {s s' : Scheduler} (same : s'.turns = s.turns) : s'.locked = s.locked :=
  congrArg Prod.fst same

theorem turns_waiting {s s' : Scheduler} (same : s'.turns = s.turns) : s'.waiting = s.waiting :=
  congrArg (·.2.1) same

theorem turns_sweeping {s s' : Scheduler} (same : s'.turns = s.turns) : s'.sweeping = s.sweeping :=
  congrArg (·.2.2) same

theorem AtGate.of_turns {m n : Moment} (notes : History) (gates : ∀ x, n.gate? x = m.gate? x)
    (turns : n.turns = m.turns) (history : n.history = notes ++ m.history)
    (idle : ∀ x ∈ notes, x.2.Idle) : AtGate m n :=
  .still gates (turns_locked turns) (turns_waiting turns) notes history idle

/-- The notes that a pass leaves when it ends are not about compiling. -/
theorem Outcome.idle {documents : DocumentStore} {p : Pass} {older notes : History}
    (h : Outcome w documents p older notes) : ∀ n ∈ notes, n.2.Idle := by
  rcases h with ⟨-, rfl⟩ | ⟨-, t, t', message, rfl⟩ | told
  · exact nofun
  · simp [Note.Idle]
  · cases told with
    | publishing answer => simp [Note.Idle]
    | linting answer => simp [Note.Idle]

/-- A task that goes on with something else stays away from the gate. -/
theorem AtGate.of_hand {m : Moment} {hand : Hand} {s : Scheduler} {id : Nat} (notes : History)
    (held : hand.id? = some id) (turn : m.hand.id? = some id)
    (points : ∀ x, s.point? x = m.scheduler.point? x) (turns : s.turns = m.turns)
    (history : s.history = notes ++ m.history) (idle : ∀ x ∈ notes, x.2.Idle) :
    AtGate m ⟨hand, s⟩ := by
  refine .of_turns notes (unchanged ?_ (gate?_hand turn)) turns history idle
  exact Moment.seen_of_turn held (.inr turn) fun x => by rw [points]

/-- A task that comes to a point which is not at the gate was not at the gate before. -/
theorem AtGate.of_place {m : Moment} {s : Scheduler} {id : Nat} {p : Point} (notes : History)
    (only : m.hand = .free ∨ m.hand.id? = some id) (own : m.gate? id = p.gate?)
    (points : ∀ x, s.point? x = m.scheduler.point? x) (turns : s.turns = m.turns)
    (history : s.history = notes ++ m.history) (idle : ∀ x ∈ notes, x.2.Idle) :
    AtGate m ⟨.free, s.place id p⟩ := by
  refine .of_turns notes (unchanged (seen_placed only points p) own) ?_ ?_ idle
  · exact (s.place_turns id p).trans turns
  · exact (s.place_history id p).trans history

theorem AtGate.of_drop {m : Moment} {s : Scheduler} {id : Nat} (notes : History)
    (only : m.hand = .free ∨ m.hand.id? = some id) (own : m.gate? id = none)
    (points : ∀ x, s.point? x = m.scheduler.point? x) (turns : s.turns = m.turns)
    (history : s.history = notes ++ m.history) (idle : ∀ x ∈ notes, x.2.Idle) :
    AtGate m ⟨.free, s.drop id⟩ :=
  .of_turns notes (unchanged (seen_dropped only points) own) turns history idle

theorem AtGate.of_launch {m : Moment} {id : Nat} {starter : Starter} {d : Document}
    {next : Following} (only : m.hand = .free ∨ m.hand.id? = some id) (own : m.gate? id = none) :
    AtGate m ⟨.pass id .begun (m.scheduler.launch starter d).1 next,
      (m.scheduler.launch starter d).2⟩ := by
  refine .of_turns [_] (unchanged ?_ own)
    (Scheduler.turns_of_fixtures (m.scheduler.launch_fixtures starter d))
    (m.scheduler.launch_history starter d) (by simp [Note.Idle])
  exact Moment.seen_of_turn rfl only fun x => by rw [Scheduler.point?_launch]

/-- A pass ends away from the gate. -/
theorem AtGate.of_finish {m : Moment} {s : Scheduler} {id : Nat} {p : Pass} {next : Following}
    (notes : History) (numbered : Numbered m) (turn : m.Turn id) (own : m.gate? id = none)
    (told : s = { m.scheduler with history := notes ++ m.history }) (idle : ∀ x ∈ notes, x.2.Idle) :
    AtGate m ⟨.task id next, s.endPass p⟩ := by
  refine .of_turns ((s.now, .ended p) :: notes) (unchanged ?_ own) ?_ ?_ ?_
  · exact finish_seen p next (fun _ _ => rfl) numbered turn told
  · rw [Moment.turns, Scheduler.turns_of_fixtures (s.endPass_fixtures p), told]
    rfl
  · rw [Moment.history, Scheduler.endPass_history, told]
    rfl
  · exact List.forall_mem_cons.mpr ⟨trivial, idle⟩

theorem Goes.gates {m n : Moment} (g : Goes w m n) (numbered : Numbered m) : AtGate m n := by
  cases g with
  | turn => exact .of_hand [] rfl rfl (fun _ => rfl) rfl rfl nofun
  | log level message => exact .of_hand [_] rfl rfl (fun _ => rfl) rfl rfl (by simp [Note.Idle])
  | rule l => exact .of_hand [_] rfl rfl (fun _ => rfl) rfl rfl (by simp [Note.Idle])
  | adjust settings => exact .of_hand [] rfl rfl (fun _ => rfl) rfl rfl nofun
  | relint linter => exact .of_hand [] rfl rfl (fun _ => rfl) rfl rfl nofun
  | clear => exact .of_hand [_] rfl rfl (fun _ => rfl) rfl rfl (by simp [Note.Idle])
  | opened idle current => exact .of_launch (.inr rfl) (gate?_hand rfl)
  | asked still => exact .of_launch (.inr rfl) (gate?_hand rfl)
  | swept idle => exact .of_launch (.inr rfl) (gate?_hand rfl)
  | @again s id order d runs =>
    exact .of_hand [] rfl rfl (s.point?_askAgain d.uri)
      (Scheduler.turns_of_fixtures (s.remember_fixtures d.uri))
      (s.askAgain_history d.uri) nofun
  | @list s id order r first =>
    -- Only the sweep is another one.
    refine .still (unchanged ?_ (gate?_hand rfl)) rfl rfl [] rfl nofun
    exact Moment.seen_of_turn rfl (.inr rfl) fun _ => rfl
  | skip busy => exact .of_hand [] rfl rfl (fun _ => rfl) rfl rfl nofun
  | unlist =>
    refine .still (unchanged ?_ (gate?_hand rfl)) rfl rfl [] rfl nofun
    exact Moment.seen_of_turn rfl (.inr rfl) fun _ => rfl
  | @lint s id p next l set =>
    exact .of_place (s := s.noted (.lint l.name p.document)) [_] (.inr rfl) (gate?_hand rfl)
      (fun _ => rfl) rfl rfl
      (by simp [Note.Idle])
  | plain unset => exact .of_hand [] rfl rfl (fun _ => rfl) rfl rfl nofun
  | @queue s id p next wanted taken =>
    have turns := Scheduler.place_turns { s with waiting := s.waiting ++ [id] } id
      (.inPass (.queued p) next)
    refine .joins id (gate?_hand rfl) ?_ ((turns_locked turns).trans rfl)
      ((turns_waiting turns).trans rfl)
      (Scheduler.place_history ..)
    exact seen_placed (s := { s with waiting := s.waiting ++ [id] }) (.inr rfl) (fun _ => rfl) _
  | @compile s id p next wanted free =>
    have free : s.locked = false ∧ s.waiting = [] := by simpa using free
    have turns := (s.beginCompile p).place_turns id (.inPass (.compiling p) next)
    refine .enters id p free.1 ?_ ((turns_locked turns).trans rfl)
      (.inl ⟨gate?_hand rfl, (turns_waiting turns).trans rfl⟩) _ _ _ _ (Scheduler.place_history ..)
    exact seen_placed (s := s.beginCompile p) (.inr rfl) (fun _ => rfl) _
  | @conclude s id progress p next done =>
    obtain ⟨notes, told, outcome⟩ := conclude_outcome (w := w) p s
    rw [told]
    exact .of_finish notes numbered (.of_hand rfl) (gate?_hand rfl) rfl outcome.idle
  | @answer s id order =>
    exact .of_drop (s := s.noted _) [_] (.inr rfl) (gate?_hand rfl) (fun _ => rfl) rfl rfl
      (by simp [Note.Idle])
  | @refuse s id order t =>
    exact .of_drop (s := s.noted _) [_] (.inr rfl) (gate?_hand rfl) (fun _ => rfl) rfl rfl
      (by simp [Note.Idle])
  | store path => exact .of_place [] (.inr rfl) (gate?_hand rfl) (fun _ => rfl) rfl rfl nofun
  | await ids => exact .of_place [] (.inr rfl) (gate?_hand rfl) (fun _ => rfl) rfl rfl nofun
  | spend => exact .of_place [] (.inr rfl) (gate?_hand rfl) (fun _ => rfl) rfl rfl nofun

theorem Begins.gates {s : Scheduler} {m : Moment} (b : Begins w allowed s m)
    (numbered : Numbered ⟨.free, s⟩) :
    AtGate ⟨.free, s⟩ m := by
  cases b with
  | clock later => exact .of_turns [] (fun _ => rfl) rfl rfl nofun
  | @hear order r fine =>
    refine .of_turns [_] ?_ (Scheduler.turns_of_fixtures (s.heard_fixtures order r))
      (s.heard_history order r)
      (by simp [Note.Idle])
    exact hear_seen order r (fun _ _ => rfl) (fun _ _ _ => rfl) numbered
  | wait stands known early =>
    exact .of_place [] (.inl rfl) ((gate?_point stands).trans rfl) (fun _ => rfl) rfl rfl nofun
  | lapse stands closed =>
    exact .of_place [] (.inl rfl) ((gate?_point stands).trans rfl) (fun _ => rfl) rfl rfl nofun
  | @wake id uri wake st d stands known due current =>
    obtain rfl := DocumentStore.get?_uri current
    rw [Scheduler.launch_putState .pause known]
    exact .of_launch (m := ⟨.free, s⟩) (.inl rfl) (gate?_point stands)
  | vanish stands => exact .of_drop [] (.inl rfl) (gate?_point stands) (fun _ => rfl) rfl rfl nofun
  | @promote id order path stands =>
    refine .of_turns [_] (unchanged ?_ (gate?_point stands)) rfl rfl (by simp [Note.Idle])
    exact Moment.seen_of_turn rfl (.inl rfl) fun _ => rfl
  | look stands =>
    refine .of_turns [] (unchanged ?_ (gate?_point stands)) rfl rfl nofun
    exact Moment.seen_of_turn rfl (.inl rfl) fun _ => rfl
  | linted stands answer =>
    refine .of_turns [] (unchanged ?_ (gate?_point stands)) rfl rfl nofun
    exact Moment.seen_of_turn rfl (.inl rfl) fun _ => rfl
  | lintFailed stands answer named =>
    refine .of_turns [_] (unchanged ?_ (gate?_point stands)) rfl rfl (by simp [Note.Idle])
    exact Moment.seen_of_turn rfl (.inl rfl) fun _ => rfl
  | lintLost stands answer unset =>
    exact .of_finish (m := ⟨.free, s⟩) [_] numbered (.of_point stands) (gate?_point stands) rfl
      (by simp [Note.Idle])
  | @lock id p next stands unlocked first =>
    have turns := (Scheduler.beginCompile p { s with waiting := s.waiting.tail }).place_turns id
      (.inPass (.compiling p) next)
    refine .enters id p unlocked ?_ (turns_locked turns) (.inr ?_) _ _ _ _
      (Scheduler.place_history ..)
    · exact seen_placed (s := Scheduler.beginCompile p { s with waiting := s.waiting.tail })
        (.inl rfl)
        (fun _ => rfl) _
    · obtain ⟨rest, queue⟩ := List.head?_eq_some_iff.mp first
      rw [turns_waiting turns]
      show s.waiting = id :: s.waiting.tail
      rw [queue, List.tail_cons]
  | @compiled id p next errors stands answer =>
    refine .leaves id p.document (gate?_point stands) ?_ rfl rfl _ [] rfl nofun
    exact Moment.seen_of_turn rfl (.inl rfl) fun _ => rfl
  | @compileFailed id p next t stands answer =>
    refine .leaves id p.document (gate?_point stands) ?_ rfl rfl _ [_] rfl (by simp [Note.Idle])
    exact Moment.seen_of_turn rfl (.inl rfl) fun _ => rfl

/-- **What a move does at the gate**: nothing, or a task joins the queue, enters or leaves. -/
theorem Move.gates {m n : Moment} (move : Move w allowed m n) (numbered : Numbered m) :
    AtGate m n := by
  cases move with
  | begins b => exact b.gates numbered
  | goes g => exact g.gates numbered

/-! ## Sweeps -/

/-- What a move does to sweeps. -/
inductive AtSweep (m n : Moment) : Prop
  | still (sweeps : ∀ x, n.sweep? x = m.sweep? x)
    (sweeping : n.scheduler.sweeping = m.scheduler.sweeping)
  | begins (id order : Nat) (first : m.scheduler.sweeping = false)
      (sweeps : ∀ x, n.sweep? x = if x = id then some order else m.sweep? x)
      (sweeping : n.scheduler.sweeping = true)
  | ends (id order : Nat) (inside : m.sweep? id = some order)
      (sweeps : ∀ x, n.sweep? x = if x = id then none else m.sweep? x)
      (sweeping : n.scheduler.sweeping = false)

theorem AtSweep.of_hand {m : Moment} {hand : Hand} {s : Scheduler} {id : Nat}
    (held : hand.id? = some id) (only : m.hand = .free ∨ m.hand.id? = some id)
    (own : m.sweep? id = hand.next?.bind Following.sweep?)
    (points : ∀ x, s.point? x = m.scheduler.point? x) (turns : s.turns = m.turns) :
    AtSweep m ⟨hand, s⟩ := by
  refine .still (unchanged ?_ own) (turns_sweeping turns)
  exact Moment.seen_of_turn held only fun x => by rw [points]

theorem AtSweep.of_place {m : Moment} {s : Scheduler} {id : Nat} {p : Point}
    (only : m.hand = .free ∨ m.hand.id? = some id)
    (own : m.sweep? id = p.next?.bind Following.sweep?)
    (points : ∀ x, s.point? x = m.scheduler.point? x)
    (sweeping : s.sweeping = m.scheduler.sweeping) :
    AtSweep m ⟨.free, s.place id p⟩ :=
  .still (unchanged (seen_placed only points p) own)
    ((turns_sweeping (s.place_turns id p)).trans sweeping)

theorem AtSweep.of_drop {m : Moment} {s : Scheduler} {id : Nat}
    (only : m.hand = .free ∨ m.hand.id? = some id)
    (own : m.sweep? id = none) (points : ∀ x, s.point? x = m.scheduler.point? x)
    (turns : s.turns = m.turns) :
    AtSweep m ⟨.free, s.drop id⟩ :=
  .still (unchanged (seen_dropped only points) own) (turns_sweeping turns)

theorem AtSweep.of_launch {m : Moment} {id : Nat} {starter : Starter} {d : Document}
    {next : Following} (only : m.hand = .free ∨ m.hand.id? = some id)
    (own : m.sweep? id = next.sweep?) :
    AtSweep m ⟨.pass id .begun (m.scheduler.launch starter d).1 next,
      (m.scheduler.launch starter d).2⟩ :=
  .of_hand rfl only own (fun x => m.scheduler.point?_launch starter d x)
    (Scheduler.turns_of_fixtures (m.scheduler.launch_fixtures starter d))

theorem AtSweep.of_finish {m : Moment} {s : Scheduler} {id : Nat} {p : Pass} {next : Following}
    (notes : History) (numbered : Numbered m) (turn : m.Turn id) (own : m.sweep? id = next.sweep?)
    (told : s = { m.scheduler with history := notes ++ m.history }) :
    AtSweep m ⟨.task id next, s.endPass p⟩ := by
  refine .still (unchanged (finish_seen p next (fun _ _ => rfl) numbered turn told) own) ?_
  rw [turns_sweeping (Scheduler.turns_of_fixtures (s.endPass_fixtures p)), told]

theorem Goes.sweeps {m n : Moment} (g : Goes w m n) (numbered : Numbered m) : AtSweep m n := by
  cases g with
  | turn => exact .of_hand rfl (.inr rfl) (sweep?_hand rfl) (fun _ => rfl) rfl
  | log level message => exact .of_hand rfl (.inr rfl) (sweep?_hand rfl) (fun _ => rfl) rfl
  | rule l => exact .of_hand rfl (.inr rfl) (sweep?_hand rfl) (fun _ => rfl) rfl
  | adjust settings => exact .of_hand rfl (.inr rfl) (sweep?_hand rfl) (fun _ => rfl) rfl
  | relint linter => exact .of_hand rfl (.inr rfl) (sweep?_hand rfl) (fun _ => rfl) rfl
  | clear => exact .of_hand rfl (.inr rfl) (sweep?_hand rfl) (fun _ => rfl) rfl
  | opened idle current => exact .of_launch (.inr rfl) (sweep?_hand rfl)
  | asked still => exact .of_launch (.inr rfl) (sweep?_hand rfl)
  | swept idle => exact .of_launch (.inr rfl) (sweep?_hand rfl)
  | @again s id order d runs =>
    exact .of_hand rfl (.inr rfl) (sweep?_hand rfl) (s.point?_askAgain d.uri)
      (Scheduler.turns_of_fixtures (s.remember_fixtures d.uri))
  | @list s id order r first =>
    refine .begins id order first ?_ rfl
    exact Moment.seen_of_turn rfl (.inr rfl) fun _ => rfl
  | skip busy => exact .of_hand rfl (.inr rfl) (sweep?_hand rfl) (fun _ => rfl) rfl
  | @unlist s id order listed =>
    refine .ends id order (sweep?_hand rfl) ?_ rfl
    exact Moment.seen_of_turn rfl (.inr rfl) fun _ => rfl
  | @lint s id p next l set =>
    exact .of_place (s := s.noted (.lint l.name p.document)) (.inr rfl) (sweep?_hand rfl)
      (fun _ => rfl) rfl
  | plain unset => exact .of_hand rfl (.inr rfl) (sweep?_hand rfl) (fun _ => rfl) rfl
  | @queue s id p next wanted taken =>
    exact .of_place (s := { s with waiting := s.waiting ++ [id] }) (.inr rfl) (sweep?_hand rfl)
      (fun _ => rfl) rfl
  | @compile s id p next wanted free =>
    exact .of_place (s := s.beginCompile p) (.inr rfl) (sweep?_hand rfl) (fun _ => rfl) rfl
  | @conclude s id progress p next done =>
    obtain ⟨notes, told, -⟩ := conclude_outcome (w := w) p s
    rw [told]
    exact .of_finish notes numbered (.of_hand rfl) (sweep?_hand rfl) rfl
  | @answer s id order =>
    exact .of_drop (s := s.noted _) (.inr rfl) (sweep?_hand rfl) (fun _ => rfl) rfl
  | @refuse s id order t =>
    exact .of_drop (s := s.noted _) (.inr rfl) (sweep?_hand rfl) (fun _ => rfl) rfl
  | store path => exact .of_place (.inr rfl) (sweep?_hand rfl) (fun _ => rfl) rfl
  | await ids => exact .of_place (.inr rfl) (sweep?_hand rfl) (fun _ => rfl) rfl
  | spend => exact .of_place (.inr rfl) (sweep?_hand rfl) (fun _ => rfl) rfl

theorem Begins.sweeps {s : Scheduler} {m : Moment} (b : Begins w allowed s m)
    (numbered : Numbered ⟨.free, s⟩) :
    AtSweep ⟨.free, s⟩ m := by
  cases b with
  | clock later => exact .still (fun _ => rfl) rfl
  | @hear order r fine =>
    refine .still ?_ (turns_sweeping (Scheduler.turns_of_fixtures (s.heard_fixtures order r)))
    exact hear_seen order r (fun _ _ => rfl) (fun _ _ _ => rfl) numbered
  | wait stands known early =>
    exact .of_place (.inl rfl) ((sweep?_point stands).trans rfl) (fun _ => rfl) rfl
  | lapse stands closed =>
    exact .of_place (.inl rfl) ((sweep?_point stands).trans rfl) (fun _ => rfl) rfl
  | @wake id uri wake st d stands known due current =>
    obtain rfl := DocumentStore.get?_uri current
    rw [Scheduler.launch_putState .pause known]
    exact .of_launch (m := ⟨.free, s⟩) (.inl rfl) (sweep?_point stands)
  | vanish stands => exact .of_drop (.inl rfl) (sweep?_point stands) (fun _ => rfl) rfl
  | promote stands => exact .of_hand rfl (.inl rfl) (sweep?_point stands) (fun _ => rfl) rfl
  | look stands => exact .of_hand rfl (.inl rfl) (sweep?_point stands) (fun _ => rfl) rfl
  | linted stands answer => exact .of_hand rfl (.inl rfl) (sweep?_point stands) (fun _ => rfl) rfl
  | lintFailed stands answer named =>
    exact .of_hand rfl (.inl rfl) (sweep?_point stands) (fun _ => rfl) rfl
  | lintLost stands answer unset =>
    exact .of_finish (m := ⟨.free, s⟩) [_] numbered (.of_point stands) (sweep?_point stands) rfl
  | @lock id p next stands unlocked first =>
    exact .of_place (s := Scheduler.beginCompile p { s with waiting := s.waiting.tail }) (.inl rfl)
      ((sweep?_point stands).trans rfl) (fun _ => rfl) rfl
  | compiled stands answer =>
    refine .still (unchanged ?_ (sweep?_point stands)) rfl
    exact Moment.seen_of_turn rfl (.inl rfl) fun _ => rfl
  | compileFailed stands answer =>
    refine .still (unchanged ?_ (sweep?_point stands)) rfl
    exact Moment.seen_of_turn rfl (.inl rfl) fun _ => rfl

/-- **What a move does to sweeps**: nothing, or one begins while none goes on, or it ends. -/
theorem Move.sweeps {m n : Moment} (move : Move w allowed m n) (numbered : Numbered m) :
    AtSweep m n := by
  cases move with
  | begins b => exact b.sweeps numbered
  | goes g => exact g.sweeps numbered

/-! ## Turns are kept -/

/-- All that is seen of something is seen of the one who holds it. -/
def Sole {α : Type} (see : Nat → Option α) (holder : Option (Nat × α)) : Prop :=
  ∀ x a, see x = some a ↔ holder = some (x, a)

namespace Sole

variable {α : Type} {see see' : Nat → Option α} {holder : Option (Nat × α)} {id : Nat} {a : α}

theorem same (h : Sole see holder) (now : ∀ x, see' x = see x) : Sole see' holder :=
  fun x b => by rw [now, h]

/-- When nobody holds it, one task may take it. -/
theorem take (h : Sole see none) (now : ∀ x, see' x = if x = id then some a else see x) :
    Sole see' (some (id, a)) := by
  intro x b
  rw [now]
  by_cases mine : x = id
  · subst mine
    simp
  · have others : see x ≠ some b := fun seen => nomatch (h x b).mp seen
    simp [mine, others, Ne.symm mine]

/-- The one who holds it may give it back. -/
theorem give (h : Sole see holder) (inside : see id = some a)
    (now : ∀ x, see' x = if x = id then none else see x) : Sole see' none := by
  intro x b
  rw [now]
  refine ⟨fun seen => ?_, nofun⟩
  split at seen
  · cases seen
  · next other =>
    have both := ((h x b).mp seen).symm.trans ((h id a).mp inside)
    exact absurd (congrArg Prod.fst (Option.some.inj both)) other

end Sole

/-- The lock, the queue and the notes tell what goes on at the gate. -/
structure Gated (m : Moment) : Prop where
  inside : ∃ holder, Sole (fun x => (m.gate? x).bind Gate.inside?) holder ∧
    m.scheduler.locked = holder.isSome ∧ underway m.history = (holder.map Prod.snd).toList
  queue : ∀ x, x ∈ m.scheduler.waiting ↔ m.gate? x = some .waiting
  once : m.scheduler.waiting.Nodup
  turn : Each InTurn m.history

/-- Whether all documents are being validated is what the tasks do. -/
def Swept (m : Moment) : Prop :=
  ∃ holder, Sole m.sweep? holder ∧ m.scheduler.sweeping = holder.isSome

theorem AtGate.gated {m n : Moment} (g : AtGate m n) (h : Gated m) : Gated n := by
  obtain ⟨holder, sole, locked, calls⟩ := h.inside
  cases g with
  | still gates locked' waiting notes history idle =>
    refine ⟨⟨holder, sole.same fun x => by rw [gates], locked'.trans locked, ?_⟩, ?_,
      waiting ▸ h.once, ?_⟩
    · rw [history, underway_append idle, calls]
    · intro x
      rw [waiting, gates, h.queue]
    · exact history ▸ inTurn_append idle h.turn
  | joins id new gates locked' waiting history =>
    have absent : id ∉ m.scheduler.waiting :=
      fun mem => nomatch new.symm.trans ((h.queue id).mp mem)
    refine ⟨⟨holder, sole.same fun x => ?_, locked'.trans locked, history ▸ calls⟩, ?_, ?_,
      history ▸ h.turn⟩
    · rw [gates]
      split
      · next same => rw [same, new]; rfl
      · rfl
    · intro x
      rw [waiting, gates, List.mem_append, List.mem_singleton, h.queue]
      split
      · next same => simp [same]
      · next other => simp [other]
    · rw [waiting]
      exact List.nodup_append.mpr ⟨h.once, by simp,
        by simpa using fun x mem => ne_of_mem_of_not_mem mem absent⟩
  | enters id p free gates locked' first t root dependencies contracts history =>
    obtain rfl : holder = none := by simpa [free] using locked.symm
    have calls : underway m.history = [] := calls
    refine ⟨⟨some (id, p.document), sole.take fun x => ?_, locked', ?_⟩, fun x => ?_, ?_, ?_⟩
    · rw [gates]
      split <;> rfl
    · rw [history, underway, calls]
      rfl
    · rw [gates]
      rcases first with ⟨new, waiting⟩ | waiting
      · rw [waiting, h.queue]
        split
        · next same => simp [same, new]
        · rfl
      · have once := h.once
        rw [waiting] at once
        have queue := h.queue x
        rw [waiting, List.mem_cons] at queue
        split
        · next same => simpa [same] using (List.nodup_cons.mp once).1
        · next other => simpa [other] using queue
    · rcases first with ⟨new, waiting⟩ | waiting
      · exact waiting ▸ h.once
      · exact (List.nodup_cons.mp (waiting ▸ h.once)).2
    · rw [history]
      exact ⟨calls, h.turn⟩
  | leaves id d inside gates locked' waiting t notes history idle =>
    have held : (m.gate? id).bind Gate.inside? = some d := by rw [inside]; rfl
    obtain rfl := (sole id d).mp held
    have calls : underway m.history = [d] := calls
    refine ⟨⟨none, sole.give held fun x => ?_, locked', ?_⟩, fun x => ?_, waiting ▸ h.once, ?_⟩
    · rw [gates]
      split <;> rfl
    · rw [history, underway_append idle, underway, calls]
      simp
    · rw [waiting, h.queue, gates]
      split
      · next same => simp [same, inside]
      · rfl
    · rw [history]
      exact inTurn_append idle ⟨calls, h.turn⟩

theorem AtSweep.swept {m n : Moment} (g : AtSweep m n) (h : Swept m) : Swept n := by
  obtain ⟨holder, sole, flag⟩ := h
  cases g with
  | still sweeps sweeping => exact ⟨holder, sole.same sweeps, sweeping.trans flag⟩
  | begins id order first sweeps sweeping =>
    obtain rfl : holder = none := by simpa [first] using flag.symm
    exact ⟨some (id, order), sole.take sweeps, sweeping⟩
  | ends id order inside sweeps sweeping => exact ⟨none, sole.give inside sweeps, sweeping⟩

/-! ## Runs -/

/-- What tasks take turns at is kept by every move. -/
structure Orderly (m : Moment) : Prop where
  numbered : Numbered m
  apart : Apart m.scheduler
  gated : Gated m
  swept : Swept m

theorem Orderly.move {m n : Moment} (move : Move w allowed m n) (h : Orderly m) : Orderly n where
  numbered := move.effect.numbered h.numbered
  apart := move.apart h.apart
  gated := (move.gates h.numbered).gated h.gated
  swept := (move.sweeps h.numbered).swept h.swept

theorem start_orderly (root : Option Text) (settings : Option ValidationSettings)
    (given : Option Linter) :
    Orderly ⟨.free, (Scheduler.start w root settings given).2⟩ := by
  have blank := start_blank (w := w) root settings given
  have frame := Scheduler.applySettings_frame (w := w) { root } settings given
  obtain ⟨notes, history, preparing⟩ := Scheduler.applySettings_notes (w := w) { root }
    settings given
  have idle : ∀ x ∈ notes, x.2.Idle := by
    intro x mem
    have preparing := preparing x mem
    obtain ⟨t, n⟩ := x
    cases n <;> trivial
  have history : (Scheduler.start w root settings given).2.history = notes ++ [] := history
  have turns : (Scheduler.start w root settings given).2.turns = (false, [], false) :=
    congrArg Scheduler.turns frame
  have alone : ∀ {α : Type} (see : Nat → Option α), (∀ x, see x = none) → Sole see none :=
    fun see nobody x a => by simp [nobody]
  have gate : ∀ x, Moment.gate? ⟨.free, (Scheduler.start w root settings given).2⟩ x = none := by
    intro x
    rw [Moment.gate?, seen_free, blank.point? x, Option.bind_none]
  have sweep : ∀ x, Moment.sweep? ⟨.free, (Scheduler.start w root settings given).2⟩ x = none := by
    intro x
    rw [Moment.sweep?, seen_free, blank.point? x, Option.bind_none]
  have waiting : (Scheduler.start w root settings given).2.waiting = [] := congrArg (·.2.1) turns
  refine ⟨.free _ blank.tasks, ?_,
    ⟨⟨none, alone _ fun x => ?_, congrArg Prod.fst turns, ?_⟩, fun x => ?_, ?_, ?_⟩,
    ⟨none, alone _ sweep, congrArg (·.2.2) turns⟩⟩
  · rw [Apart, blank.tasks]
    exact List.nodup_nil
  · rw [gate, Option.bind_none]
  · rw [Moment.history, history, underway_append idle]
    rfl
  · rw [gate]
    simp [waiting]
  · rw [waiting]
    exact List.nodup_nil
  · rw [Moment.history, history]
    exact inTurn_append idle trivial

theorem orderly_run (root : Option Text) (settings : Option ValidationSettings)
    (given : Option Linter) (events : List Scheduler.Event) :
    Orderly ⟨.free, (Scheduler.start w root settings given).2.run w events⟩ :=
  kept_run Orderly (fun _ _ move => Orderly.move move) (Permitted.all w _ events)
    (start_orderly root settings given)

/-- When one task holds something, it is the only one at such a point, and else there is none. -/
theorem tasksAt_of_sole {α : Type} {s : Scheduler} {on : Point → Bool} {see : Nat → Option α}
    {holder : Option (Nat × α)} (apart : Apart s) (sole : Sole see holder)
    (reads : ∀ x, (see x).isSome = (s.point? x).any on) :
    tasksAt on s = if holder.isSome then 1 else 0 := by
  have stands : ∀ {x p}, s.point? x = some p → (see x).isSome = on p := by
    intro x p stands
    rw [reads, stands, Option.any_some]
  cases holder with
  | none =>
    refine tasksAt_eq_zero apart fun x p there => ?_
    rw [← stands there]
    cases seen : see x with
    | none => rfl
    | some a => cases (sole x a).mp seen
  | some holder =>
    obtain ⟨id, a⟩ := holder
    have mine : see id = some a := (sole id a).mpr rfl
    have here : (s.point? id).any on = true := by rw [← reads, mine, Option.isSome_some]
    obtain ⟨p, there, on_⟩ := (Option.any_eq_true ..).mp here
    refine tasksAt_eq_one apart there on_ fun x q there' on' => ?_
    obtain ⟨b, seen⟩ := Option.isSome_iff_exists.mp ((stands there').trans on')
    exact (congrArg Prod.fst (Option.some.inj ((sole x b).mp seen))).symm

/-- Compilations and sweeps go on one at a time. -/
structure Serial (s : Scheduler) : Prop where
  /-- The lock is held exactly while a task is in its compile step, and then only one is. -/
  compiling : tasksAt Point.compiles s = if s.locked then 1 else 0
  /-- The compiler was called and has not come back exactly while the lock is held. -/
  calls : (underway s.history).length = if s.locked then 1 else 0
  /-- Never before was the compiler called while it had not come back from another call. -/
  ever : ∀ newer older, s.history = newer ++ older → (underway older).length ≤ 1
  /-- All documents are being validated exactly while a task does that, and then only one does. -/
  sweeping : tasksAt Point.sweeps s = if s.sweeping then 1 else 0

/-- **Compilations and sweeps go on one at a time**, in every state of every run. -/
theorem run_serial (root : Option Text) (settings : Option ValidationSettings)
    (given : Option Linter) (events : List Scheduler.Event) :
    Serial ((Scheduler.start w root settings given).2.run w events) := by
  have orderly := orderly_run (w := w) root settings given events
  generalize (Scheduler.start w root settings given).2.run w events = s at *
  obtain ⟨inside, gate, locked, calls⟩ := orderly.gated.inside
  obtain ⟨sweeper, sweep, sweeping⟩ := orderly.swept
  have locked : s.locked = inside.isSome := locked
  have sweeping : s.sweeping = sweeper.isSome := sweeping
  refine ⟨?_, ?_, ?_, ?_⟩
  · rw [locked]
    refine tasksAt_of_sole orderly.apart gate fun x => ?_
    rw [Moment.gate?, seen_free]
    cases s.point? x <;> rfl
  · rw [locked]
    have calls : underway s.history = (inside.map Prod.snd).toList := calls
    rw [calls]
    cases inside <;> rfl
  · intro newer older parts
    have turn : Each InTurn s.history := orderly.gated.turn
    rw [parts] at turn
    exact underway_le_one turn.of_append
  · rw [sweeping]
    refine tasksAt_of_sole orderly.apart sweep fun x => ?_
    rw [Moment.sweep?, seen_free]
    cases s.point? x <;> rfl

/-- **A free lock is never lost**: the task that waits longest gets it as soon as it goes on. -/
theorem first_enters {root : Option Text} {settings : Option ValidationSettings}
    {given : Option Linter} {events : List Scheduler.Event} {s : Scheduler} {id : Nat}
    {rest : List Nat} (reached : (Scheduler.start w root settings given).2.run w events = s)
    (free : s.locked = false) (queue : s.waiting = id :: rest) :
    ∃ p next, (s.step w (.resume id)).point? id = some (.inPass (.compiling p) next) ∧
      (s.step w (.resume id)).locked = true ∧ (s.step w (.resume id)).waiting = rest := by
  have waits : (s.point? id).bind Point.gate? = some .waiting := by
    have gated := (orderly_run (w := w) root settings given events).gated
    rw [reached] at gated
    have seen := (gated.queue id).mp (by simp [queue])
    rwa [Moment.gate?, seen_free] at seen
  obtain ⟨point, stands, gate⟩ := Option.bind_eq_some_iff.mp waits
  cases point with
  | inPass stage next =>
    cases stage with
    | queued p =>
      have entered : s.step w (.resume id) = ({ s with waiting := rest }.beginCompile p).place id
          (.inPass (.compiling p) next) := by
        simp [Scheduler.step, Scheduler.resume, stands, free, queue]
      have turns := ({ s with waiting := rest }.beginCompile p).place_turns id
        (.inPass (.compiling p) next)
      rw [entered]
      exact ⟨p, next, point?_placed .., turns_locked turns, turns_waiting turns⟩
    | _ => cases gate
  | _ => cases gate

end ContractCheck.Schedule
