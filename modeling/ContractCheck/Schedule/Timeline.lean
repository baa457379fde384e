import ContractCheck.Schedule.Machine

/-! # A scheduler on a clock of its own

A timeline runs a scheduler on a clock that jumps to the next time at which something can go on.
Work takes no time, except that compiling a document takes as long as is said for it.

Tasks that can go on do so in the order in which they became able to; the task that was handed the
compile lock comes before others that became able to go on at the same step.  A task whose work
takes no time goes on before all others, and a request comes in before the tasks that waited for its
time go on.  Every step of a timeline is an event of `Scheduler.step`, so a timeline only picks one
of the runs.
-/
namespace ContractCheck.Schedule

/-- A scheduler, the tasks that can go on in their order, and the times at which compiles end. -/
structure Timeline where
  scheduler : Scheduler
  ready : List Nat := []
  ends : List (Nat × Rat) := []

namespace Timeline

/-- What the scheduler asks, and how many milliseconds a document compiles for. -/
structure Setting where
  surroundings : Surroundings
  duration : Document → Nat

variable (c : Setting)

/-- Whether a task can go on. -/
def able (t : Timeline) (task : Task) : Bool :=
  let s := t.scheduler
  match task.point with
  | .pausing _ wake => decide (wake ≤ s.now)
  | .inPass (.linting _ _) _ | .spent | .promoting _ _ => true
  | .inPass (.queued _) _ => !s.locked && s.waiting.head? = some task.id
  | .inPass (.compiling _) _ => (t.ends.lookup task.id).any fun e => decide (e ≤ s.now)
  | .awaiting _ ids => !s.tasks.any fun other => ids.contains other.id

/-- Whether a task stands where its work takes no time. -/
def atOnce (t : Timeline) (task : Task) : Bool :=
  match task.point with
  | .inPass (.linting _ _) _ | .promoting _ _ => true
  | .inPass (.compiling p) _ => c.duration p.document = 0 && t.able task
  | _ => false

/-- The timeline with the tasks that became able to go on behind the others. -/
def refill (t : Timeline) : Timeline :=
  let new :=
    (t.scheduler.tasks.filter fun task => t.able task && !t.ready.contains task.id).map Task.id
  let first := new.filter fun id => t.scheduler.waiting.head? = some id
  { t with ready := t.ready ++ first ++ new.filter fun id => !first.contains id }

/-- The timeline after an event by which one task went on. -/
def after (t : Timeline) (current : Nat) (e : Scheduler.Event) : Timeline :=
  let s := t.scheduler.step c.surroundings e
  let ends := s.tasks.filterMap fun task =>
    match task.point with
    | .inPass (.compiling p) _ =>
      match t.ends.lookup task.id with
      | some time => if task.id = current then some (task.id, s.now + c.duration p.document)
          else some (task.id, time)
      | none => some (task.id, s.now + c.duration p.document)
    | _ => none
  let t : Timeline := { t with scheduler := s, ends }
  let t := if s.tasks.any fun task => task.id = current && t.atOnce c task then
      { t with ready := current :: t.ready }
    else t
  t.refill

/-- The timeline after at most `fuel` tasks that can go on did so. -/
def settleWithin : Nat → Timeline → Timeline
  | 0, t => t
  | fuel + 1, t =>
    match t.ready with
    | [] => t
    | id :: rest => settleWithin fuel ({ t with ready := rest }.after c id (.resume id))

/-- More than the number of steps that the tasks of a timeline can make before the clock moves. -/
def bound (t : Timeline) : Nat :=
  64 * Nat.pow (t.scheduler.tasks.length + t.scheduler.documents.size + 4) 2

/-- The timeline after everything that can go on now did so. -/
def settle (t : Timeline) : Timeline := settleWithin c t.bound t

/-- The times that tasks wait for. -/
def times (t : Timeline) : List Rat :=
  t.scheduler.tasks.filterMap fun task =>
    match task.point with
    | .pausing _ wake => if t.scheduler.now < wake then some wake else none
    | .inPass (.compiling _) _ =>
      (t.ends.lookup task.id).filter fun e => decide (t.scheduler.now < e)
    | _ => none

/-- The next of the times. -/
def next? (t : Timeline) : Option Rat :=
  t.times.foldl (fun least time =>
    match least with
    | none => some time
    | some l => some (if time < l then time else l)) none

/-- The timeline whose clock reached a time. -/
def reach (t : Timeline) (time : Rat) : Timeline :=
  { t with scheduler := t.scheduler.step c.surroundings (.clock time) }.refill

/-- The timeline after everything that goes on before a time, or at any time, within `fuel`
jumps. -/
def playWithin (limit : Option Rat) : Nat → Timeline → Timeline
  | 0, t => t
  | fuel + 1, t =>
    let t := t.settle c
    match t.next? with
    | none => t
    | some time =>
      if limit.any fun l => decide (l ≤ time) then t else playWithin limit fuel (t.reach c time)

/-- The timeline at a time, before anything goes on then. -/
def playUntil (t : Timeline) (time : Rat) : Timeline :=
  let t := playWithin c (some time) t.bound t
  { t with scheduler := t.scheduler.step c.surroundings (.clock time) }

/-- The timeline after everything is over. -/
def finish (t : Timeline) : Timeline := playWithin c none t.bound t

/-- The timeline after a request came in and everything that can go on did so. -/
def request (t : Timeline) (order : Nat) (r : Request) : Timeline :=
  (t.after c t.scheduler.fresh (.request order r)).settle c

/-- The timeline after a request that could not be read, and everything that can go on then. -/
def refuse (t : Timeline) (order : Nat) (kind : Text) : Timeline :=
  settle c (refill { t with scheduler := t.scheduler.noted (.refused order kind) })

/-- What happened since another timeline, the oldest first. -/
def since (t earlier : Timeline) : List (Rat × Note) :=
  (t.scheduler.history.take (t.scheduler.history.length - earlier.scheduler.history.length)).reverse

end Timeline
end ContractCheck.Schedule
