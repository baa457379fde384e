import ContractCheck.Schedule.Basic

/-! # How a scheduler goes on

A scheduler goes on by events: the clock moves forward, a request comes in, or a task that stands at
a point resumes.  Any order of events is a run.  A task that cannot go on yet stays where it is when
it is resumed.

The rules are these.  Edits start a pause, and further edits during the pause extend it.  An edit
during a pass asks for one more pass after it.  Only the holder of the compile lock compiles, and
the lock is handed on in the order of asking.  Only one sweep over all documents goes on at a time.
-/
namespace ContractCheck.Scheduler

open Schedule

/-! ## Notes, states and tasks -/

/-- The scheduler after something happened. -/
def noted (s : Scheduler) (n : Note) : Scheduler := { s with history := (s.now, n) :: s.history }

/-- The number of notes so far, with which others are asked. -/
def occasion (s : Scheduler) : Nat := s.history.length

/-- The scheduler after a message with context fields was logged. -/
def logged (s : Scheduler) (level : LogLevel) (message : Text) (context : Fields) : Scheduler :=
  s.noted (.log level (message ++ Log.renderContext context))

/-- What is remembered about a document. -/
def state? (s : Scheduler) (uri : Text) : Option DocState := s.states.lookup uri

/-- The scheduler with another state for a document. -/
def putState (s : Scheduler) (uri : Text) (st : DocState) : Scheduler :=
  { s with states := (uri, st) :: s.states.filter fun e => e.1 ≠ uri }

/-- The scheduler that remembers nothing about a document. -/
def forget (s : Scheduler) (uri : Text) : Scheduler :=
  { s with states := s.states.filter fun e => e.1 ≠ uri }

/-- The state of a document, which is a new one if there was none. -/
def remember (s : Scheduler) (uri : Text) : DocState × Scheduler :=
  match s.state? uri with
  | some st => (st, s)
  | none =>
    let st : DocState := { serial := s.fresh }
    (st, { s.putState uri st with fresh := s.fresh + 1 })

/-- The point at which a task stands. -/
def point? (s : Scheduler) (id : Nat) : Option Point :=
  (s.tasks.find? fun t => t.id = id).map Task.point

/-- The scheduler with a task at a point. -/
def place (s : Scheduler) (id : Nat) (p : Point) : Scheduler :=
  if (s.point? id).isSome then
    { s with tasks := s.tasks.map fun t => if t.id = id then { t with point := p } else t }
  else { s with tasks := s.tasks ++ [{ id, point := p }] }

/-- The scheduler without a task. -/
def drop (s : Scheduler) (id : Nat) : Scheduler :=
  { s with tasks := s.tasks.filter fun t => t.id ≠ id }

/-- Whether a pass on a document is scheduled or runs. -/
def busy (s : Scheduler) (uri : Text) : Bool := (s.state? uri).any DocState.busy

/-- Whether a pass on a document runs. -/
def running (s : Scheduler) (uri : Text) : Bool := (s.state? uri).any fun st => st.phase = .running

/-- A number for a new task. -/
def enlist (s : Scheduler) : Nat × Scheduler := (s.fresh, { s with fresh := s.fresh + 1 })

/-- The scheduler with a document that is to be validated after the pause. -/
def schedule (s : Scheduler) (uri : Text) (st : DocState) : Scheduler :=
  let (id, s) := (s.putState uri { st with phase := .scheduled }).enlist
  s.place id (.pausing uri s.now)

/-- The task is over and the request answered. -/
def answer (s : Scheduler) (id order : Nat) : Scheduler := (s.noted (.answered order)).drop id

/-- The task is over and the request failed. -/
def refuse (s : Scheduler) (id order : Nat) (t : Trouble) : Scheduler :=
  (s.noted (.refused order t.kind)).drop id

/-! ## Passes

Each step of a pass gives the stage at which the pass stops next, or none if it is over. -/

/-- The context field that names a document. -/
def about (d : Document) : Fields := [("uri".toList, .text d.uri)]

/-- The pass has ended: its document is idle again, and validated once more if an edit came in.  A
document that was closed since is left alone. -/
def endPass (p : Pass) (s : Scheduler) : Scheduler :=
  let s := s.noted (.ended p)
  match s.state? p.document.uri with
  | none => s
  | some st =>
    if st.serial = p.serial then
      let rest := { st with phase := .idle, rerun := false, passes := st.passes + 1 }
      if st.rerun then s.schedule p.document.uri rest else s.putState p.document.uri rest
    else s

/-- Logs that a pass went wrong. -/
def passFailed (d : Document) (reason : Text) (s : Scheduler) : Scheduler :=
  s.logged .error ("Validation pass failed: ".toList ++ reason) (about d)

/-- Publishes what a pass found, if its document is still open, and ends it. -/
def conclude (w : Surroundings) (p : Pass) (s : Scheduler) : Scheduler :=
  if s.documents.has p.document.uri then
    let s := s.noted (.publish p.document.uri p.found)
    match w.publish s.occasion p.document.uri p.found with
    | none =>
      (s.logged .debug ("Published ".toList ++ Text.ofNat p.found.length ++ " diagnostic(s)".toList)
        (about p.document)).endPass p
    | some t => (s.passFailed p.document t.message).endPass p
  else s.endPass p

/-- The document of a pass begins to be compiled. -/
def beginCompile (p : Pass) (s : Scheduler) : Scheduler :=
  { s with locked := true }.noted
    (.compile p.document s.root s.settings.dependencies s.settings.dependencyContracts)

/-- The pass of a task goes on to compiling, if that is wanted.  The lock is taken at once when it
is free and nobody waits for it. -/
def towardsCompile (w : Surroundings) (id : Nat) (p : Pass) (s : Scheduler) :
    Option Stage × Scheduler :=
  if s.settings.asYouType then
    if !s.locked && s.waiting.isEmpty then (some (.compiling p), s.beginCompile p)
    else (some (.queued p), { s with waiting := s.waiting ++ [id] })
  else (none, s.conclude w p)

/-- One more pass on a document is asked for. -/
def askAgain (s : Scheduler) (uri : Text) : Scheduler :=
  let (st, s) := s.remember uri
  s.putState uri { st with rerun := true }

/-- A pass on a snapshot begins. -/
def launch (starter : Starter) (d : Document) (s : Scheduler) : Pass × Scheduler :=
  let (st, s) := s.remember d.uri
  let p : Pass := { document := d, serial := st.serial, number := s.occasion }
  (p, (s.putState d.uri { st with phase := .running, rerun := false }).noted (.began starter p))

/-- A task begins a pass on a snapshot, or asks for one more if one runs already. -/
def beginPass (w : Surroundings) (id : Nat) (starter : Starter) (d : Document) (s : Scheduler) :
    Option Stage × Scheduler :=
  if s.running d.uri then (none, s.askAgain d.uri)
  else
    let (p, s) := s.launch starter d
    match s.linter with
    | some l => (some (.linting p l), s.noted (.lint l.name d))
    | none => s.towardsCompile w id p

/-- The linter of a pass has answered.  When it failed and no linter is set any more, its failure
cannot be reported and the whole pass fails. -/
def afterLint (w : Surroundings) (id : Nat) (p : Pass) (l : Linter) (s : Scheduler) :
    Option Stage × Scheduler :=
  match w.lint s.occasion l p.document with
  | .ok found => s.towardsCompile w id { p with found }
  | .error t =>
    match s.linter with
    | some l =>
      (s.logged .warning ("Linting failed: ".toList ++ t.message)
        (about p.document ++ [("linter".toList, .text l.name.label)])).towardsCompile w id p
    | none =>
      (none, (s.passFailed p.document "'NoneType' object has no attribute 'name'".toList).endPass p)

/-- The errors that belong to a document: those in a file of its name. -/
def ownErrors (d : Document) (errors : List CompilerError) : List EditorDiagnostic :=
  (errors.filter fun e => e.fileName = d.basename).map CompilerError.diagnostic

/-- The document of a pass is compiled. -/
def afterCompile (w : Surroundings) (p : Pass) (s : Scheduler) : Scheduler :=
  let s := { s with locked := false }.noted (.compiled p.document)
  match w.compile s.occasion p.document with
  | .ok errors => s.conclude w { p with found := p.found ++ ownErrors p.document errors }
  | .error t =>
    (s.logged .warning ("Compilation failed: ".toList ++ t.message) (about p.document)).conclude w p

/-! ## Sweeps -/

/-- A task validates the documents that are left of a sweep, except those that are busy. -/
def sweep (w : Surroundings) (id order listed : Nat) : List Document → Scheduler → Scheduler
  | [], s => { s with sweeping := false }.answer id order
  | d :: rest, s =>
    if s.busy d.uri then sweep w id order listed rest s
    else
      match s.beginPass w id (.sweep listed) d with
      | (some stage, s) => s.place id (.inPass stage (.sweep order listed rest))
      | (none, s) => sweep w id order listed rest s

/-- A task validates all open documents, unless another one does. -/
def beginSweep (w : Surroundings) (id order : Nat) (s : Scheduler) : Scheduler :=
  if s.sweeping then
    (s.logged .debug "Validation sweep already running".toList []).answer id order
  else { s with sweeping := true }.sweep w id order s.occasion s.documents.toList

/-- A task goes on after a step of its pass. -/
def follow (w : Surroundings) (id : Nat) (following : Following) :
    Option Stage × Scheduler → Scheduler
  | (some stage, s) => s.place id (.inPass stage following)
  | (none, s) =>
    match following with
    | .answer order => s.answer id order
    | .sweep order listed rest => s.sweep w id order listed rest
    | .nothing => s.place id .spent

/-! ## Waiting for tasks -/

/-- The tasks that waited out a pause and are not gone. -/
def counted (s : Scheduler) : List Nat := (s.tasks.filter fun t => t.point.counted).map Task.id

/-- A task waits until no counted task is left. -/
def awaitIdle (id order : Nat) (s : Scheduler) : Scheduler :=
  match s.counted with
  | [] => s.answer id order
  | ids => s.place id (.awaiting order ids)

/-! ## Settings -/

/-- The scheduler with a linter, which is handed its rules. -/
def useLinter (w : Surroundings) (linter : Option Linter) (s : Scheduler) :
    Option Trouble × Scheduler :=
  match linter with
  | none => (none, { s with linter := none })
  | some l =>
    let ruled := l.withRules s.settings.linterRules
    let s := s.noted (.rules ruled)
    match w.setRules s.occasion ruled with
    | none => (none, { s with linter := some ruled })
    | some t => (some t, { s with linter := some l })

/-- The scheduler with other settings, and what went wrong when the linter was made for them.  A
linter that is given is used in place of the one that the settings name. -/
def applySettings (w : Surroundings) (settings : Option ValidationSettings) (given : Option Linter)
    (s : Scheduler) : Option Trouble × Scheduler :=
  let s := { s with settings := settings.getD s.settings }
  match given with
  | some l => s.useLinter w (some l)
  | none =>
    match s.settings.linter with
    | none => s.useLinter w none
    | some name =>
      match w.linter s.occasion name s.root with
      | .made l => s.useLinter w (some l)
      | .unavailable reason =>
        (s.logged .warning ("Linter ".toList ++ name.label ++ " unavailable: ".toList ++ reason)
          []).useLinter w none
      | .broken t => (some t, s)

/-- A scheduler for a project. -/
def start (w : Surroundings) (root : Option Text) (settings : Option ValidationSettings)
    (given : Option Linter) : Option Trouble × Scheduler :=
  { root : Scheduler }.applySettings w settings given

/-! ## Events -/

/-- A document was edited: a pause begins, goes on for longer, or one more pass is asked for. -/
def edited (uri : Text) (s : Scheduler) : Scheduler :=
  let (st, s) := s.remember uri
  let st := { st with requestedAt := s.now }
  match st.phase with
  | .running => s.putState uri { st with rerun := true }
  | .scheduled => s.putState uri st
  | .idle => s.schedule uri st

/-- What a request changes before anything else goes on: it is noted and has the next number, and
the documents and what is remembered about them are brought up to date. -/
def heard (order : Nat) (r : Request) (s : Scheduler) : Scheduler :=
  let (_, s) := (s.noted (.received order r)).enlist
  match r with
  | .opened d => ({ s with documents := s.documents.put d }.remember d.uri).2
  | .changed d => { s with documents := s.documents.put d }.edited d.uri
  | .saved d => { s with documents := s.documents.put d }
  | .closed d => { s with documents := s.documents.remove d.uri }.forget d.uri
  | .validate _ | .validateAll | .configure _ | .waitIdle => s

/-- A request comes in. -/
def receive (w : Surroundings) (order : Nat) (r : Request) (s : Scheduler) : Scheduler :=
  let id := s.fresh
  let s := s.heard order r
  match r with
  | .opened d =>
    if s.busy d.uri || s.sweeping then s.answer id order
    else s.beginPass w id .opened d |> follow w id (.answer order)
  | .changed _ => s.answer id order
  | .saved d => s.place id (.promoting order d.path)
  | .closed d =>
    let s := s.noted (.publish d.uri [])
    match w.publish s.occasion d.uri [] with
    | none => s.place id (.promoting order d.path)
    | some t => s.refuse id order t
  | .validate d => s.beginPass w id .asked d |> follow w id (.answer order)
  | .validateAll => s.beginSweep w id order
  | .configure settings =>
    match s.applySettings w (some settings) none with
    | (some t, s) => s.refuse id order t
    | (none, s) => if s.settings.asYouType then s.beginSweep w id order else s.answer id order
  | .waitIdle => s.awaitIdle id order

/-- A task that waits out a pause looks whether the document has been quiet for long enough, and if
so begins a pass on its newest snapshot. -/
def wake (w : Surroundings) (id : Nat) (uri : Text) (s : Scheduler) : Scheduler :=
  match s.state? uri with
  | none => s.place id .spent
  | some st =>
    let due := st.requestedAt + s.settings.delay
    if s.now < due then s.place id (.pausing uri due)
    else
      match s.documents.get? uri with
      | none => s.place id .spent
      | some d =>
        (s.putState uri { st with phase := .idle }).beginPass w id .pause d |> follow w id .nothing

/-- A task goes on from the point at which it stands, if it can. -/
def resume (w : Surroundings) (id : Nat) (s : Scheduler) : Scheduler :=
  match s.point? id with
  | none => s
  | some (.pausing uri wakeAt) => if wakeAt ≤ s.now then s.wake w id uri else s
  | some (.inPass (.linting p l) following) => s.afterLint w id p l |> follow w id following
  | some (.inPass (.queued p) following) =>
    if !s.locked && s.waiting.head? = some id then
      { s with waiting := s.waiting.tail }.beginCompile p
        |>.place id (.inPass (.compiling p) following)
    else s
  | some (.inPass (.compiling p) following) => (none, s.afterCompile w p) |> follow w id following
  | some .spent => s.drop id
  | some (.promoting order path) =>
    let s := s.noted (.promote path)
    match w.promote s.occasion path with
    | none => s.answer id order
    | some t => s.refuse id order t
  | some (.awaiting order ids) =>
    if s.tasks.any fun t => ids.contains t.id then s else s.awaitIdle id order

/-- What moves a scheduler on. -/
inductive Event where
  /-- The clock reaches a time. -/
  | clock (time : Rat)
  | request (order : Nat) (request : Request)
  | resume (task : Nat)

/-- The scheduler after an event. -/
def step (w : Surroundings) (s : Scheduler) : Event → Scheduler
  | .clock t => if s.now < t then { s with now := t } else s
  | .request order r => s.receive w order r
  | .resume id => s.resume w id

/-- The scheduler after a run. -/
def run (w : Surroundings) (s : Scheduler) (events : List Event) : Scheduler :=
  events.foldl (fun s e => s.step w e) s

end ContractCheck.Scheduler
