import ContractCheck.Schedule.DocState
import ContractCheck.Schedule.Store
import ContractCheck.Diagnostic.Basic
import ContractCheck.Lint.Linter

/-! # The parts of a validation scheduler

A scheduler is told what happens to documents and decides when a document is validated.  One
validation is a **pass**: the linter is called, the compile lock is taken, the document is compiled
with its imports, and what was found is published.

What goes on at the same time are **tasks**.  A task stands at a **point** at which it may stop for
a while: it waits out the pause after an edit, or it is inside a pass, or it promotes outputs, or it
waits for other tasks.  Everything between two points happens at once.

What the scheduler asks of others — linters, the compiler, the publisher, the promotion of outputs —
are its `Surroundings`.  They are asked with the number of notes written so far, so that the same
question may get another answer each time.
-/
namespace ContractCheck.Schedule

/-- Why something that others do did not succeed. -/
structure Trouble where
  kind : Text
  message : Text
deriving DecidableEq

/-- What the scheduler remembers about a document, until it is closed. -/
structure DocState where
  /-- Tells the state from earlier ones of the same document. -/
  serial : Nat
  phase : Phase := .idle
  /-- When the document was last edited, in milliseconds. -/
  requestedAt : Rat := 0
  /-- Whether an edit asked for one more pass after the one that runs. -/
  rerun : Bool := false
  /-- The number of passes that ended. -/
  passes : Nat := 0
deriving DecidableEq

/-- Whether a pass is scheduled or runs. -/
def DocState.busy (s : DocState) : Bool := s.phase != .idle

/-- A pass on a snapshot. -/
structure Pass where
  document : Document
  /-- The serial number of the state that the pass began with. -/
  serial : Nat
  /-- Tells the pass from all others: how much had been noted when it began. -/
  number : Nat
  /-- What was found so far. -/
  found : List EditorDiagnostic := []
deriving DecidableEq

/-- Where a pass stops for a while. -/
inductive Stage where
  /-- The linter is called. -/
  | linting (pass : Pass) (linter : Linter)
  /-- The pass waits for the compile lock. -/
  | queued (pass : Pass)
  /-- The pass holds the compile lock while the document is compiled. -/
  | compiling (pass : Pass)

/-- The pass of a stage. -/
def Stage.pass : Stage → Pass
  | .linting p _ | .queued p | .compiling p => p

/-- What a task does when its pass has ended. -/
inductive Following where
  /-- The request is answered. -/
  | answer (order : Nat)
  /-- The sweep goes on with the documents that are left of those that it listed when so much had
  been noted. -/
  | sweep (order listed : Nat) (rest : List Document)
  /-- The task, which waited out a pause, is over. -/
  | nothing

/-- Where a task stands. -/
inductive Point where
  /-- Waits out the pause after an edit; it looks again at the given time. -/
  | pausing (uri : Text) (wake : Rat)
  /-- Inside a pass. -/
  | inPass (stage : Stage) (following : Following)
  /-- A task that waited out a pause and is over, but still counted. -/
  | spent
  /-- Promotes the outputs of a source. -/
  | promoting (order : Nat) (path : Text)
  /-- Waits until the given tasks are gone. -/
  | awaiting (order : Nat) (tasks : List Nat)

/-- Whether a task at the point waited out a pause and counts until it is gone. -/
def Point.counted : Point → Bool
  | .pausing _ _ | .inPass _ .nothing | .spent => true
  | _ => false

/-- A task. -/
structure Task where
  id : Nat
  point : Point

/-- What a pass was begun by. -/
inductive Starter where
  | opened
  | asked
  /-- A sweep that listed the open documents when so much had been noted. -/
  | sweep (listed : Nat)
  | pause
deriving DecidableEq

/-- What the scheduler is told or asked. -/
inductive Request where
  | opened (document : Document)
  | changed (document : Document)
  | saved (document : Document)
  | closed (document : Document)
  | validate (document : Document)
  | validateAll
  | configure (settings : ValidationSettings)
  | waitIdle

/-- What happened. -/
inductive Note where
  | received (order : Nat) (request : Request)
  | began (starter : Starter) (pass : Pass)
  | lint (linter : LinterName) (document : Document)
  | compile (document : Document) (root : Option Text) (dependencies dependencyContracts : Text)
  | compiled (document : Document)
  | publish (uri : Text) (diagnostics : List EditorDiagnostic)
  | ended (pass : Pass)
  | promote (path : Text)
  | rules (linter : Linter)
  | log (level : LogLevel) (message : Text)
  | answered (order : Nat)
  | refused (order : Nat) (kind : Text)

/-- What comes of asking for a linter. -/
inductive LinterOffer where
  | made (linter : Linter)
  /-- There is none that can be used. -/
  | unavailable (reason : Text)
  | broken (trouble : Trouble)

/-- What the scheduler asks of others.  The number tells one question from another. -/
structure Surroundings where
  linter : Nat → LinterName → Option Text → LinterOffer
  /-- Hands a linter its rules. -/
  setRules : Nat → Linter → Option Trouble
  lint : Nat → Linter → Document → Except Trouble (List EditorDiagnostic)
  compile : Nat → Document → Except Trouble (List CompilerError)
  publish : Nat → Text → List EditorDiagnostic → Option Trouble
  promote : Nat → Text → Option Trouble

end ContractCheck.Schedule

namespace ContractCheck

/-- A scheduler with its tasks and everything that it noted. -/
structure Scheduler where
  root : Option Text := none
  settings : ValidationSettings := {}
  linter : Option Linter := none
  documents : DocumentStore := {}
  states : List (Text × Schedule.DocState) := []
  /-- Whether all documents are being validated. -/
  sweeping : Bool := false
  /-- Whether the compile lock is held. -/
  locked : Bool := false
  /-- The tasks that wait for the compile lock, the longest waiting first. -/
  waiting : List Nat := []
  tasks : List Schedule.Task := []
  /-- The next number for a task or a state. -/
  fresh : Nat := 0
  /-- The time in milliseconds. -/
  now : Rat := 0
  /-- What happened and when, the newest first. -/
  history : List (Rat × Schedule.Note) := []

end ContractCheck
