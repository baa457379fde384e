import ContractCheck.Record.Accept

/-! # The validation state of a document

Each open document is idle, scheduled to be validated after a pause, or being validated.  An edit
during a validation asks for one more.  The state also counts the validations that have ended.
-/
namespace ContractCheck

/-- Where a document is in its validation. -/
inductive Phase where
  | idle
  | scheduled
  | running
deriving DecidableEq, Repr

namespace Phase

/-- The name of a phase. -/
def label : Phase → Text
  | .idle => "idle".toList
  | .scheduled => "scheduled".toList
  | .running => "running".toList

/-- The phase with a name. -/
def ofLabel? (t : Text) : Option Phase :=
  [Phase.idle, .scheduled, .running].find? fun p => p.label = t

end Phase

/-- The record of a document's validation; the time of the last request is in seconds. -/
structure StateRecord where
  phase : Phase := .idle
  lastRequested : Binary64 := .withSign false 0
  rerun : Bool := false
  passes : Nat := 0

namespace StateRecord

/-- Whether a validation is scheduled or running. -/
def busy (s : StateRecord) : Bool := s.phase != .idle

/-- Reads a record. -/
def read (v : Value) : Checked StateRecord :=
  v.record fun fs =>
    StateRecord.mk
      <$> fs.optional "phase" .idle Accept.member
      <*> fs.optional "last_requested_at" (.withSign false 0) Accept.number
      <*> fs.optional "rerun_requested" false Accept.boolean
      <*> fs.optional "passes" 0 Accept.natural
      <* fs.only ["phase", "last_requested_at", "rerun_requested", "passes"]

/-- The record with one field changed; a phase is given as itself. -/
def assign (s : StateRecord) (key : Text) (v : Value ⊕ Phase) : Checked StateRecord :=
  match v with
  | .inr p =>
    if key = "phase".toList then .valid { s with phase := p }
    else .invalid [⟨[key], .noSuchField⟩]
  | .inl v =>
    if key = "phase".toList then (Accept.member v).behind key
    else if key = "last_requested_at".toList then
      ((Accept.number v).behind key).map fun x => { s with lastRequested := x }
    else if key = "rerun_requested".toList then
      ((Accept.boolean v).behind key).map fun x => { s with rerun := x }
    else if key = "passes".toList then
      ((Accept.natural v).behind key).map fun x => { s with passes := x }
    else .invalid [⟨[key], .noSuchField⟩]

end StateRecord
end ContractCheck
