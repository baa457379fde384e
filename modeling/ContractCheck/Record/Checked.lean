import ContractCheck.Value.Basic

/-! # Checking records

Data from outside is checked field by field, and every field that is wrong is reported, not only the
first.  `Checked` is either the checked value or the list of what is wrong, and combining two checks
joins their lists in order.  Each issue says where it is, as the keys that lead there, and of what
kind it is.
-/
namespace ContractCheck

/-- What is wrong with a value. -/
inductive IssueKind where
  /-- A field that must be given is missing. -/
  | missing
  /-- A field that the record does not have. -/
  | unknownField
  /-- Not a text. -/
  | notText
  /-- A string that is no text, where its characters count. -/
  | notUnicode
  /-- A text with too few characters. -/
  | tooShort
  /-- A text with too many characters. -/
  | tooLong
  /-- Not an integer. -/
  | notInteger
  /-- A text that is not the text of an integer. -/
  | unreadableInteger
  /-- A number with a fraction where an integer belongs. -/
  | fractional
  /-- Not a number. -/
  | notNumber
  /-- Not a truth value. -/
  | notBoolean
  /-- A number or text that stands for no truth value. -/
  | unreadableBoolean
  /-- A number below the least one allowed. -/
  | tooSmall
  /-- None of the words to choose from. -/
  | notAChoice
  /-- Not a table of values. -/
  | notTable
  /-- Not a record. -/
  | notRecord
  /-- A plain value where only a member of an enumeration is taken. -/
  | notMember
  /-- A text that the field's own rule refuses. -/
  | refused
  /-- An address that is not a text, so that its rule cannot look at it. -/
  | addressNotText
  /-- A change to a record that never changes. -/
  | frozen
  /-- A change to a field that the record does not have. -/
  | noSuchField
deriving DecidableEq, Repr

/-- The code by which reports name a kind of issue. -/
def IssueKind.code : IssueKind → Text
  | .missing => "missing".toList
  | .unknownField => "extra_forbidden".toList
  | .notText => "string_type".toList
  | .notUnicode => "string_unicode".toList
  | .tooShort => "string_too_short".toList
  | .tooLong => "string_too_long".toList
  | .notInteger => "int_type".toList
  | .unreadableInteger => "int_parsing".toList
  | .fractional => "int_from_float".toList
  | .notNumber => "float_type".toList
  | .notBoolean => "bool_type".toList
  | .unreadableBoolean => "bool_parsing".toList
  | .tooSmall => "greater_than_equal".toList
  | .notAChoice => "literal_error".toList
  | .notTable => "dict_type".toList
  | .notRecord => "model_type".toList
  | .notMember => "is_instance_of".toList
  | .refused | .addressNotText => "value_error".toList
  | .frozen => "frozen_instance".toList
  | .noSuchField => "no_such_attribute".toList

/-- Something wrong, at the place that the keys lead to. -/
structure Issue where
  place : List Text
  kind : IssueKind
deriving DecidableEq

/-- A checked value, or everything that is wrong. -/
inductive Checked (α : Type) where
  | valid (a : α)
  | invalid (issues : List Issue)

namespace Checked

variable {α β : Type}

/-- The value changed by a function. -/
def map (f : α → β) : Checked α → Checked β
  | valid a => valid (f a)
  | invalid e => invalid e

/-- Both checks; what is wrong in either is kept, the first one's issues in front. -/
def ap (f : Checked (α → β)) (c : Checked α) : Checked β :=
  match f, c with
  | valid f, valid a => valid (f a)
  | invalid e, valid _ => invalid e
  | valid _, invalid e => invalid e
  | invalid e, invalid e' => invalid (e ++ e')

instance : Applicative Checked where
  pure := valid
  map := map
  seq f c := ap f (c ())

/-- A second check that needs the first one's value. -/
def andThen (c : Checked α) (f : α → Checked β) : Checked β :=
  match c with
  | valid a => f a
  | invalid e => invalid e

/-- One issue with the value itself. -/
def fail (kind : IssueKind) : Checked α := invalid [⟨[], kind⟩]

/-- The check of what stands behind a key. -/
def behind (key : Text) : Checked α → Checked α
  | valid a => valid a
  | invalid e => invalid (e.map fun i => { i with place := key :: i.place })

/-- The value, if nothing is wrong. -/
def toOption : Checked α → Option α
  | valid a => some a
  | invalid _ => none

/-- The value, or what is wrong. -/
def toExcept : Checked α → Except (List Issue) α
  | valid a => .ok a
  | invalid e => .error e

@[simp] theorem toOption_valid (a : α) : (valid a).toOption = some a := rfl

@[simp] theorem toOption_invalid (e : List Issue) : (invalid e : Checked α).toOption = none := rfl

end Checked

namespace Fields

variable {α : Type}

/-- A field that must be given. -/
def required (fs : Fields) (key : Text) (accept : Value → Checked α) : Checked α :=
  match fs.get? key with
  | some v => (accept v).behind key
  | none => .invalid [⟨[key], .missing⟩]

/-- A field that has a default. -/
def optional (fs : Fields) (key : Text) (default : α) (accept : Value → Checked α) : Checked α :=
  match fs.get? key with
  | some v => (accept v).behind key
  | none => .valid default

/-- A field with a default and a second spelling of its key, which counts if the first is absent. -/
def spelled (fs : Fields) (key other : Text) (default : α) (accept : Value → Checked α) :
    Checked α :=
  match fs.get? key with
  | some v => (accept v).behind key
  | none => fs.optional other default accept

/-- No field but the ones named. -/
def only (fs : Fields) (known : List Text) : Checked Unit :=
  match fs.keys.filter fun k => !known.contains k with
  | [] => .valid ()
  | ks => .invalid (ks.map fun k => ⟨[k], .unknownField⟩)

end Fields

/-- The fields of a record. -/
def Value.record {α : Type} (v : Value) (read : Fields → Checked α) : Checked α :=
  match v with
  | .table fs => read fs
  | _ => .fail .notRecord

end ContractCheck
