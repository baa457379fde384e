import ContractCheck.Number.Binary64
import ContractCheck.Text.Points
import ContractCheck.Value.Moment

/-! # Values

The values that configuration files, editor settings, environment variables and reports hold: a
tree of truth values, numbers, texts, moments, lists and tables.  A table is a list of fields in the
order in which their keys were first written; writing a key again keeps its place.

A string that is no text is a value of its own, and so is what stands under a key that is none; the
key shows as a text then.
-/
namespace ContractCheck

/-- A value of a configuration file or a report. -/
inductive Value where
  | null
  | bool (b : Bool)
  | int (n : Int)
  | float (x : Binary64)
  | text (t : Text)
  | broken (s : Broken)
  | moment (m : Moment)
  | list (items : List Value)
  | table (fields : List (Text × Value))
  /-- What stands in a table under a key that is no text. -/
  | misnamed (key : Broken) (v : Value)
deriving Inhabited

/-- The fields of a table, in the order of their keys. -/
abbrev Fields := List (Text × Value)

namespace Fields

/-- The value of a key. -/
def get? (fs : Fields) (key : Text) : Option Value := fs.lookup key

/-- Whether the key has a value. -/
def has (fs : Fields) (key : Text) : Bool := (fs.get? key).isSome

/-- The fields with a value written for a key: in its place if it has one, otherwise at the end. -/
def put (key : Text) (v : Value) : Fields → Fields
  | [] => [(key, v)]
  | (k, w) :: r => if k = key then (k, v) :: r else (k, w) :: put key v r

/-- The fields without a key. -/
def erase (fs : Fields) (key : Text) : Fields := fs.filter fun f => f.1 != key

/-- The keys in order. -/
def keys (fs : Fields) : List Text := fs.map Prod.fst

/-- The fields written one after another. -/
def ofList (fs : List (Text × Value)) : Fields := fs.foldl (fun acc f => put f.1 f.2 acc) []

theorem get?_put_self (fs : Fields) (key : Text) (v : Value) :
    (put key v fs).get? key = some v := by
  induction fs with
  | nil => simp [put, get?]
  | cons f r ih =>
    obtain ⟨k, w⟩ := f
    by_cases h : k = key
    · simp [put, get?, h]
    · have h' : (key == k) = false := by simp [Ne.symm h]
      simpa [put, get?, h, List.lookup_cons, h'] using ih

theorem get?_put_of_ne (fs : Fields) {key other : Text} (v : Value) (h : other ≠ key) :
    (put key v fs).get? other = fs.get? other := by
  induction fs with
  | nil =>
    have h' : (other == key) = false := by simp [h]
    simp [put, get?, List.lookup_cons, h']
  | cons f r ih =>
    obtain ⟨k, w⟩ := f
    by_cases hk : k = key
    · subst hk
      have h' : (other == k) = false := by simp [h]
      simp [put, get?, List.lookup_cons, h']
    · simp only [put, hk, if_false, get?, List.lookup_cons]
      cases other == k <;> simp_all [get?]

theorem put_put (fs : Fields) (key : Text) (v w : Value) :
    put key w (put key v fs) = put key w fs := by
  induction fs with
  | nil => simp [put]
  | cons f r ih =>
    obtain ⟨k, u⟩ := f
    by_cases hk : k = key
    · simp [put, hk]
    · simp [put, hk, ih]

end Fields

namespace Value

/-- The fields of a table. -/
def fields? : Value → Option Fields
  | .table fs => some fs
  | _ => none

/-- The value of a string. -/
def ofPoints (s : Points) : Value :=
  match halved : s.text? with
  | some t => .text t
  | none => .broken ⟨s, halved⟩

/-- A field of a table under a string as its key. -/
def field (key : Points) (v : Value) : Text × Value :=
  match halved : key.text? with
  | some t => (t, v)
  | none => (key.shown, .misnamed ⟨key, halved⟩ v)

/-- The value counts as given: it is not null, false, zero, or empty. -/
def given : Value → Bool
  | .null => false
  | .bool b => b
  | .int n => n != 0
  | .float x => !x.isZero
  | .text t => !t.isEmpty
  | .broken _ => true
  | .moment _ => true
  | .list xs => !xs.isEmpty
  | .table fs => !fs.isEmpty
  | .misnamed _ v => v.given

/-- The whole number that a truth value or an integer stands for. -/
def whole? : Value → Option Int
  | .bool b => some (if b then 1 else 0)
  | .int n => some n
  | _ => none

/-- Equality of scalars: numbers are compared by value, and truth values count as zero and one. -/
def scalarAgrees : Value → Value → Bool
  | .null, .null => true
  | .text a, .text b => a == b
  | .broken a, .broken b => a == b
  | .moment a, .moment b => a == b
  | .float x, .float y => x.agrees y
  | .float x, v => match v.whole? with
    | some n => x.isIntegral && x.truncate == n
    | none => false
  | v, .float x => match v.whole? with
    | some n => x.isIntegral && x.truncate == n
    | none => false
  | v, w => match v.whole?, w.whole? with
    | some m, some n => m == n
    | _, _ => false

mutual
/-- Equality of values: numbers by value, lists item by item, and tables key by key in any order. -/
def agrees : Value → Value → Bool
  | .list xs, .list ys => agreesList xs ys
  | .table fs, .table gs => fs.length == gs.length && agreesFields fs gs
  | .misnamed k v, .misnamed l w => k == l && agrees v w
  | v, w => scalarAgrees v w

/-- Equality of lists, item by item. -/
def agreesList : List Value → List Value → Bool
  | [], [] => true
  | x :: xs, y :: ys => agrees x y && agreesList xs ys
  | _, _ => false

/-- Whether every field on the left has an equal one on the right. -/
def agreesFields : List (Text × Value) → Fields → Bool
  | [], _ => true
  | (k, v) :: r, gs =>
    (match Fields.get? gs k with
     | some w => agrees v w
     | none => false) && agreesFields r gs
end

mutual
/-- Whether a value or something in it is of a kind. -/
def anywhere (kind : Value → Bool) : Value → Bool
  | .list xs => kind (.list xs) || anyItem kind xs
  | .table fs => kind (.table fs) || anyField kind fs
  | .misnamed k v => kind (.misnamed k v) || anywhere kind v
  | v => kind v

/-- Whether one of several items or something in it is of a kind. -/
def anyItem (kind : Value → Bool) : List Value → Bool
  | [] => false
  | x :: r => anywhere kind x || anyItem kind r

/-- Whether one of several fields or something in it is of a kind. -/
def anyField (kind : Value → Bool) : List (Text × Value) → Bool
  | [] => false
  | (_, v) :: r => anywhere kind v || anyField kind r
end

/-- Whether the value is a string that is no text, or stands under one. -/
def isBroken : Value → Bool
  | .broken _ => true
  | .misnamed .. => true
  | _ => false

/-- Whether a field stands under a key that is no text. -/
def isMisnamed : Value → Bool
  | .misnamed .. => true
  | _ => false

/-- Whether the value is an integer with too many digits to be written. -/
def isOversized : Value → Bool
  | .int n => Nat.pow 10 Text.maxDigits ≤ n.natAbs
  | _ => false

/-- Whether the value is a day or a time. -/
def isMoment : Value → Bool
  | .moment _ => true
  | _ => false

end Value
end ContractCheck
