import ContractCheck.Value.Basic

/-! # Dotted keys

A dotted key such as `validation.linter` is a path through nested tables.  Reading follows it as far
as there are tables; writing creates the levels that are missing and fails, changing nothing, when a
level on the way is not a table.
-/
namespace ContractCheck.Value

/-- The parts of a dotted key. -/
def pathOf (key : Text) : List Text := Text.splitOn ['.'] key

/-- The value at the end of a path. -/
def getIn : List Text → Value → Option Value
  | [], v => some v
  | k :: ks, .table fs =>
    match Fields.get? fs k with
    | some v => getIn ks v
    | none => none
  | _ :: _, _ => none

/-- The fields with `new` at the end of the path, if every level on the way is a table. -/
def putIn (new : Value) : List Text → Fields → Option Fields
  | [], fs => some fs
  | [k], fs => some (Fields.put k new fs)
  | k :: k' :: ks, fs =>
    match Fields.get? fs k with
    | none => (putIn new (k' :: ks) []).map fun inner => Fields.put k (.table inner) fs
    | some (.table inner) =>
      (putIn new (k' :: ks) inner).map fun inner => Fields.put k (.table inner) fs
    | some _ => none

/-- The value of a dotted key. -/
def getKey (key : Text) (v : Value) : Option Value := getIn (pathOf key) v

/-- The table with a value written for a dotted key. -/
def putKey (key : Text) (new : Value) : Value → Option Value
  | .table fs => (putIn new (pathOf key) fs).map .table
  | _ => none

end ContractCheck.Value
