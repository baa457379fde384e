import ContractCheck.Value.Basic
import ContractCheck.Text.Quoted
import ContractCheck.Number.Shortest

/-! # Values in messages

How messages show a value: texts between quotes, lists in brackets, tables in braces with their
fields in order, and `None`, `True` and `False` for the absent value and the truth values.
-/
namespace ContractCheck.Value

/-- The key of a field as messages show it. -/
def displayKey (key : Text) : Value → Text
  | .misnamed s _ => s.points.quote
  | _ => Text.quote key

mutual
/-- The value as messages show it. -/
def display : Value → Text
  | .null => "None".toList
  | .bool b => if b then "True".toList else "False".toList
  | .int n => Text.ofInt n
  | .float x => x.text
  | .text t => Text.quote t
  | .broken s => s.points.quote
  | .moment m => m.shown
  | .list xs => '[' :: displayItems xs ++ [']']
  | .table fs => '\x7b' :: displayFields fs ++ ['\x7d']
  | .misnamed _ v => display v

/-- The items of a list, separated by commas. -/
def displayItems : List Value → Text
  | [] => []
  | [x] => display x
  | x :: y :: r => display x ++ ", ".toList ++ displayItems (y :: r)

/-- The fields of a table, separated by commas. -/
def displayFields : List (Text × Value) → Text
  | [] => []
  | [(k, v)] => displayKey k v ++ ": ".toList ++ display v
  | (k, v) :: f :: r =>
    displayKey k v ++ ": ".toList ++ display v ++ ", ".toList ++ displayFields (f :: r)
end

/-- The value as a string: a string as itself, every other value as plain output shows it. -/
def points : Value → Points
  | .text t => .ofText t
  | .broken s => s.points
  | .moment m => .ofText m.text
  | .misnamed _ v => v.points
  | v => .ofText v.display

/-- The value as plain output shows it: a text as itself, every other value as in messages. -/
def plain (v : Value) : Text := v.points.shown

@[simp] theorem plain_text (t : Text) : plain (.text t) = t := Points.shown_ofText t

end ContractCheck.Value
