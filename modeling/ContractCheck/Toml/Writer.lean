import ContractCheck.Value.Display
import ContractCheck.Text.Integer

/-! # Writing TOML

Values are written on one line, tables as inline tables with quoted keys.  Inside a string only the
backslash and the double quote are escaped.  A string that is no text is written as it shows; a file
with one is given up when its bytes are asked for.
-/
namespace ContractCheck.Toml

/-- A text as a TOML string. -/
def writeText (t : Text) : Text :=
  '"' :: t.flatMap (fun c => if c == '\\' || c == '"' then ['\\', c] else [c]) ++ ['"']

mutual
/-- A value as TOML. -/
def writeValue : Value → Text
  | .bool b => if b then "true".toList else "false".toList
  | .text t => writeText t
  | .broken s => writeText s.points.shown
  | .moment m => m.text
  | .list xs => '[' :: writeItems xs ++ [']']
  | .table [] => "\x7b\x7d".toList
  | .table (f :: fs) => "\x7b ".toList ++ writeFields (f :: fs) ++ " \x7d".toList
  | .null => Value.display .null
  | .int n => Text.ofInt n
  | .float x => x.text
  | .misnamed _ v => writeValue v

/-- The items of an array. -/
def writeItems : List Value → Text
  | [] => []
  | [x] => writeValue x
  | x :: y :: r => writeValue x ++ ", ".toList ++ writeItems (y :: r)

/-- The entries of an inline table. -/
def writeFields : List (Text × Value) → Text
  | [] => []
  | [(k, v)] => '"' :: k ++ "\" = ".toList ++ writeValue v
  | (k, v) :: f :: r =>
    '"' :: k ++ "\" = ".toList ++ writeValue v ++ ", ".toList ++ writeFields (f :: r)
end

end ContractCheck.Toml
