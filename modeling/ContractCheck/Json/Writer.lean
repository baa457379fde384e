import ContractCheck.Value.Basic
import ContractCheck.Text.Quoted
import ContractCheck.Number.Shortest

/-! # Writing JSON

Rule files are written in JSON on one line, with a blank after each comma and colon.  Only printable
ASCII characters stand for themselves; every other one is escaped by its UTF-16 units, and so is
half of a pair of surrogates.  JSON has no days and times, so a value with one is not written.
-/
namespace ContractCheck.Json

/-- The escape of one UTF-16 unit. -/
def escapeUnit (n : Nat) : Text := '\\' :: 'u' :: Text.hex 4 n

/-- A character inside a JSON string. -/
def writeChar (c : Char) : Text :=
  if c == '"' then ['\\', '"']
  else if c == '\\' then ['\\', '\\']
  else if c == '\n' then ['\\', 'n']
  else if c == '\r' then ['\\', 'r']
  else if c == '\t' then ['\\', 't']
  else if c.toNat == 12 then ['\\', 'f']
  else if c.toNat == 8 then ['\\', 'b']
  else if 32 ≤ c.toNat && c.toNat < 127 then [c]
  else if c.toNat < 0x10000 then escapeUnit c.toNat
  else
    let n := c.toNat - 0x10000
    escapeUnit (0xd800 + n / 0x400) ++ escapeUnit (0xdc00 + n % 0x400)

/-- A text as a JSON string. -/
def writeText (t : Text) : Text := '"' :: t.flatMap writeChar ++ ['"']

/-- A string that is no text as a JSON string. -/
def writePoints (s : Points) : Text :=
  '"' :: s.flatMap (fun
    | .char c => writeChar c
    | .half n => escapeUnit (0xd800 + n)) ++ ['"']

/-- The key of a member. -/
def writeKey (key : Text) : Value → Text
  | .misnamed s _ => writePoints s.points
  | _ => writeText key

/-- A number as JSON; the values that are no numbers have words. -/
def writeFloat (x : Binary64) : Text :=
  if x.isNaN then "NaN".toList
  else if !x.isFinite then (if x.negative then "-Infinity".toList else "Infinity".toList)
  else x.text

mutual
/-- A value as JSON. -/
def write : Value → Text
  | .null => "null".toList
  | .bool b => if b then "true".toList else "false".toList
  | .int n => Text.ofInt n
  | .float x => writeFloat x
  | .text t => writeText t
  | .broken s => writePoints s.points
  | .moment m => writeText m.text
  | .list xs => '[' :: writeItems xs ++ [']']
  | .table fs => '\x7b' :: writeFields fs ++ ['\x7d']
  | .misnamed _ v => write v

/-- The items of an array. -/
def writeItems : List Value → Text
  | [] => []
  | [x] => write x
  | x :: y :: r => write x ++ ", ".toList ++ writeItems (y :: r)

/-- The members of an object. -/
def writeFields : List (Text × Value) → Text
  | [] => []
  | [(k, v)] => writeKey k v ++ ": ".toList ++ write v
  | (k, v) :: f :: r =>
    writeKey k v ++ ": ".toList ++ write v ++ ", ".toList ++ writeFields (f :: r)
end

/-- A value as JSON; `none` if it is or holds a day or a time, or an integer with too many digits to
be written. -/
def write? (v : Value) : Option Text :=
  if v.anywhere fun w => w.isMoment || w.isOversized then none else some (write v)

end ContractCheck.Json
