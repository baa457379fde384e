import ContractCheck.Text.Integer
import ContractCheck.Text.Quoted

/-! # Locations in compiler output

A location line names a file, a line and a column: `--> file:line:column`, where the arrow and a
colon at the end may be missing.  The two numbers are what the last two colons cut off, so a file
reference may hold colons itself.
-/
namespace ContractCheck

/-- Why a block of compiler output is no diagnostic. -/
inductive Malformed where
  | noSeverity (header : Text)
  | noPosition (line : Text)
  | notNumeric (line : Text)
  | negative (line : Text)
deriving DecidableEq

/-- The reason in words. -/
def Malformed.message : Malformed → Text
  | .noSeverity header => "no severity in ".toList ++ Text.quote header
  | .noPosition line => "no line and column in ".toList ++ Text.quote line
  | .notNumeric line => "non-numeric position in ".toList ++ Text.quote line
  | .negative line => "negative position in ".toList ++ Text.quote line

/-- A place that compiler output names. -/
structure Location where
  file : Text
  line : Nat
  column : Nat
deriving DecidableEq

namespace Location

/-- The arrow in front of a location. -/
def arrow : Text := ['-', '-', '>']

/-- The line without its arrow, blanks, and a colon at the end. -/
def strip (line : Text) : Text :=
  let t := Text.trim line
  let t := if Text.startsWith t arrow then Text.trim (t.drop arrow.length) else t
  Text.dropTail t [':']

/-- The three parts that the last two colons separate. -/
def cut? (t : Text) : Option (Text × Text × Text) :=
  match Text.cutLast ':' t with
  | none => none
  | some (front, column) =>
    match Text.cutLast ':' front with
    | none => none
    | some (file, line) => some (file, line, column)

/-- The place that a location line names. -/
def read (text : Text) : Except Malformed Location :=
  match cut? (strip text) with
  | none => .error (.noPosition text)
  | some (file, line, column) =>
    match Text.readInt? line, Text.readInt? column with
    | some l, some c =>
      if l < 0 ∨ c < 0 then .error (.negative text)
      else .ok { file := Text.trim file, line := l.toNat, column := c.toNat }
    | _, _ => .error (.notNumeric text)

end Location
end ContractCheck
