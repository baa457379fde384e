import ContractCheck.Record.Checked
import ContractCheck.Text.Integer

/-! # What fields accept

Strict fields accept only values of their own type.  Lenient fields, which configuration files and
editor settings use, also accept the usual other spellings: words and numbers for truth values, and
texts and whole numbers for integers.
-/
namespace ContractCheck.Accept

variable {α : Type}

/-! ## Strict fields -/

/-- A text.  Of a string that is no text the field holds what is shown. -/
def text : Value → Checked Text
  | .text t => .valid t
  | .broken s => .valid s.points.shown
  | _ => .fail .notText

/-- A text with at least one character. -/
def nonEmpty : Value → Checked Text
  | .broken _ => .fail .notUnicode
  | v => (text v).andThen fun t => if t.isEmpty then .fail .tooShort else .valid t

/-- Null, or what a field accepts. -/
def orNull (accept : Value → Checked α) : Value → Checked (Option α)
  | .null => .valid none
  | v => (accept v).map some

/-- An integer; truth values and other numbers are none. -/
def integer : Value → Checked Int
  | .int n => .valid n
  | _ => .fail .notInteger

/-- An integer that is not negative. -/
def natural (v : Value) : Checked Nat :=
  (integer v).andThen fun n => if n < 0 then .fail .tooSmall else .valid n.toNat

/-- A truth value. -/
def boolean : Value → Checked Bool
  | .bool b => .valid b
  | _ => .fail .notBoolean

/-- A number. -/
def number : Value → Checked Binary64
  | .float x => .valid x
  | .int n => .valid (.ofInt n)
  | _ => .fail .notNumber

/-- A member of an enumeration; no plain value is one. -/
def member : Value → Checked α
  | _ => .fail .notMember

/-- A table of values. -/
def table : Value → Checked Fields
  | .table fs => .valid fs
  | _ => .fail .notTable

/-! ## Lenient fields -/

/-- The words for the truth values, in lower case. -/
def readWord? (t : Text) : Option Bool :=
  let word := String.ofList (Text.lower t)
  if ["0", "off", "f", "false", "n", "no"].contains word then some false
  else if ["1", "on", "t", "true", "y", "yes"].contains word then some true
  else none

/-- A truth value, zero or one, or one of the words. -/
def lenientBoolean : Value → Checked Bool
  | .bool b => .valid b
  | .int n =>
    if n = 0 then .valid false else if n = 1 then .valid true else .fail .unreadableBoolean
  | .float x =>
    if x.isIntegral then
      if x.truncate = 0 then .valid false
      else if x.truncate = 1 then .valid true
      else .fail .unreadableBoolean
    else .fail .notBoolean
  | .text t =>
    match readWord? t with
    | some b => .valid b
    | none => .fail .unreadableBoolean
  | .broken _ => .fail .notUnicode
  | _ => .fail .notBoolean

/-- An ASCII number with a sign, single underscores between digits, and zeros after a point. -/
def readLenientInt? (t : Text) : Option Int :=
  let t := Text.dropEndWhile Text.isPadding (t.dropWhile Text.isPadding)
  let whole := match Text.cutFirst '.' t with
    | some (front, zeros) => if zeros.all (· == '0') then front else t
    | none => t
  if whole.all (·.toNat < 128) then
    match whole with
    | '+' :: r => if r.head?.any Char.isDigit then Text.readSigned? whole else none
    | '-' :: r => if r.head?.any Char.isDigit then Text.readSigned? whole else none
    | c :: _ => if c.isDigit then Text.readSigned? whole else none
    | [] => none
  else none

/-- An integer, a truth value, a whole number, or the text of an integer. -/
def lenientInteger : Value → Checked Int
  | .int n => .valid n
  | .bool b => .valid (if b then 1 else 0)
  | .float x => if x.isIntegral then .valid x.truncate else .fail .fractional
  | .text t =>
    match readLenientInt? t with
    | some n => .valid n
    | none => .fail .unreadableInteger
  | .broken _ => .fail .notUnicode
  | _ => .fail .notInteger

/-- A lenient integer that is not negative. -/
def lenientNatural (v : Value) : Checked Nat :=
  (lenientInteger v).andThen fun n => if n < 0 then .fail .tooSmall else .valid n.toNat

end ContractCheck.Accept
