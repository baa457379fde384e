import ContractCheck.Text.Blank
import ContractCheck.Text.Digit

/-! # Reading integers

An integer is written as an optional sign and at least one decimal digit of any script, with blanks
around it; a single underscore may stand between two digits.  Numbers of more than 4300 digits are
refused, whatever their value.
-/
namespace ContractCheck.Text

/-- The most digits an integer may be written with. -/
def maxDigits : Nat := 4300

/-- The blanks allowed around an integer: every blank but the four separators of ASCII. -/
def isPadding (c : Char) : Bool := isBlank c && !(28 ≤ c.toNat && c.toNat ≤ 31)

/-- The digits that follow a first digit: each may have one underscore in front. -/
def digitsAfter? : Text → Option (List Nat)
  | [] => some []
  | '_' :: c :: r =>
    match digitValue? c with
    | some d => (digitsAfter? r).map (d :: ·)
    | none => none
  | c :: r =>
    match digitValue? c with
    | some d => (digitsAfter? r).map (d :: ·)
    | none => none

/-- The digits of an unsigned number. -/
def digits? : Text → Option (List Nat)
  | [] => none
  | c :: r =>
    match digitValue? c with
    | some d => (digitsAfter? r).map (d :: ·)
    | none => none

/-- The value of an unsigned number of at most `maxDigits` digits. -/
def readNat? (t : Text) : Option Nat :=
  match digits? t with
  | some ds => if ds.length ≤ maxDigits then some (ofDigits ds) else none
  | none => none

/-- The value of a signed number without blanks. -/
def readSigned? : Text → Option Int
  | '-' :: r => (readNat? r).map fun n => -(n : Int)
  | '+' :: r => (readNat? r).map fun n => (n : Int)
  | t => (readNat? t).map fun n => (n : Int)

/-- The value of an integer with blanks around it. -/
def readInt? (t : Text) : Option Int :=
  readSigned? (dropEndWhile isPadding (t.dropWhile isPadding))

end ContractCheck.Text
