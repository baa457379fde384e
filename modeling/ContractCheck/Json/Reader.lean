import ContractCheck.Value.Basic
import ContractCheck.Text.Integer

/-! # Reading JSON

A reader for whole JSON texts.  The last of several members with one key counts, in the place of the
first.  `NaN`, `Infinity` and `-Infinity` are read as numbers; control characters inside strings and
integers of more than 4300 digits are refused.  A text that is not JSON has no value, and nothing
more is said about why.

What is read is a string, as an encoding may let halves of surrogates pass; outside of strings there
is no place for them.  Inside they stand for themselves, and an escape may give one as well.

Every reading function takes the string from where it stands and gives back what it read and the
rest.  The recursion is bounded by the length of the string.
-/
namespace ContractCheck.Json

/-- A blank between two tokens. -/
def isSpace (c : Char) : Bool := c == ' ' || c == '\t' || c == '\n' || c == '\r'

/-- The rest after blanks. -/
def skipSpace (s : Points) : Points := s.dropWhile fun p => p.char?.any isSpace

/-- The value of a hexadecimal digit. -/
def hexValue? (c : Char) : Option Nat :=
  if '0' ≤ c ∧ c ≤ '9' then some (c.toNat - 48)
  else if 'a' ≤ c ∧ c ≤ 'f' then some (c.toNat - 87)
  else if 'A' ≤ c ∧ c ≤ 'F' then some (c.toNat - 55)
  else none

/-- The number of four hexadecimal digits at the start. -/
def readUnit? : Points → Option (Nat × Points)
  | a :: b :: c :: d :: r => do
    let w ← a.char?.bind hexValue?
    let x ← b.char?.bind hexValue?
    let y ← c.char?.bind hexValue?
    let z ← d.char?.bind hexValue?
    some (((w * 16 + x) * 16 + y) * 16 + z, r)
  | _ => none

/-- The character of a letter escape. -/
def escapeOf? (c : Char) : Option Char :=
  if c == '"' || c == '\\' || c == '/' then some c
  else if c == 'b' then some '\x08'
  else if c == 'f' then some '\x0c'
  else if c == 'n' then some '\n'
  else if c == 'r' then some '\r'
  else if c == 't' then some '\t'
  else none

/-- Whether a code point is the first of a pair of surrogates. -/
def isHigh (n : Nat) : Bool := 0xd800 ≤ n && n ≤ 0xdbff

/-- Whether a code point is the second of a pair of surrogates. -/
def isLow (n : Nat) : Bool := 0xdc00 ≤ n && n ≤ 0xdfff

/-- The character of a pair of surrogates. -/
def pair (high low : Nat) : CodePoint :=
  .char (Char.ofNat (0x10000 + (high - 0xd800) * 0x400 + (low - 0xdc00)))

/-- What a code point stands for. -/
def point (n : Nat) : CodePoint :=
  if isHigh n || isLow n then .ofSurrogate n else .char (Char.ofNat n)

/-- What a `u` escape stands for whose hexadecimal digits come next.  Two escapes for a pair of
surrogates are one character. -/
def readEscapedUnit? (s : Points) : Option (CodePoint × Points) := do
  let (n, r) ← readUnit? s
  match r with
  | .char '\\' :: .char 'u' :: r' =>
    if isHigh n then do
      let (m, r'') ← readUnit? r'
      some (if isLow m then (pair n m, r'') else (point n, r))
    else some (point n, r)
  | _ => some (point n, r)

/-- The rest of a string after its opening quote, and what follows the closing one. -/
def readStringRest? : Nat → Points → Option (Points × Points)
  | 0, _ => none
  | _ + 1, [] => none
  | _ + 1, .char '"' :: r => some ([], r)
  | fuel + 1, .char '\\' :: .char 'u' :: r => do
    let (p, r) ← readEscapedUnit? r
    let (s, r) ← readStringRest? fuel r
    some (p :: s, r)
  | fuel + 1, .char '\\' :: r => do
    let e ← r.head?
    let c ← e.char?.bind escapeOf?
    let (s, r) ← readStringRest? fuel r.tail
    some (.char c :: s, r)
  | fuel + 1, p :: r =>
    if p.code < 32 then none
    else (readStringRest? fuel r).map fun q => (p :: q.1, q.2)

/-- The ASCII digits at the start, and the rest. -/
def spanDigits (t : Text) : Text × Text := t.span Char.isDigit

/-- The value of ASCII digits. -/
def natOfDigits (ds : Text) : Nat := Text.ofDigits (ds.map fun c => c.toNat - 48)

/-- The exponent part at the start, if there is one. -/
def readExponent? : Text → Option (Int × Text)
  | e :: r =>
    if e == 'e' || e == 'E' then
      let (neg, r) := match r with
        | '-' :: r' => (true, r')
        | '+' :: r' => (false, r')
        | _ => (false, r)
      let (ds, r) := spanDigits r
      if ds.isEmpty then none
      else some (if neg then -(natOfDigits ds : Int) else natOfDigits ds, r)
    else none
  | [] => none

/-- The fraction part at the start, if there is one. -/
def readFraction? : Text → Option (Text × Text)
  | '.' :: r =>
    let (ds, r) := spanDigits r
    if ds.isEmpty then none else some (ds, r)
  | _ => none

/-- A number without its sign. -/
def readUnsigned? (neg : Bool) (t : Text) : Option (Value × Text) :=
  let (ds, r) := match t with
    | '0' :: r => (['0'], r)
    | _ => spanDigits t
  if ds.isEmpty then none
  else
    let frac := readFraction? r
    let (fs, r) := frac.getD ([], r)
    let exponent := readExponent? r
    let (e, r) := exponent.getD (0, r)
    if frac.isNone && exponent.isNone then
      if ds.length ≤ Text.maxDigits then
        some (.int (if neg then -(natOfDigits ds : Int) else natOfDigits ds), r)
      else none
    else
      some (.float (Binary64.ofDecimal neg (natOfDigits (ds ++ fs)) (e - fs.length)), r)

/-- The value of a word: a number, or one of those that stand for a value. -/
def readWord? (t : Text) : Option Value :=
  if t = "null".toList then some .null
  else if t = "true".toList then some (.bool true)
  else if t = "false".toList then some (.bool false)
  else if t = "NaN".toList then some (.float .nan)
  else if t = "Infinity".toList then some (.float (.infinity false))
  else if t = "-Infinity".toList then some (.float (.infinity true))
  else
    let read := match t with
      | '-' :: r => readUnsigned? true r
      | _ => readUnsigned? false t
    match read with
    | some (v, []) => some v
    | _ => none

/-- Whether something can stand in a word. -/
def isWordPoint (p : CodePoint) : Bool :=
  p.char?.any fun c => c.isAlphanum || c == '+' || c == '-' || c == '.'

/-- The word at the start, and the rest. -/
def readScalar? (s : Points) : Option (Value × Points) :=
  let word := s.takeWhile isWordPoint
  (readWord? (Points.shown word)).map fun v => (v, s.drop word.length)

/-- The members with another one: a value for a key that was there takes its place. -/
def putMember (key : Points) (v : Value) : List (Points × Value) → List (Points × Value)
  | [] => [(key, v)]
  | (k, w) :: r => if k = key then (k, v) :: r else (k, w) :: putMember key v r

/-- The table of members. -/
def tableOf (members : List (Points × Value)) : Value :=
  .table (members.map fun m => Value.field m.1 m.2)

mutual
/-- The value at the start of the string. -/
def readValue? : Nat → Points → Option (Value × Points)
  | 0, _ => none
  | fuel + 1, s =>
    match s with
    | .char '"' :: r => (readStringRest? (r.length + 1) r).map fun p => (.ofPoints p.1, p.2)
    | .char '[' :: r =>
      match skipSpace r with
      | .char ']' :: r' => some (.list [], r')
      | r' => (readItems? fuel r').map fun p => (.list p.1, p.2)
    | .char '\x7b' :: r =>
      match skipSpace r with
      | .char '\x7d' :: r' => some (.table [], r')
      | r' => (readMembers? fuel [] r').map fun p => (tableOf p.1, p.2)
    | _ => readScalar? s

/-- The items of an array up to its closing bracket. -/
def readItems? : Nat → Points → Option (List Value × Points)
  | 0, _ => none
  | fuel + 1, s =>
    match readValue? fuel s with
    | none => none
    | some (v, r) =>
      match skipSpace r with
      | .char ']' :: r' => some ([v], r')
      | .char ',' :: r' => (readItems? fuel (skipSpace r')).map fun p => (v :: p.1, p.2)
      | _ => none

/-- The members of an object up to its closing brace, after those read before. -/
def readMembers? : Nat → List (Points × Value) → Points → Option (List (Points × Value) × Points)
  | 0, _, _ => none
  | fuel + 1, acc, s =>
    match s with
    | .char '"' :: r =>
      match readStringRest? (r.length + 1) r with
      | none => none
      | some (k, r) =>
        match skipSpace r with
        | .char ':' :: r =>
          match readValue? fuel (skipSpace r) with
          | none => none
          | some (v, r) =>
            let acc := putMember k v acc
            match skipSpace r with
            | .char '\x7d' :: r' => some (acc, r')
            | .char ',' :: r' => readMembers? fuel acc (skipSpace r')
            | _ => none
        | _ => none
    | _ => none
end

/-- The value of a JSON string. -/
def readPoints? (s : Points) : Option Value :=
  match readValue? (s.length + 1) (skipSpace s) with
  | some (v, r) => if (skipSpace r).isEmpty then some v else none
  | none => none

/-- The value of a JSON text. -/
def read? (t : Text) : Option Value := readPoints? (.ofText t)

end ContractCheck.Json
