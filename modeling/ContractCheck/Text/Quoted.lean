import ContractCheck.Text.Printable

/-! # Quoted texts

Messages show a text between quotes: single ones, or double ones when the text holds a single quote
and no double one.  The quote and the backslash are escaped, line breaks and tabs have letters, and
every other character that does not print is given by its code point in hexadecimal.
-/
namespace ContractCheck.Text

/-- A number in lower-case hexadecimal digits, at least `width` of them. -/
def hex (width n : Nat) : Text :=
  let ds := Nat.toDigits 16 n
  List.replicate (width - ds.length) '0' ++ ds

/-- A character as it stands between two quotes `q`. -/
def quoteChar (q c : Char) : Text :=
  if c == q || c == '\\' then ['\\', c]
  else if c == '\n' then ['\\', 'n']
  else if c == '\r' then ['\\', 'r']
  else if c == '\t' then ['\\', 't']
  else if isPrintable c then [c]
  else if c.toNat < 0x100 then '\\' :: 'x' :: hex 2 c.toNat
  else if c.toNat < 0x10000 then '\\' :: 'u' :: hex 4 c.toNat
  else '\\' :: 'U' :: hex 8 c.toNat

/-- The quote that a text is shown between. -/
def quoteOf (t : Text) : Char := if t.contains '\'' && !t.contains '"' then '"' else '\''

/-- The text between quotes. -/
def quote (t : Text) : Text :=
  let q := quoteOf t
  q :: t.flatMap (quoteChar q) ++ [q]

end ContractCheck.Text
