import ContractCheck.Text.Basic

/-! # Blank characters

The characters that count as blank space: the ASCII spaces, the four separators `U+001C` to
`U+001F`, the next-line control, and the spaces and line separators of Unicode.  A zero-width space
and a byte-order mark are not blank.
-/
namespace ContractCheck.Text

/-- A character that counts as blank space. -/
def isBlank (c : Char) : Bool :=
  let n := c.toNat
  (9 ≤ n && n ≤ 13) || (28 ≤ n && n ≤ 32) || n == 0x85 || n == 0xa0 || n == 0x1680 ||
    (0x2000 ≤ n && n ≤ 0x200a) || n == 0x2028 || n == 0x2029 || n == 0x202f || n == 0x205f ||
    n == 0x3000

/-- The text without the blanks at its start. -/
def trimStart (t : Text) : Text := t.dropWhile isBlank

/-- The text without the blanks at its end. -/
def trimEnd (t : Text) : Text := dropEndWhile isBlank t

/-- The text without the blanks at either end. -/
def trim (t : Text) : Text := trimEnd (trimStart t)

end ContractCheck.Text
