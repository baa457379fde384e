import ContractCheck.Text.Basic

/-! # Lines

Two readings of line breaks.  `unifyBreaks` is the reading of text files: a carriage return, with or
without a line feed after it, becomes a line feed.  `lines` is the reading of reports: ten
characters end a line, a carriage return and a line feed after it count once, and nothing follows a
break at the very end.
-/
namespace ContractCheck.Text

/-- A character that ends a line of a report. -/
def isBreak (c : Char) : Bool :=
  let n := c.toNat
  (10 ≤ n && n ≤ 13) || (28 ≤ n && n ≤ 30) || n == 0x85 || n == 0x2028 || n == 0x2029

/-- The text with every kind of line end made a line feed. -/
def unifyBreaks : Text → Text
  | [] => []
  | '\r' :: '\n' :: r => '\n' :: unifyBreaks r
  | c :: r => (if c = '\r' then '\n' else c) :: unifyBreaks r

/-- The lines of a report, without their breaks. -/
def lines : Text → List Text
  | [] => []
  | '\r' :: '\n' :: r => [] :: lines r
  | c :: r => if isBreak c then [] :: lines r else consFirst c (lines r)

end ContractCheck.Text
