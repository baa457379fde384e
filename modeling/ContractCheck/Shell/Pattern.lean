import ContractCheck.Text.Basic

/-! # Patterns

A pattern is a list of characters, each of which stands for itself or may mean more: an asterisk any
text, a question mark any character, and brackets one of several characters.
-/
namespace ContractCheck.Shell

/-- Characters, each with whether it only stands for itself. -/
abbrev Pattern := List (Char × Bool)

namespace Pattern

/-- The pattern that stands for a text only. -/
def literal (t : Text) : Pattern := t.map fun c => (c, true)

/-- The pattern in which every character may mean more. -/
def loose (t : Text) : Pattern := t.map fun c => (c, false)

/-- The characters of a pattern. -/
def text (p : Pattern) : Text := p.map Prod.fst

/-- Whether a character of the pattern means more than itself. -/
def isOpen (p : Pattern) : Bool := p.any fun c => !c.2 && (c.1 == '*' || c.1 == '?' || c.1 == '[')

/-- The members of a bracket up to its end, and what follows it. -/
def bracket : Pattern → Option (Pattern × Pattern)
  | [] => none
  | (']', false) :: r => some ([], r)
  | c :: r => (bracket r).map fun p => (c :: p.1, p.2)

/-- Whether a character is among the members of a bracket, which may be ranges. -/
def isMember (c : Char) : Pattern → Bool
  | a :: ('-', false) :: b :: r => (decide (a.1 ≤ c) && decide (c ≤ b.1)) || isMember c r
  | a :: r => a.1 == c || isMember c r
  | [] => false

/-- Whether a bracket takes a character; one that begins with `!` takes all others. -/
def takes (c : Char) : Pattern → Bool
  | ('!', false) :: r => !isMember c r
  | r => isMember c r

/-- Whether a pattern fits the whole of a text; the budget is the sum of both lengths. -/
def fits : Nat → Pattern → Text → Bool
  | 0, p, t => p.isEmpty && t.isEmpty
  | n + 1, p, t =>
    match p, t with
    | [], t => t.isEmpty
    | ('*', false) :: q, [] => fits n q []
    | ('*', false) :: q, c :: r => fits n q (c :: r) || fits n (('*', false) :: q) r
    | ('?', false) :: q, _ :: r => fits n q r
    | ('[', false) :: q, c :: r =>
      match bracket q with
      | some (members, q') => takes c members && fits n q' r
      | none => c == '[' && fits n q r
    | (a, _) :: q, c :: r => a == c && fits n q r
    | _ :: _, [] => false

/-- Whether a pattern fits a text. -/
def isMatch (p : Pattern) (t : Text) : Bool := fits (p.length + t.length + 1) p t

/-- The text without the shortest, or longest, end that fits. -/
def dropEnd (p : Pattern) (longest : Bool) (t : Text) : Text :=
  let cuts := List.range (t.length + 1)
  let order := if longest then cuts else cuts.reverse
  match order.find? fun k => p.isMatch (t.drop k) with
  | some k => t.take k
  | none => t

/-- The text without the shortest, or longest, start that fits. -/
def dropStart (p : Pattern) (longest : Bool) (t : Text) : Text :=
  let cuts := List.range (t.length + 1)
  let order := if longest then cuts.reverse else cuts
  match order.find? fun k => p.isMatch (t.take k) with
  | some k => t.drop k
  | none => t

end Pattern
end ContractCheck.Shell
