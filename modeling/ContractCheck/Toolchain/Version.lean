import ContractCheck.Text.Integer
import ContractCheck.Text.Points

/-! # Versions

A version is ordered by the numbers at the start of its dotted parts; a part that starts with no
digit counts as zero, and a version that continues another is newer.  Sorting puts the newest first
and keeps the order of equal ones.  What an index lists need not be texts: half of a pair of
surrogates is no digit.
-/
namespace ContractCheck.Version

/-- The number at the start of a part; `none` if it has too many digits. -/
def partNumber? (part : Text) : Option Nat :=
  let ds := part.takeWhile Text.isDecimal
  if ds.isEmpty then some 0 else Text.readNat? ds

/-- The numbers that a version is ordered by. -/
def key? (version : Text) : Option (List Nat) := (Text.splitOn ['.'] version).mapM partNumber?

/-- Whether numbers are at least others, part by part; a longer list is newer than its beginning. -/
def atLeast : List Nat → List Nat → Bool
  | _, [] => true
  | [], _ :: _ => false
  | m :: ms, n :: ns => n < m || (m == n && atLeast ms ns)

/-- The versions with the newest first; `none` if one has no key. -/
def newestFirst? (versions : List Points) : Option (List Points) :=
  match versions.mapM fun v => (key? v.shown).map fun k => (k, v) with
  | none => none
  | some keyed => some ((keyed.mergeSort fun a b => atLeast a.1 b.1).map Prod.snd)

end ContractCheck.Version
