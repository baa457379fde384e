import ContractCheck.Number.Binary64

/-! # Shortest decimal text

The text of a floating-point number has the fewest significant digits that read back as the same
number, and of those the nearest.  Decimals that read back as a number form an interval around it,
which holds its ends exactly when the significand is even; if a decimal grid has a point in the
interval, then one of the two grid points around the number lies in it.

The form of the text is a separate decision (`Form`): where positional notation ends, and how an
exponent is written.
-/
namespace ContractCheck.Binary64

/-- The decimals that read back as the number, as bounds over four times its denominator. -/
structure Interval where
  low : Nat
  high : Nat
  closed : Bool

/-- The interval of a finite number that is not zero, over `4 * x.denominator`. -/
def interval (x : Binary64) : Interval :=
  let m := x.significand
  let unit := Nat.pow 2 (x.scale - 1074)
  -- below a power of two the neighbour is nearer, except at the least exponent
  let below := if m = Nat.pow 2 52 ∧ 0 < x.scale then 1 else 2
  { low := (4 * m - below) * unit, high := (4 * m + 2) * unit, closed := m % 2 == 0 }

/-- Whether the decimal `digits * 10 ^ exponent` lies in the interval. -/
def inInterval (x : Binary64) (digits : Nat) (exponent : Int) : Bool :=
  let i := x.interval
  let value := digits * Nat.pow 10 exponent.toNat * (4 * x.denominator)
  let low := i.low * Nat.pow 10 (-exponent).toNat
  let high := i.high * Nat.pow 10 (-exponent).toNat
  if i.closed then low ≤ value && value ≤ high else low < value && value < high

/-- The grid point nearest to the number with the given exponent of ten, if one reads back. -/
def candidate (x : Binary64) (exponent : Int) : Option Nat :=
  let num := x.numerator * Nat.pow 10 (-exponent).toNat
  let den := x.denominator * Nat.pow 10 exponent.toNat
  let down := num / den
  let downOk := inInterval x down exponent && down != 0
  let upOk := inInterval x (down + 1) exponent
  let rest := num % den
  match downOk, upOk with
  | true, true =>
    if 2 * rest < den then some down
    else if den < 2 * rest then some (down + 1)
    else some (if down % 2 = 0 then down else down + 1)
  | true, false => some down
  | false, true => some (down + 1)
  | false, false => none

/-- The number of digits before the point of a positive ratio; zero or less for a fraction with
zeros after the point. -/
def pointPosition (num den : Nat) : Int :=
  if den ≤ num then (Nat.toDigits 10 (num / den)).length
  else 1 - (Nat.toDigits 10 ((den + num - 1) / num - 1)).length

/-- The first grid with a point that reads back, trying ever more digits. -/
def search (x : Binary64) (position : Int) : Nat → Nat → Nat × Int
  | _, 0 => (x.numerator, 0)
  | used, left + 1 =>
    let exponent := position - (used + 1 : Nat)
    match candidate x exponent with
    | some d => (d, exponent)
    | none => search x position (used + 1) left

/-- The shortest decimal that reads back as a finite number that is not zero: its digits as one
number without zeros at the end, and the exponent of ten. -/
def shortest (x : Binary64) : Nat × Int :=
  search x (pointPosition x.numerator x.denominator) 0 17

/-- How a decimal is written: positional from `10 ^ smallest` up to below `10 ^ largest`, otherwise
with an exponent of at least `width` digits; `point` says whether a whole number gets `.0`. -/
structure Form where
  smallest : Int
  largest : Int
  width : Nat
  point : Bool

/-- The digits and the exponent without the zeros at the end of the digits. -/
def stripZeros : Nat → Nat × Int → Nat × Int
  | 0, p => p
  | fuel + 1, (d, e) => if d != 0 && d % 10 == 0 then stripZeros fuel (d / 10, e + 1) else (d, e)

/-- The text of the decimal `digits * 10 ^ exponent`. -/
def Form.write (f : Form) (digits : Nat) (exponent : Int) : Text :=
  let ds := Nat.toDigits 10 digits
  let n : Int := ds.length
  let lead := n + exponent - 1
  if f.smallest ≤ lead ∧ lead < f.largest then
    if 0 ≤ exponent then
      ds ++ List.replicate exponent.toNat '0' ++ (if f.point then ".0".toList else [])
    else if 0 ≤ lead then
      ds.take (lead + 1).toNat ++ '.' :: ds.drop (lead + 1).toNat
    else '0' :: '.' :: List.replicate (-lead - 1).toNat '0' ++ ds
  else
    let e := Text.ofNat lead.natAbs
    ds.take 1 ++ (if ds.length > 1 then '.' :: ds.drop 1 else []) ++
      'e' :: (if lead < 0 then '-' else '+') ::
      (List.replicate (f.width - e.length) '0' ++ e)

/-- Numbers are positional from `0.0001` up to below `10 ^ 16`, whole ones with `.0`, and an
exponent has at least two digits. -/
def form : Form := { smallest := -4, largest := 16, width := 2, point := true }

/-- The shortest text of a number that reads back as it. -/
def text (x : Binary64) : Text :=
  if x.isNaN then "nan".toList
  else
    (if x.negative then ['-'] else []) ++
      (if !x.isFinite then "inf".toList
       else if x.isZero then "0.0".toList
       else
        let (d, e) := x.shortest
        let (d, e) := stripZeros 20 (d, e)
        form.write d e)

end ContractCheck.Binary64
