import ContractCheck.Text.Digit

/-! # Binary floating-point numbers

A number of the 64-bit binary format, kept as its bits: a sign, eleven bits of exponent and
fifty-two of fraction.  A finite number is `significand * 2 ^ exponent`; everything here is exact
arithmetic on those two, so rounding happens in one place only (`ofRatio`), to the nearest number
and to an even significand when two are equally near.
-/
namespace ContractCheck

/-- A 64-bit binary floating-point number, as its bits. -/
structure Binary64 where
  bits : Nat
deriving DecidableEq, Repr, Inhabited

namespace Binary64

/-- The bits of positive infinity. -/
def infinityBits : Nat := 0x7ff * Nat.pow 2 52

/-- Whether the sign bit is set. -/
def negative (x : Binary64) : Bool := x.bits / Nat.pow 2 63 % 2 == 1

/-- The bits without the sign. -/
def magnitude (x : Binary64) : Nat := x.bits % Nat.pow 2 63

/-- Neither an infinity nor not a number. -/
def isFinite (x : Binary64) : Bool := x.magnitude < infinityBits

/-- Not a number. -/
def isNaN (x : Binary64) : Bool := infinityBits < x.magnitude

/-- Zero of either sign. -/
def isZero (x : Binary64) : Bool := x.magnitude == 0

/-- The significand of a finite number. -/
def significand (x : Binary64) : Nat :=
  let e := x.magnitude / Nat.pow 2 52
  let f := x.magnitude % Nat.pow 2 52
  if e = 0 then f else f + Nat.pow 2 52

/-- The exponent of two that the significand of a finite number is scaled by, plus 1074. -/
def scale (x : Binary64) : Nat := x.magnitude / Nat.pow 2 52 - 1

/-- The numerator of the absolute value of a finite number. -/
def numerator (x : Binary64) : Nat := x.significand * Nat.pow 2 (x.scale - 1074)

/-- The denominator of the absolute value of a finite number. -/
def denominator (x : Binary64) : Nat := Nat.pow 2 (1074 - x.scale)

/-- Sets the sign. -/
def withSign (neg : Bool) (magnitude : Nat) : Binary64 :=
  ⟨if neg then Nat.pow 2 63 + magnitude else magnitude⟩

/-- Infinity of either sign. -/
def infinity (neg : Bool) : Binary64 := withSign neg infinityBits

/-- Not a number. -/
def nan : Binary64 := ⟨0x7ff8 * Nat.pow 2 48⟩

/-- The quotient rounded to the nearest natural number, half-way cases to the even one. -/
def roundDiv (num den : Nat) : Nat :=
  let q := num / den
  let r := num % den
  if 2 * r < den then q else if den < 2 * r then q + 1 else q + q % 2

/-- The number nearest to `num / den`, with a sign.  The denominator must not be zero. -/
def ofRatio (neg : Bool) (num den : Nat) : Binary64 :=
  if num = 0 then withSign neg 0
  else
    -- the scale at which the quotient has 53 bits, or the least scale there is
    let near := num.log2 + 1074 - den.log2 - 52
    let quotientAt (s : Nat) : Nat := num * Nat.pow 2 (1074 - s) / (den * Nat.pow 2 (s - 1074))
    let s := if near > 0 && quotientAt near < Nat.pow 2 52 then near - 1 else near
    let m := roundDiv (num * Nat.pow 2 (1074 - s)) (den * Nat.pow 2 (s - 1074))
    withSign neg (min (s * Nat.pow 2 52 + m) infinityBits)

/-- The number nearest to an integer. -/
def ofInt (n : Int) : Binary64 := ofRatio (n < 0) n.natAbs 1

/-- The number nearest to `digits * 10 ^ exponent`, with a sign. -/
def ofDecimal (neg : Bool) (digits : Nat) (exponent : Int) : Binary64 :=
  if digits = 0 then withSign neg 0
  else
    match exponent with
    | .ofNat e => if e > 400 then infinity neg else ofRatio neg (digits * Nat.pow 10 e) 1
    | .negSucc e =>
      if e > 400 + (Nat.toDigits 10 digits).length then withSign neg 0
      else ofRatio neg digits (Nat.pow 10 (e + 1))

/-- The integer part of a finite number, rounded toward zero. -/
def truncate (x : Binary64) : Int :=
  let q : Int := (x.numerator / x.denominator : Nat)
  if x.negative then -q else q

/-- A finite number without a fraction. -/
def isIntegral (x : Binary64) : Bool := x.isFinite && x.numerator % x.denominator == 0

/-- Equality of values: the two zeros are equal, and not-a-number equals nothing. -/
def agrees (x y : Binary64) : Bool :=
  !x.isNaN && !y.isNaN && (x.bits == y.bits || (x.isZero && y.isZero))

end Binary64
end ContractCheck
