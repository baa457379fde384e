import ContractCheck.Text.Utf8

/-! # Base64

Three bytes are written as four letters of an alphabet of 64, six bits each; one or two bytes that
are left over are filled up with zero bits and marked by equality signs.
-/
namespace ContractCheck.Text.Base64

/-- The letters by their values. -/
def alphabet : Text :=
  "ABCDEFGHIJKLMNOPQRSTUVWXYZabcdefghijklmnopqrstuvwxyz0123456789+/".toList

/-- The letter of six bits. -/
def letter (n : Nat) : Char := alphabet.getD (n % 64) 'A'

/-- The letters of the highest `count` sixes of 24 bits. -/
def letters (count n : Nat) : Text :=
  [letter (n / 262144), letter (n / 4096), letter (n / 64), letter n].take count

/-- Bytes as letters. -/
def encode : Bytes → Text
  | a :: b :: c :: r => letters 4 (a.toNat * 65536 + b.toNat * 256 + c.toNat) ++ encode r
  | [a, b] => letters 3 (a.toNat * 65536 + b.toNat * 256) ++ ['=']
  | [a] => letters 2 (a.toNat * 65536) ++ ['=', '=']
  | [] => []

/-- The value of a letter. -/
def value? (c : Char) : Option Nat :=
  let n := c.toNat
  if 'A' ≤ c ∧ c ≤ 'Z' then some (n - 65)
  else if 'a' ≤ c ∧ c ≤ 'z' then some (n - 97 + 26)
  else if '0' ≤ c ∧ c ≤ '9' then some (n - 48 + 52)
  else if c = '+' then some 62
  else if c = '/' then some 63
  else none

/-- The highest `count` bytes of 24 bits. -/
def bytes (count n : Nat) : Bytes :=
  [UInt8.ofNat (n / 65536), UInt8.ofNat (n / 256), UInt8.ofNat n].take count

/-- The bytes that letters stand for; `none` unless they come in fours with marks only at the
end. -/
def decode? : Text → Option Bytes
  | [] => some []
  | [a, b, '=', '='] => do
    let x ← value? a
    let y ← value? b
    some (bytes 1 (x * 262144 + y * 4096))
  | [a, b, c, '='] => do
    let x ← value? a
    let y ← value? b
    let z ← value? c
    some (bytes 2 (x * 262144 + y * 4096 + z * 64))
  | a :: b :: c :: d :: r => do
    let x ← value? a
    let y ← value? b
    let z ← value? c
    let w ← value? d
    let rest ← decode? r
    some (bytes 3 (x * 262144 + y * 4096 + z * 64 + w) ++ rest)
  | _ => none

end ContractCheck.Text.Base64
