import ContractCheck.Json.Reader
import ContractCheck.Text.Utf8

/-! # JSON from bytes

A JSON text may come in one of the Unicode encodings.  A mark at its start names the encoding;
without one the zero bytes among the first four tell it, because a JSON text begins with two ASCII
characters.  In each of them half of a pair of surrogates may stand alone.
-/
namespace ContractCheck.Json

/-- The encodings of a JSON text. -/
inductive Encoding where
  | utf8
  | utf16 (highFirst : Bool)
  | utf32 (highFirst : Bool)
deriving DecidableEq, Repr

/-- The encoding of bytes, and the bytes without a mark. -/
def detect (bs : Bytes) : Encoding × Bytes :=
  match bs with
  | 0 :: 0 :: 254 :: 255 :: r => (.utf32 true, r)
  | 255 :: 254 :: 0 :: 0 :: r => (.utf32 false, r)
  | 254 :: 255 :: r => (.utf16 true, r)
  | 255 :: 254 :: r => (.utf16 false, r)
  | 239 :: 187 :: 191 :: r => (.utf8, r)
  | a :: b :: c :: d :: _ =>
    if a = 0 then (if b = 0 then .utf32 true else .utf16 true, bs)
    else if b = 0 then (if c = 0 ∧ d = 0 then .utf32 false else .utf16 false, bs)
    else (.utf8, bs)
  | [a, b] => if a = 0 then (.utf16 true, bs) else if b = 0 then (.utf16 false, bs) else (.utf8, bs)
  | _ => (.utf8, bs)

/-- Bytes as numbers of `width` bytes each; `none` if some are left over. -/
def units? (width : Nat) (highFirst : Bool) : Nat → Bytes → Option (List Nat)
  | _, [] => some []
  | 0, _ => none
  | n + 1, bs =>
    if bs.length < width then none
    else
      let one := bs.take width
      let value := (if highFirst then one else one.reverse).foldl (fun k b => 256 * k + b.toNat) 0
      (units? width highFirst n (bs.drop width)).map (value :: ·)

/-- What a number stands for, if it is a code point. -/
def point? (n : Nat) : Option CodePoint := if n < 0x110000 then some (point n) else none

/-- The string of units of 16 bits; two surrogates are one character. -/
def points16 : List Nat → Points
  | [] => []
  | [n] => [point n]
  | a :: b :: r =>
    if isHigh a && isLow b then pair a b :: points16 r else point a :: points16 (b :: r)

/-- The string of bytes. -/
def decodeBytes? (bs : Bytes) : Option Points :=
  match detect bs with
  | (.utf8, r) => Points.decodeFrom? [] r
  | (.utf16 highFirst, r) => (units? 2 highFirst r.length r).map points16
  | (.utf32 highFirst, r) => (units? 4 highFirst r.length r).bind (List.mapM point?)

/-- The value of bytes. -/
def readBytes? (bs : Bytes) : Option Value := (decodeBytes? bs).bind readPoints?

end ContractCheck.Json
