import ContractCheck.Text.Basic

/-! # Bytes and UTF-8

Files, archives and the output of tools are bytes.  Decoding walks over the bytes once, keeping the
part of a character it has seen; bytes that cannot go on make one flaw for the longest part that
could have become a character.  A strict reading refuses a text with flaws, a lenient one puts the
replacement character for each.
-/
namespace ContractCheck

/-- A sequence of bytes. -/
abbrev Bytes := List UInt8

namespace Utf8

/-- The part of a character that has been read: how many bytes are still to come, the bounds of the
next one, and the bits so far.  Nothing is pending when no byte is to come. -/
structure Pending where
  need : Nat
  low : Nat := 0x80
  high : Nat := 0xbf
  code : Nat := 0

/-- Nothing has been read of the next character. -/
def Pending.none : Pending := { need := 0 }

/-- What a first byte does: it is a character of its own, a flaw, or starts a longer character. -/
def first (b : UInt8) : List (Option Char) × Pending :=
  let n := b.toNat
  if n < 0x80 then ([some (Char.ofNat n)], .none)
  else if 0xc2 ≤ n ∧ n ≤ 0xdf then ([], { need := 1, code := n - 0xc0 })
  else if n = 0xe0 then ([], { need := 2, low := 0xa0, code := 0 })
  else if n = 0xed then ([], { need := 2, high := 0x9f, code := 13 })
  else if 0xe1 ≤ n ∧ n ≤ 0xef then ([], { need := 2, code := n - 0xe0 })
  else if n = 0xf0 then ([], { need := 3, low := 0x90, code := 0 })
  else if n = 0xf4 then ([], { need := 3, high := 0x8f, code := 4 })
  else if 0xf1 ≤ n ∧ n ≤ 0xf3 then ([], { need := 3, code := n - 0xf0 })
  else ([Option.none], .none)

/-- The characters of the bytes, `none` for each flaw, with `p` read before. -/
def decodeFrom : Pending → Bytes → List (Option Char)
  | p, [] => if p.need = 0 then [] else [Option.none]
  | p, b :: r =>
    if p.need = 0 then
      let (out, q) := first b
      out ++ decodeFrom q r
    else if p.low ≤ b.toNat ∧ b.toNat ≤ p.high then
      let code := 64 * p.code + (b.toNat - 0x80)
      if p.need = 1 then some (Char.ofNat code) :: decodeFrom .none r
      else decodeFrom { need := p.need - 1, code := code } r
    else
      let (out, q) := first b
      Option.none :: out ++ decodeFrom q r

/-- The characters of the bytes, `none` for each flaw. -/
def decode (bs : Bytes) : List (Option Char) := decodeFrom .none bs

/-- The text of the bytes, if they hold no flaw. -/
def read? (bs : Bytes) : Option Text := (decode bs).mapM id

/-- The text of the bytes, with the replacement character for each flaw. -/
def readLenient (bs : Bytes) : Text := (decode bs).map fun c => c.getD '\ufffd'

/-- The bytes of a text. -/
def encode (t : Text) : Bytes := t.flatMap String.utf8EncodeChar

end Utf8
end ContractCheck
