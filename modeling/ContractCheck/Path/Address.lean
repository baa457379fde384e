import ContractCheck.Path.Posix
import ContractCheck.Text.Utf8

/-! # Addresses of files

A file's address is its absolute path behind a scheme, with a percent sign and two hexadecimal
digits for every byte that is no letter, digit, slash or one of four marks.
-/
namespace ContractCheck.Path

/-- The digit of a number below sixteen, in upper case. -/
def hexDigit (n : Nat) : Char := if n < 10 then Char.ofNat (48 + n) else Char.ofNat (55 + n)

/-- Whether a byte stands for itself in an address. -/
def isPlainByte (b : UInt8) : Bool :=
  let c := Char.ofNat b.toNat
  b < 128 && (c.isAlphanum || c == '/' || c == '_' || c == '.' || c == '-' || c == '~')

/-- A byte in an address. -/
def escapeByte (b : UInt8) : Text :=
  if isPlainByte b then [Char.ofNat b.toNat]
  else ['%', hexDigit (b.toNat / 16), hexDigit (b.toNat % 16)]

/-- The address of a file. -/
def address (path : Text) : Text := "file://".toList ++ (Utf8.encode path).flatMap escapeByte

end ContractCheck.Path
