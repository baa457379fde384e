import ContractCheck.Compression.Inflate

/-! # Compressed files

A compressed file is one or more members, with zero bytes between them.  A member has a header,
deflated data, and at its end the check sum and the length of what the data stands for.
-/
namespace ContractCheck.Compression

/-- One bit of a cyclic check sum. -/
def checkBit (c : Nat) : Nat := if c % 2 = 1 then (c / 2) ^^^ 0xEDB88320 else c / 2

/-- The check sum after one more byte. -/
def checkByte (c : Nat) (b : UInt8) : Nat :=
  (c / 256) ^^^ Nat.repeat checkBit 8 ((c ^^^ b.toNat) % 256)

/-- The cyclic check sum of bytes. -/
def checkSum (bs : Bytes) : Nat := (bs.foldl checkByte 0xFFFFFFFF) ^^^ 0xFFFFFFFF

/-- The number that bytes stand for, the lowest first. -/
def number (bs : Bytes) : Nat := bs.foldr (fun b n => b.toNat + 256 * n) 0

/-- Exactly the next `n` bytes. -/
def takeExactly (n : Nat) (bs : Bytes) : Except Flaw (Bytes × Bytes) :=
  if bs.length < n then .error .ended else .ok (bs.take n, bs.drop n)

/-- The rest after a text that a zero byte ends. -/
def skipText (bs : Bytes) : Bytes := (bs.dropWhile (· != 0)).drop 1

/-- The rest after a member's header. -/
def skipHeader (bs : Bytes) : Except Flaw Bytes := do
  match bs with
  | 31 :: 139 :: r =>
    let (fixed, r) ← takeExactly 8 r
    let method := fixed.getD 0 0
    let flags := (fixed.getD 1 0).toNat
    if method ≠ 8 then .error .notCompressed
    else
      let r ← if flags / 4 % 2 = 1 then do
          let (size, r) ← takeExactly 2 r
          let (_, r) ← takeExactly (number size) r
          pure r
        else pure r
      let r := if flags / 8 % 2 = 1 then skipText r else r
      let r := if flags / 16 % 2 = 1 then skipText r else r
      if flags / 2 % 2 = 1 then do
        let (_, r) ← takeExactly 2 r
        .ok r
      else .ok r
  | _ => .error .notCompressed

/-- What a member stands for, and the rest. -/
def unpackMember (bs : Bytes) : Except Flaw (Bytes × Bytes) := do
  let r ← skipHeader bs
  let (data, r) ← inflate r
  let (tail, r) ← takeExactly 8 r
  if number (tail.take 4) ≠ checkSum data then .error .notCompressed
  else if number (tail.drop 4) ≠ data.length % Nat.pow 2 32 then .error .notCompressed
  else .ok (data, r.dropWhile (· == 0))

/-- What members stand for.  The budget is the number of bytes. -/
def unpackMembers : Nat → Bytes → Except Flaw Bytes
  | _, [] => .ok []
  | 0, _ => .error .ended
  | n + 1, bs => do
    let (data, r) ← unpackMember bs
    let more ← unpackMembers n r
    .ok (data ++ more)

/-- What a compressed file stands for. -/
def unpack (bs : Bytes) : Except Flaw Bytes := unpackMembers bs.length bs

/-- Bytes as a stored block; the last one if so marked. -/
def storedBlock (last : Bool) (bs : Bytes) : Bytes :=
  let size := bs.length
  [if last then 1 else 0, UInt8.ofNat size, UInt8.ofNat (size / 256), UInt8.ofNat (65535 - size),
    UInt8.ofNat ((65535 - size) / 256)] ++ bs

/-- Bytes as stored blocks. -/
def storedBlocks : Nat → Bytes → Bytes
  | 0, bs => storedBlock true (bs.take 65535)
  | n + 1, bs =>
    if bs.length ≤ 65535 then storedBlock true bs
    else storedBlock false (bs.take 65535) ++ storedBlocks n (bs.drop 65535)

/-- A number as four bytes, the lowest first. -/
def fourBytes (n : Nat) : Bytes := (List.range 4).map fun k => UInt8.ofNat (n / Nat.pow 256 k)

/-- Bytes as a compressed file that stores them as they are. -/
def pack (bs : Bytes) : Bytes :=
  [31, 139, 8, 0, 0, 0, 0, 0, 0, 255] ++ storedBlocks bs.length bs ++ fourBytes (checkSum bs) ++
    fourBytes bs.length

end ContractCheck.Compression
