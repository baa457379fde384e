import ContractCheck.Text.Utf8

/-! # Inflating

The deflate format: blocks of bits, the lowest bit of a byte first.  A block holds bytes as they
are, or symbols in a prefix code, which is either the fixed one or described at the start of the
block.  A symbol is a byte, the end of the block, or a length that goes with a distance: that many
bytes are repeated from that far back.

A prefix code is given by the lengths of its words; words of one length are consecutive numbers in
the order of their symbols.
-/
namespace ContractCheck.Compression

/-- Why compressed data has no value. -/
inductive Flaw where
  /-- The data ends before its end was marked. -/
  | ended
  /-- The data breaks the format. -/
  | corrupt
  /-- The data is not in a compressed file's envelope, or its check sums differ. -/
  | notCompressed
deriving DecidableEq, Repr

/-- Bits, the next one first. -/
abbrev Bits := List Bool

/-- The bits of a byte, the lowest first. -/
def bitsOfByte (b : UInt8) : Bits := (List.range 8).map fun k => b.toNat / Nat.pow 2 k % 2 == 1

/-- The bits of bytes. -/
def bitsOf (bs : Bytes) : Bits := bs.flatMap bitsOfByte

/-- The number that the next bits stand for, the lowest first, and the rest. -/
def take : Nat → Bits → Except Flaw (Nat × Bits)
  | 0, bits => .ok (0, bits)
  | _ + 1, [] => .error .ended
  | n + 1, b :: r => do
    let (k, r) ← take n r
    .ok ((if b then 1 else 0) + 2 * k, r)

/-- The bits from the next byte on, when `read` bits of the whole have been read. -/
def align (whole : Nat) (bits : Bits) : Bits := bits.drop ((8 - (whole - bits.length) % 8) % 8)

/-! ## Prefix codes -/

/-- A prefix code: the lengths of the words by symbol. -/
abbrev Code := List Nat

/-- The symbols whose words have a length, in order. -/
def symbolsOf (code : Code) (length : Nat) : List Nat :=
  (code.zipIdx.filter fun e => e.1 == length).map Prod.snd

/-- The symbols by the lengths of their words. -/
abbrev Table := List (List Nat)

/-- The table of a code. -/
def tableOf (code : Code) : Table := (List.range 15).map fun k => symbolsOf code (k + 1)

/-- How many words of 15 bits the code leaves free; negative if it gives more than there are. -/
def left (code : Code) : Int :=
  (List.range 15).foldl (fun (n : Int) k => 2 * n - (code.count (k + 1) : Nat)) 1

/-- Whether a code can be used: it gives no word twice, and it leaves none free unless all its words
have one bit. -/
def isUsable (code : Code) (strict : Bool) : Bool :=
  let longest := code.foldl max 0
  longest == 0 && !strict ||
    (decide (0 ≤ left code) && (left code == 0 || (!strict && longest == 1)))

/-- The next symbol.  `word` is the number that the bits read so far stand for, and `first` the
first word of this length. -/
def symbol (word first : Nat) : Table → Bits → Except Flaw (Nat × Bits)
  | [], _ => .error .corrupt
  | _ :: _, [] => .error .ended
  | symbols :: longer, b :: r =>
    let word := 2 * word + (if b then 1 else 0)
    let first := 2 * first
    match symbols[word - first]? with
    | some s => if first ≤ word then .ok (s, r) else symbol word (first + symbols.length) longer r
    | none => symbol word (first + symbols.length) longer r

/-! ## Lengths and distances -/

/-- The least length of each length symbol and its number of further bits. -/
def lengths : List (Nat × Nat) :=
  [(3, 0), (4, 0), (5, 0), (6, 0), (7, 0), (8, 0), (9, 0), (10, 0), (11, 1), (13, 1),
   (15, 1), (17, 1), (19, 2), (23, 2), (27, 2), (31, 2), (35, 3), (43, 3), (51, 3), (59, 3),
   (67, 4), (83, 4), (99, 4), (115, 4), (131, 5), (163, 5), (195, 5), (227, 5), (258, 0)]

/-- The least distance of each distance symbol and its number of further bits. -/
def distances : List (Nat × Nat) :=
  [(1, 0), (2, 0), (3, 0), (4, 0), (5, 1), (7, 1), (9, 2), (13, 2), (17, 3), (25, 3),
   (33, 4), (49, 4), (65, 5), (97, 5), (129, 6), (193, 6), (257, 7), (385, 7), (513, 8),
   (769, 8), (1025, 9), (1537, 9), (2049, 10), (3073, 10), (4097, 11), (6145, 11), (8193, 12),
   (12289, 12), (16385, 13), (24577, 13)]

/-- The number of a symbol of one of these lists, its further bits added. -/
def extended (list : List (Nat × Nat)) (s : Nat) (bits : Bits) : Except Flaw (Nat × Bits) :=
  match list[s]? with
  | none => .error .corrupt
  | some (least, further) => do
    let (k, r) ← take further bits
    .ok (least + k, r)

/-- Bytes with `n` more that repeat what stands `distance` back. -/
def repeatBack (distance : Nat) : Nat → Array UInt8 → Array UInt8
  | 0, out => out
  | n + 1, out => repeatBack distance n (out.push (out.getD (out.size - distance) 0))

/-! ## Blocks -/

/-- The symbols of a block up to its end.  The budget is the number of bits. -/
def inflateSymbols (literal distance : Table) :
    Nat → Bits → Array UInt8 → Except Flaw (Array UInt8 × Bits)
  | 0, _, _ => .error .ended
  | n + 1, bits, out => do
    let (s, r) ← symbol 0 0 literal bits
    if s < 256 then inflateSymbols literal distance n r (out.push (UInt8.ofNat s))
    else if s = 256 then .ok (out, r)
    else
      let (length, r) ← extended lengths (s - 257) r
      let (d, r) ← symbol 0 0 distance r
      let (back, r) ← extended distances d r
      if out.size < back then .error .corrupt
      else inflateSymbols literal distance n r (repeatBack back length out)

/-- The fixed code of bytes and lengths. -/
def fixedLiteral : Code :=
  List.replicate 144 8 ++ List.replicate 112 9 ++ List.replicate 24 7 ++ List.replicate 8 8

/-- The fixed code of distances. -/
def fixedDistance : Code := List.replicate 32 5

/-- The order in which the lengths of the code for code lengths are given. -/
def lengthOrder : List Nat := [16, 17, 18, 0, 8, 7, 9, 6, 10, 5, 11, 4, 12, 3, 13, 2, 14, 1, 15]

/-- The next numbers of three bits. -/
def takeThrees : Nat → Bits → Except Flaw (List Nat × Bits)
  | 0, bits => .ok ([], bits)
  | n + 1, bits => do
    let (k, r) ← take 3 bits
    let (ks, r) ← takeThrees n r
    .ok (k :: ks, r)

/-- Code lengths until `wanted` are there; a symbol may repeat the last one or zero. -/
def takeLengths (table : Table) (wanted : Nat) :
    Nat → Bits → List Nat → Except Flaw (List Nat × Bits)
  | 0, _, _ => .error .corrupt
  | n + 1, bits, done =>
    if wanted ≤ done.length then
      if wanted = done.length then .ok (done, bits) else .error .corrupt
    else do
      let (s, r) ← symbol 0 0 table bits
      if s < 16 then takeLengths table wanted n r (done ++ [s])
      else if s = 16 then
        match done.getLast? with
        | none => .error .corrupt
        | some last =>
          let (k, r) ← take 2 r
          takeLengths table wanted n r (done ++ List.replicate (3 + k) last)
      else if s = 17 then
        let (k, r) ← take 3 r
        takeLengths table wanted n r (done ++ List.replicate (3 + k) 0)
      else
        let (k, r) ← take 7 r
        takeLengths table wanted n r (done ++ List.replicate (11 + k) 0)

/-- The two codes at the start of a block. -/
def takeCodes (bits : Bits) : Except Flaw (Code × Code × Bits) := do
  let (a, r) ← take 5 bits
  let (b, r) ← take 5 r
  let (c, r) ← take 4 r
  if 286 < a + 257 ∨ 30 < b + 1 then .error .corrupt
  else
    let (threes, r) ← takeThrees (c + 4) r
    let code := (List.range 19).map fun s =>
      match (lengthOrder.zip threes).lookup s with
      | some k => k
      | none => 0
    if !isUsable code true then .error .corrupt
    else
      let wanted := a + 257 + (b + 1)
      let (ls, r) ← takeLengths (tableOf code) wanted (wanted + 1) r []
      let literal := ls.take (a + 257)
      let distance := ls.drop (a + 257)
      if literal.getD 256 0 = 0 ∨ !isUsable literal false ∨ !isUsable distance false then
        .error .corrupt
      else .ok (literal, distance, r)

/-- The next bytes as they are. -/
def takeBytes : Nat → Bits → Array UInt8 → Except Flaw (Array UInt8 × Bits)
  | 0, bits, out => .ok (out, bits)
  | n + 1, bits, out => do
    let (k, r) ← take 8 bits
    takeBytes n r (out.push (UInt8.ofNat k))

/-- The blocks up to the last one.  `whole` is the number of bits that there were. -/
def inflateBlocks (whole : Nat) : Nat → Bits → Array UInt8 → Except Flaw (Array UInt8 × Bits)
  | 0, _, _ => .error .ended
  | n + 1, bits, out => do
    let (last, r) ← take 1 bits
    let (kind, r) ← take 2 r
    let (out, r) ←
      if kind = 0 then do
        let (size, r) ← take 16 (align whole r)
        let (inverse, r) ← take 16 r
        if size + inverse ≠ 65535 then .error .corrupt else takeBytes size r out
      else if kind = 1 then
        inflateSymbols (tableOf fixedLiteral) (tableOf fixedDistance) whole r out
      else if kind = 2 then do
        let (literal, distance, r) ← takeCodes r
        inflateSymbols (tableOf literal) (tableOf distance) whole r out
      else .error .corrupt
    if last = 1 then .ok (out, r) else inflateBlocks whole n r out

/-- The inflated bytes, and the bytes after the last block. -/
def inflate (bs : Bytes) : Except Flaw (Bytes × Bytes) := do
  let bits := bitsOf bs
  let (out, r) ← inflateBlocks bits.length bits.length bits #[]
  .ok (out.toList, bs.drop (bs.length - (align bits.length r).length / 8))

end ContractCheck.Compression
