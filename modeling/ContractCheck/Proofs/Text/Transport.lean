import ContractCheck.Text.Base64

/-! # Bytes in base64

A letter stands for the six bits that it was made of, and four letters for the 24 bits of three
bytes.  So reading letters undoes writing them (`decode?_encode`).
-/
namespace ContractCheck.Text.Base64

/-- A letter has the value that it was made of, and is no mark. -/
theorem value?_letter (n : Nat) : value? (letter n) = some (n % 64) ∧ letter n ≠ '=' := by
  have all : ∀ m : Fin 64, value? (letter m) = some m.val ∧ letter m ≠ '=' := by decide +kernel
  have same : letter (n % 64) = letter n := by rw [letter, letter, Nat.mod_mod]
  have own := all ⟨n % 64, Nat.mod_lt n (by decide)⟩
  rwa [same] at own

/-- The bytes of 24 bits are those that the bits were made of. -/
theorem bytes_of (a b c : UInt8) (count : Nat) :
    bytes count (a.toNat * 65536 + b.toNat * 256 + c.toNat) = [a, b, c].take count := by
  have first : UInt8.ofNat ((a.toNat * 65536 + b.toNat * 256 + c.toNat) / 65536) = a := by
    apply UInt8.toNat_inj.mp
    have := a.toNat_lt
    have := b.toNat_lt
    have := c.toNat_lt
    rw [UInt8.toNat_ofNat']
    omega
  have second : UInt8.ofNat ((a.toNat * 65536 + b.toNat * 256 + c.toNat) / 256) = b := by
    apply UInt8.toNat_inj.mp
    have := b.toNat_lt
    have := c.toNat_lt
    rw [UInt8.toNat_ofNat']
    omega
  have third : UInt8.ofNat (a.toNat * 65536 + b.toNat * 256 + c.toNat) = c := by
    apply UInt8.toNat_inj.mp
    have := c.toNat_lt
    rw [UInt8.toNat_ofNat']
    omega
  rw [bytes, first, second, third]

/-- **Bytes in base64 are read back.** -/
theorem decode?_encode (b : Bytes) : decode? (encode b) = some b := by
  induction b using encode.induct with
  | case1 a b c r ih =>
    have small : a.toNat * 65536 + b.toNat * 256 + c.toNat < 16777216 := by
      have := a.toNat_lt
      have := b.toNat_lt
      have := c.toNat_lt
      omega
    have whole := bytes_of a b c 3
    rw [encode]
    generalize a.toNat * 65536 + b.toNat * 256 + c.toNat = n at small whole ⊢
    have sixes : n / 262144 % 64 * 262144 + n / 4096 % 64 * 4096 + n / 64 % 64 * 64 + n % 64 =
      n := by omega
    show decode? (letter (n / 262144) :: letter (n / 4096) :: letter (n / 64) :: letter
      n :: encode r) = _
    rw [decode?.eq_4 _ _ _ _ _ (fun _ mark => absurd mark (value?_letter n).2) fun mark =>
      absurd mark (value?_letter n).2,
      (value?_letter _).1, (value?_letter _).1, (value?_letter _).1, (value?_letter _).1, ih]
    show some (bytes 3 _ ++ r) = _
    rw [sixes, whole]
    rfl
  | case2 a b =>
    have room := a.toNat_lt
    have room' := b.toNat_lt
    have part := bytes_of a b 0 2
    rw [encode]
    show decode? [letter (_ / 262144), letter (_ / 4096), letter (_ / 64), '='] = _
    rw [decode?.eq_3 _ _ _ (value?_letter _).2, (value?_letter _).1, (value?_letter _).1,
      (value?_letter _).1]
    show some (bytes 2 _) = some ([a, b, 0].take 2)
    -- The last eight bits are none.
    rw [← part]
    refine congrArg (fun n => some (bytes 2 n)) ?_
    rw [UInt8.toNat_zero]
    omega
  | case3 a =>
    have room := a.toNat_lt
    have part := bytes_of a 0 0 1
    rw [encode]
    show decode? [letter (_ / 262144), letter (_ / 4096), '=', '='] = _
    rw [decode?.eq_2, (value?_letter _).1, (value?_letter _).1]
    show some (bytes 1 _) = some ([a, 0, 0].take 1)
    rw [← part]
    refine congrArg (fun n => some (bytes 1 n)) ?_
    rw [UInt8.toNat_zero]
    omega
  | case4 => rfl

end ContractCheck.Text.Base64
