import ContractCheck.Text.Utf8
import Mathlib.Data.List.Basic

/-! # Reading what was encoded

The bytes of a text are read back as the text: the first byte of a character says how many follow,
and each of these adds six bits to what was read before.
-/
namespace ContractCheck.Utf8

variable {n : Nat} {r : Bytes} {p : Pending}

theorem toNat_ofNat (small : n < 256) : (UInt8.ofNat n).toNat = n := by
  rw [UInt8.toNat_ofNat']
  exact Nat.mod_eq_of_lt small

/-! ## First bytes -/

theorem first_one (low : n < 0x80) : first (UInt8.ofNat n) = ([some (Char.ofNat n)], .none) := by
  unfold first
  dsimp only
  rw [toNat_ofNat (by omega), if_pos low]

theorem first_two (least : 0xc2 ≤ n) (most : n ≤ 0xdf) :
    first (UInt8.ofNat n) = ([], { need := 1, code := n - 0xc0 }) := by
  unfold first
  dsimp only
  rw [toNat_ofNat (by omega), if_neg (by omega), if_pos ⟨least, most⟩]

/-- Of three bytes the second one is bounded further, so that the shortest form counts and no
surrogate does. -/
theorem first_three (least : 0xe0 ≤ n) (most : n ≤ 0xef) :
    ∃ low high, first (UInt8.ofNat n) = ([], { need := 2, low, high, code := n - 0xe0 }) ∧
      low ≤ (if n = 0xe0 then 0xa0 else 0x80) ∧ (if n = 0xed then 0x9f else 0xbf) ≤ high := by
  unfold first
  dsimp only
  rw [toNat_ofNat (by omega), if_neg (by omega), if_neg (by omega)]
  by_cases lowest : n = 0xe0
  · subst lowest
    exact ⟨0xa0, 0xbf, rfl, by decide, by decide⟩
  · by_cases high : n = 0xed
    · subst high
      exact ⟨0x80, 0x9f, rfl, by decide, by decide⟩
    · rw [if_neg lowest, if_neg high, if_pos (by omega), if_neg lowest, if_neg high]
      exact ⟨0x80, 0xbf, rfl, Nat.le_refl _, Nat.le_refl _⟩

theorem first_four (least : 0xf0 ≤ n) (most : n ≤ 0xf4) :
    ∃ low high, first (UInt8.ofNat n) = ([], { need := 3, low, high, code := n - 0xf0 }) ∧
      low ≤ (if n = 0xf0 then 0x90 else 0x80) ∧ (if n = 0xf4 then 0x8f else 0xbf) ≤ high := by
  unfold first
  dsimp only
  rw [toNat_ofNat (by omega), if_neg (by omega), if_neg (by omega), if_neg (by omega),
    if_neg (by omega),
    if_neg (by omega)]
  by_cases lowest : n = 0xf0
  · subst lowest
    exact ⟨0x90, 0xbf, rfl, by decide, by decide⟩
  · by_cases high : n = 0xf4
    · subst high
      exact ⟨0x80, 0x8f, rfl, by decide, by decide⟩
    · rw [if_neg lowest, if_neg high, if_pos (by omega), if_neg lowest, if_neg high]
      exact ⟨0x80, 0xbf, rfl, Nat.le_refl _, Nat.le_refl _⟩

/-! ## Bytes that follow -/

theorem decodeFrom_first (q : Pending) (out : List (Option Char))
    (starts : first (UInt8.ofNat n) = (out, q)) :
    decodeFrom .none (UInt8.ofNat n :: r) = out ++ decodeFrom q r := by
  rw [decodeFrom, if_pos (show Pending.none.need = 0 from rfl), starts]

theorem decodeFrom_next {k : Nat} (small : n < 64) (waits : p.need = k + 2)
    (least : p.low ≤ n + 128) (most : n + 128 ≤ p.high) :
    decodeFrom p (UInt8.ofNat (n + 128) :: r) =
      decodeFrom { need := k + 1, code := 64 * p.code + n } r := by
  rw [decodeFrom, toNat_ofNat (by omega), waits, if_neg (by omega), if_pos ⟨least, most⟩,
    if_neg (by omega),
    Nat.add_sub_cancel]
  rfl

theorem decodeFrom_last (small : n < 64) (waits : p.need = 1) (least : p.low ≤ n + 128)
    (most : n + 128 ≤ p.high) :
    decodeFrom p (UInt8.ofNat (n + 128) :: r) =
      some (Char.ofNat (64 * p.code + n)) :: decodeFrom .none r := by
  rw [decodeFrom, toNat_ofNat (by omega), waits, if_neg (by omega),
    if_pos ⟨least, most⟩, if_pos rfl,
    Nat.add_sub_cancel]

/-! ## Characters and texts -/

/-- **A character is read from its bytes.** -/
theorem decodeFrom_char (c : Char) (r : Bytes) :
    decodeFrom .none (String.utf8EncodeChar c ++ r) = some c :: decodeFrom .none r := by
  have valid : c.val.toNat < 0xd800 ∨ 0xdfff < c.val.toNat ∧ c.val.toNat < 0x110000 := c.valid
  have char : Char.ofNat c.val.toNat = c := Char.ofNat_toNat c
  unfold String.utf8EncodeChar
  dsimp only
  generalize c.val.toNat = v at valid char
  subst char
  split
  · next one => exact decodeFrom_first _ _ (first_one (by omega))
  · split
    · next one two =>
      rw [List.cons_append, decodeFrom_first _ _ (first_two (by omega) (by omega)), List.nil_append,
        List.cons_append,
        decodeFrom_last (by omega) rfl (by dsimp only; omega) (by dsimp only; omega)]
      rw [show 64 * (v / 64 % 32 + 192 - 0xc0) + v % 64 = v by omega]
      rfl
    · split
      · next one two three =>
        obtain ⟨low, high, starts, least, most⟩ :=
          @first_three (v / 4096 % 16 + 224) (by omega) (by omega)
        rw [List.cons_append, decodeFrom_first _ _ starts, List.nil_append, List.cons_append,
          decodeFrom_next (k := 0) (by omega) rfl (by dsimp only; split at least <;> omega)
            (by dsimp only; split at most <;> omega), List.cons_append,
          decodeFrom_last (by omega) rfl (by dsimp only; omega) (by dsimp only; omega)]
        rw [show 64 * (64 * (v / 4096 % 16 + 224 - 0xe0) + v / 64 % 64) + v % 64 = v by omega]
        rfl
      · next one two three =>
        obtain ⟨low, high, starts, least, most⟩ :=
          @first_four (v / 262144 % 8 + 240) (by omega) (by omega)
        rw [List.cons_append, decodeFrom_first _ _ starts, List.nil_append, List.cons_append,
          decodeFrom_next (k := 1) (by omega) rfl (by dsimp only; split at least <;> omega)
            (by dsimp only; split at most <;> omega), List.cons_append,
          decodeFrom_next (k := 0) (by omega) rfl (by dsimp only; omega) (by dsimp only; omega),
          List.cons_append,
          decodeFrom_last (by omega) rfl (by dsimp only; omega) (by dsimp only; omega)]
        rw [show 64 * (64 * (64 * (v / 262144 % 8 + 240 - 0xf0) + v / 4096 % 64) + v / 64 % 64) +
          v % 64 = v by omega]
        rfl

theorem decode_encode (t : Text) : decode (encode t) = t.map some := by
  rw [decode]
  induction t with
  | nil => rfl
  | cons c r ih => rw [encode, List.flatMap_cons, decodeFrom_char, ← encode, ih, List.map_cons]

/-- **The bytes of a text are read as the text.** -/
theorem read?_encode (t : Text) : read? (encode t) = some t := by
  rw [read?, decode_encode]
  induction t with
  | nil => rfl
  | cons c r ih =>
    rw [List.map_cons, List.mapM_cons, ih]
    rfl

end ContractCheck.Utf8
