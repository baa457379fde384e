import ContractCheck.Text.Word
import ContractCheck.Proofs.Text.Numerals

/-! # Kinds of characters

A blank is neither a letter nor a digit of any script.  There are only so few blanks that each of
them can be looked up (`blank_listed`).  So digits with nothing between them are read as a number of
as many digits (`readInt?_of_decimals`).
-/
namespace ContractCheck.Text

/-- The numbers of all blanks. -/
def blankCodes : List Nat :=
  [9, 10, 11, 12, 13, 28, 29, 30, 31, 32, 0x85, 0xa0, 0x1680, 0x2000, 0x2001, 0x2002, 0x2003,
    0x2004, 0x2005, 0x2006, 0x2007,
    0x2008, 0x2009, 0x200a, 0x2028, 0x2029, 0x202f, 0x205f, 0x3000]

/-- What holds of the blanks that are listed holds of all. -/
theorem blank_listed {p : Char → Prop} (listed : ∀ n ∈ blankCodes, p (Char.ofNat n))
    {c : Char} (blank : isBlank c = true) : p c := by
  have mem : c.toNat ∈ blankCodes := by
    simp only [isBlank, Bool.or_eq_true, Bool.and_eq_true, decide_eq_true_eq, beq_iff_eq] at blank
    simp only [blankCodes, List.mem_cons, List.not_mem_nil, or_false]
    omega
  have own := listed _ mem
  rwa [Char.ofNat_toNat] at own

theorem isWord_of_blank {c : Char} (blank : isBlank c = true) : isWord c = false :=
  blank_listed (p := fun c => isWord c = false) (by decide +kernel) blank

theorem isDecimal_of_blank {c : Char} (blank : isBlank c = true) : isDecimal c = false :=
  blank_listed (p := fun c => isDecimal c = false) (by decide +kernel) blank

theorem isBlank_of_word {c : Char} (word : isWord c = true) : isBlank c = false :=
  Bool.eq_false_iff.mpr fun blank => Bool.false_ne_true ((isWord_of_blank blank).symm.trans word)

theorem isBlank_of_decimal {c : Char} (decimal : isDecimal c = true) : isBlank c = false :=
  Bool.eq_false_iff.mpr fun blank =>
    Bool.false_ne_true ((isDecimal_of_blank blank).symm.trans decimal)

/-! ## Digits -/

variable {t : Text}

/-- The values of digits of any scripts. -/
def digitValues (t : Text) : List Nat := t.filterMap digitValue?

theorem length_digitValues (decimals : ∀ c ∈ t, isDecimal c = true) :
    (digitValues t).length = t.length :=
  List.filterMap_length_eq_length.mpr decimals

theorem digitsAfter?_of_decimals (decimals : ∀ c ∈ t, isDecimal c = true) :
    digitsAfter? t = some (digitValues t) := by
  induction t with
  | nil => rfl
  | cons c r ih =>
    obtain ⟨here, rest⟩ := List.forall_mem_cons.mp decimals
    obtain ⟨d, value⟩ := Option.isSome_iff_exists.mp here
    have plain : c ≠ '_' := by
      rintro rfl
      cases here
    rw [digitValues, List.filterMap_cons_some value]
    simp [digitsAfter?, plain, value, ih rest, digitValues]

theorem digits?_of_decimals (given : t ≠ []) (decimals : ∀ c ∈ t, isDecimal c = true) :
    digits? t = some (digitValues t) := by
  obtain ⟨c, r, rfl⟩ := List.exists_cons_of_ne_nil given
  obtain ⟨here, rest⟩ := List.forall_mem_cons.mp decimals
  obtain ⟨d, value⟩ := Option.isSome_iff_exists.mp here
  rw [digitValues, List.filterMap_cons_some value]
  simp [digits?, value, digitsAfter?_of_decimals rest, digitValues]

/-- Digits of any scripts have a value, unless there are too many. -/
theorem readNat?_of_decimals (given : t ≠ []) (decimals : ∀ c ∈ t, isDecimal c = true) :
    readNat? t = if t.length ≤ maxDigits then some (ofDigits (digitValues t)) else none := by
  rw [readNat?, digits?_of_decimals given decimals, ← length_digitValues decimals]

/-- Digits of any scripts are read as a number, unless there are too many. -/
theorem readInt?_of_decimals (given : t ≠ []) (decimals : ∀ c ∈ t, isDecimal c = true) :
    (readInt? t).isSome ↔ t.length ≤ maxDigits := by
  have bare : ∀ c ∈ t, isPadding c = false := fun c mem => by
    simp [isPadding, isBlank_of_decimal (decimals c mem)]
  have unsigned {c : Char} (sign : isDecimal c = false) : c ∉ t :=
    fun mem => Bool.false_ne_true (sign.symm.trans (decimals c mem))
  rw [readInt?_unsigned bare (unsigned rfl) (unsigned rfl), readNat?_of_decimals given decimals]
  split
  · next small => exact iff_of_true rfl small
  · next large => exact iff_of_false Bool.false_ne_true large

end ContractCheck.Text
