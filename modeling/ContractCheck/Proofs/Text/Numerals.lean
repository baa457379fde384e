import ContractCheck.Text.Integer
import ContractCheck.Proofs.Text.Pieces

/-! # Reading numbers back

A natural number that is written in decimal digits is read back (`readInt?_ofNat`), if there are not
more digits than a reader takes.
-/
namespace ContractCheck.Text

variable {t : Text}

/-- Decimal digits, at least one. -/
structure Numeral (t : Text) : Prop where
  given : t ≠ []
  digits : ∀ c ∈ t, c.isDigit = true

theorem numeral_ofNat (n : Nat) : Numeral (ofNat n) :=
  ⟨Nat.toDigits_ne_nil, fun _ mem => Nat.isDigit_of_mem_toDigits (by decide) (by decide) mem⟩

theorem digit_bounds {c : Char} (digit : c.isDigit = true) : 48 ≤ c.toNat ∧ c.toNat ≤ 57 := by
  simp only [Char.isDigit, Bool.and_eq_true, decide_eq_true_eq] at digit
  exact ⟨digit.1, digit.2⟩

theorem digitValue?_of_digit {c : Char} (digit : c.isDigit = true) :
    digitValue? c = some (c.toNat - 48) := by
  obtain ⟨least, most⟩ := digit_bounds digit
  have ascii : c.toNat < 128 := by omega
  simp [digitValue?, ascii, least, most]

theorem isBlank_of_digit {c : Char} (digit : c.isDigit = true) : isBlank c = false := by
  obtain ⟨least, most⟩ := digit_bounds digit
  simp only [isBlank, Bool.or_eq_false_iff, Bool.and_eq_false_iff, decide_eq_false_iff_not,
    beq_eq_false_iff_ne]
  omega

theorem Numeral.not_mem (h : Numeral t) {c : Char} (other : c.isDigit = false) : c ∉ t :=
  fun mem => Bool.false_ne_true (other.symm.trans (h.digits c mem))

theorem Numeral.endsPlain (h : Numeral t) : EndsPlain t :=
  fun _ last => isBlank_of_digit (h.digits _ (List.mem_of_getLast? last))

theorem dropWhile_eq_self {p : Char → Bool} (free : ∀ c ∈ t, p c = false) : t.dropWhile p = t := by
  cases t with
  | nil => rfl
  | cons c r => exact List.dropWhile_cons_of_neg (by simp [free c List.mem_cons_self])

theorem digitsAfter?_of_digits (digits : ∀ c ∈ t, c.isDigit = true) :
    digitsAfter? t = some (t.map fun c => c.toNat - 48) := by
  induction t with
  | nil => rfl
  | cons c r ih =>
    obtain ⟨here, rest⟩ := List.forall_mem_cons.mp digits
    have plain : c ≠ '_' := by
      rintro rfl
      cases here
    simp [digitsAfter?, plain, digitValue?_of_digit here, ih rest]

theorem digits?_of_numeral (h : Numeral t) : digits? t = some (t.map fun c => c.toNat - 48) := by
  obtain ⟨c, r, rfl⟩ := List.exists_cons_of_ne_nil h.given
  obtain ⟨here, rest⟩ := List.forall_mem_cons.mp h.digits
  simp [digits?, digitValue?_of_digit here, digitsAfter?_of_digits rest]

theorem ofDigits_ofNat (n : Nat) : ofDigits ((ofNat n).map fun c => c.toNat - 48) = n := by
  rw [ofDigits, List.foldl_map]
  exact Nat.ofDigitChars_toDigits (by decide) (by decide)

theorem length_ofNat {n k : Nat} (pos : 0 < k) (small : n < Nat.pow 10 k) : (ofNat n).length ≤ k :=
  (Nat.length_toDigits_le_iff (by decide) pos).mpr small

/-- A number has no more digits than it counts. -/
theorem small_number {n k : Nat} (le : n ≤ k) : n < Nat.pow 10 k :=
  Nat.lt_of_le_of_lt le (Nat.lt_pow_self (by decide))

theorem readNat?_ofNat {n : Nat} (small : n < Nat.pow 10 maxDigits) :
    readNat? (ofNat n) = some n := by
  have short : (ofNat n).length ≤ maxDigits := length_ofNat (by decide) small
  rw [readNat?, digits?_of_numeral (numeral_ofNat n)]
  simp only [List.length_map, if_pos short, ofDigits_ofNat]

/-- A text without blanks and signs is read as a natural number. -/
theorem readInt?_unsigned (bare : ∀ c ∈ t, isPadding c = false) (minus : '-' ∉ t) (plus : '+' ∉ t) :
    readInt? t = (readNat? t).map fun n => (n : Int) := by
  have untouched : dropEndWhile isPadding (t.dropWhile isPadding) = t := by
    rw [dropWhile_eq_self bare, dropEndWhile, dropWhile_eq_self, List.reverse_reverse]
    exact fun c mem => bare c (List.mem_reverse.mp mem)
  rw [readInt?, untouched]
  unfold readSigned?
  split
  · exact absurd List.mem_cons_self minus
  · exact absurd List.mem_cons_self plus
  · rfl

theorem readInt?_ofNat {n : Nat} (small : n < Nat.pow 10 maxDigits) :
    readInt? (ofNat n) = some (n : Int) := by
  have numeral := numeral_ofNat n
  have bare : ∀ c ∈ ofNat n, isPadding c = false := fun c mem => by
    simp [isPadding, isBlank_of_digit (numeral.digits c mem)]
  rw [readInt?_unsigned bare (numeral.not_mem rfl) (numeral.not_mem rfl), readNat?_ofNat small]
  rfl

/-! ## What a reader takes is small -/

theorem digitValue?_lt {c : Char} {d : Nat} (value : digitValue? c = some d) : d < 10 := by
  unfold digitValue? at value
  dsimp only at value
  split at value
  · split at value
    · next bounds =>
      rw [← Option.some.inj value]
      omega
    · cases value
  · obtain ⟨base, found, rfl⟩ := Option.map_eq_some_iff.mp value
    have within := List.find?_some found
    rw [Bool.and_eq_true, decide_eq_true_eq, decide_eq_true_eq] at within
    omega

theorem digitsAfter?_lt {ds : List Nat} (read : digitsAfter? t = some ds) : ∀ d ∈ ds, d < 10 := by
  fun_induction digitsAfter? t generalizing ds with
  | case1 =>
    obtain rfl := Option.some.inj read
    exact List.forall_mem_nil _
  | case2 c r d value ih =>
    obtain ⟨ds, rest, rfl⟩ := Option.map_eq_some_iff.mp read
    exact List.forall_mem_cons.mpr ⟨digitValue?_lt value, ih rest⟩
  | case3 => cases read
  | case4 c r _ d value ih =>
    obtain ⟨ds, rest, rfl⟩ := Option.map_eq_some_iff.mp read
    exact List.forall_mem_cons.mpr ⟨digitValue?_lt value, ih rest⟩
  | case5 => cases read

theorem digits?_lt {ds : List Nat} (read : digits? t = some ds) : ∀ d ∈ ds, d < 10 := by
  unfold digits? at read
  split at read
  · cases read
  · split at read
    · next value =>
      obtain ⟨ds, rest, rfl⟩ := Option.map_eq_some_iff.mp read
      exact List.forall_mem_cons.mpr ⟨digitValue?_lt value, digitsAfter?_lt rest⟩
    · cases read

theorem ofDigits_lt {ds : List Nat} {k : Nat} (small : ∀ d ∈ ds, d < 10) (short : ds.length ≤ k) :
    ofDigits ds < Nat.pow 10 k := by
  suffices from_ : ∀ n, ds.foldl (fun n d => 10 * n + d) n < (n + 1) * 10 ^ ds.length by
    have least := from_ 0
    rw [Nat.zero_add, Nat.one_mul] at least
    exact Nat.lt_of_lt_of_le least (Nat.pow_le_pow_right (by decide) short)
  clear short
  induction ds with
  | nil => exact fun n => by simp
  | cons d ds ih =>
    obtain ⟨first, others⟩ := List.forall_mem_cons.mp small
    intro n
    have le : 10 * n + d + 1 ≤ (n + 1) * 10 := by omega
    calc (d :: ds).foldl (fun n d => 10 * n + d) n
        < (10 * n + d + 1) * 10 ^ ds.length := ih others (10 * n + d)
      _ ≤ (n + 1) * 10 * 10 ^ ds.length := Nat.mul_le_mul_right _ le
      _ = (n + 1) * 10 ^ (d :: ds).length := by rw [List.length_cons, Nat.pow_succ', Nat.mul_assoc]

/-- An integer that is read has at most 4300 digits. -/
theorem readInt?_small {n : Int} (read : readInt? t = some n) :
    n.natAbs < Nat.pow 10 maxDigits := by
  have natural : ∀ {t : Text} {n : Nat}, readNat? t = some n → n < Nat.pow 10 maxDigits := by
    intro t n read
    unfold readNat? at read
    split at read
    · next ds digits =>
      split at read
      · next short =>
        rw [← Option.some.inj read]
        exact ofDigits_lt (digits?_lt digits) short
      · cases read
    · cases read
  have whole : ∀ {t : Text} {n : Int}, (readNat? t).map (fun n => (n : Int)) = some n →
      n.natAbs < Nat.pow 10 maxDigits := by
    intro t n read
    obtain ⟨m, digits, rfl⟩ := Option.map_eq_some_iff.mp read
    obtain ⟨k, digits, same⟩ := Option.bind_eq_some_iff.mp digits
    rw [← Option.some.inj same]
    exact natural digits
  unfold readInt? readSigned? at read
  split at read
  · obtain ⟨m, digits, rfl⟩ := Option.map_eq_some_iff.mp read
    rw [Int.natAbs_neg]
    exact whole (by rw [digits]; rfl)
  · exact whole read
  · exact whole read

end ContractCheck.Text
