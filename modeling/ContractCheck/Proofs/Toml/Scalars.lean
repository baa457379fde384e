import ContractCheck.Proofs.Text.Numerals
import ContractCheck.Toml.Reader
import ContractCheck.Toml.Writer
import Mathlib.Data.List.TakeDrop

/-! # Strings, keys and integers that are read as they were written

A value that TOML can hold is written on one line, and the reader finds its end: what comes behind a
value is never something that could belong to it (`Ends`).  So a string, a key or an integer that
was written is read, and the rest stays (`readString_write`, `readKey_quoted`, `readScalar_int`).
-/
namespace ContractCheck.Toml

variable {t rest : Text} {fuel : Nat}

/-! ## What can be written -/

/-- A text without characters that TOML allows only as escapes. -/
def Clean (t : Text) : Prop := ∀ c ∈ t, isForbidden c = false

/-- A key that may stand between quotes as it is. -/
def CleanKey (k : Text) : Prop := Clean k ∧ '"' ∉ k ∧ '\\' ∉ k

instance (t : Text) : Decidable (Clean t) :=
  inferInstanceAs (Decidable (∀ c ∈ t, isForbidden c = false))

instance (k : Text) : Decidable (CleanKey k) :=
  inferInstanceAs (Decidable (Clean k ∧ '"' ∉ k ∧ '\\' ∉ k))

theorem isForbidden_of_printable {c : Char} (least : 32 ≤ c.toNat) (most : c.toNat < 127) :
    isForbidden c = false := by
  have high : (c.toNat < 32 && c != '\t') = false := by
    rw [Bool.and_eq_false_iff, decide_eq_false_iff_not]
    exact .inl (Nat.not_lt.mpr least)
  rw [isForbidden, high, Bool.false_or]
  exact beq_false_of_ne (Nat.ne_of_lt most)

/-- What may come behind a value: nothing, or a character that ends it. -/
def Ends (rest : Text) : Prop := ∀ c r, rest = c :: r → c ∈ ['\n', ' ', ',', ']']

theorem Ends.head {c : Char} {r : Text} (h : Ends (c :: r)) : c ∈ ['\n', ' ', ',', ']'] := h c r rfl

theorem Ends.cons {c : Char} (mem : c ∈ ['\n', ' ', ',', ']']) (r : Text) : Ends (c :: r) := by
  rintro c' r' ⟨⟩
  exact mem

/-! ## Strings -/

/-- A text between quotes, with its backslashes and quotes escaped. -/
def escape (t : Text) : Text := t.flatMap fun c => if c == '\\' || c == '"' then ['\\', c] else [c]

theorem writeText_eq (t : Text) : writeText t = '"' :: escape t ++ ['"'] := rfl

theorem escape_cons (c : Char) (r : Text) :
    escape (c :: r) = (if c == '\\' || c == '"' then ['\\', c] else [c]) ++ escape r :=
  List.flatMap_cons

theorem escape_of_plain (quotes : '"' ∉ t) (slashes : '\\' ∉ t) : escape t = t := by
  induction t with
  | nil => rfl
  | cons c r ih =>
    obtain ⟨quote, quotes⟩ := List.ne_and_not_mem_of_not_mem_cons quotes
    obtain ⟨slash, slashes⟩ := List.ne_and_not_mem_of_not_mem_cons slashes
    have plain : (c == '\\' || c == '"') = false := by simp [quote.symm, slash.symm]
    rw [escape_cons, plain, ih quotes slashes]
    rfl

theorem readEscape_self {c : Char} (escaped : (c == '\\' || c == '"') = true) (r : Text) :
    readEscape (c :: r) = .ok (c, r) := by
  rcases Bool.or_eq_true_iff.mp escaped with same | same
  · rw [beq_iff_eq.mp same]
    rfl
  · rw [beq_iff_eq.mp same]
    rfl

theorem readBasicRest_quote (n : Nat) (r : Text) : readBasicRest (n + 1) ('"' :: r) = .ok ([], r) :=
  rfl

theorem readBasicRest_escaped (n : Nat) {c : Char} (escaped : (c == '\\' || c == '"') = true)
    (r : Text) :
    readBasicRest (n + 1) ('\\' :: c :: r) = (readBasicRest n r).map (consText c) := by
  have slash : readBasicRest (n + 1) ('\\' :: c :: r)
      = readEscape (c :: r) >>= fun p => readBasicRest n p.2 >>= fun q => pure (consText p.1 q) :=
      rfl
  rw [slash, readEscape_self escaped]
  rfl

theorem readBasicRest_plain (n : Nat) {c : Char} (plain : (c == '\\' || c == '"') = false)
    (clean : isForbidden c = false) (r : Text) :
    readBasicRest (n + 1) (c :: r) = (readBasicRest n r).map (consText c) := by
  obtain ⟨slash, quote⟩ := Bool.or_eq_false_iff.mp plain
  rw [readBasicRest, quote, slash, clean]
  rfl

/-- **An escaped text is read up to its closing quote.** -/
theorem readBasicRest_escape (clean : Clean t) (rest : Text) (enough : (escape t).length < fuel) :
    readBasicRest fuel (escape t ++ '"' :: rest) = .ok (t, rest) := by
  induction t generalizing fuel with
  | nil =>
    obtain ⟨n, rfl⟩ := Nat.exists_eq_succ_of_ne_zero (Nat.ne_of_gt enough)
    exact readBasicRest_quote n rest
  | cons c r ih =>
    obtain ⟨own, clean⟩ := List.forall_mem_cons.mp clean
    obtain ⟨n, rfl⟩ :=
      Nat.exists_eq_succ_of_ne_zero (Nat.ne_of_gt (Nat.lt_of_le_of_lt (Nat.zero_le _) enough))
    rw [escape_cons] at enough ⊢
    have less : (escape r).length < n := by
      rw [List.length_append] at enough
      split at enough <;> simp only [List.length_cons, List.length_nil] at enough <;> omega
    cases escaped : c == '\\' || c == '"' with
    | true =>
      rw [if_pos rfl, List.cons_append, List.cons_append, List.singleton_append, List.cons_append,
        readBasicRest_escaped n escaped, ih clean less]
      rfl
    | false =>
      rw [if_neg Bool.false_ne_true, List.singleton_append, List.cons_append,
        readBasicRest_plain n escaped own,
        ih clean less]
      rfl

/-- What comes behind a text does not make its quotes three. -/
theorem not_startsWith_quotes (ends : Ends rest) :
    Text.startsWith (writeText t ++ rest) ['"', '"', '"'] = false := by
  rw [Bool.eq_false_iff]
  intro starts
  obtain ⟨r, shape⟩ := Text.startsWith_iff.mp starts
  cases t with
  | nil =>
    obtain ⟨c, s, rfl⟩ : ∃ c s, rest = c :: s := by
      cases rest with
      | nil => cases shape
      | cons c s => exact ⟨c, s, rfl⟩
    obtain rfl : '"' = c := by
      injection shape with _ shape; injection shape with _ shape; injection shape
    exact absurd ends.head (by decide)
  | cons c s =>
    rw [writeText_eq, escape_cons] at shape
    cases escaped : c == '\\' || c == '"' with
    | true =>
      rw [escaped] at shape
      injection shape with _ shape
      injection shape with same
      cases same
    | false =>
      rw [escaped] at shape
      injection shape with _ shape
      injection shape with same
      rw [← same] at escaped
      cases escaped

theorem readString_write (clean : Clean t) (ends : Ends rest) :
    readString (writeText t ++ rest) = .ok (t, rest) := by
  unfold readString
  rw [not_startsWith_quotes ends, if_neg Bool.false_ne_true]
  have single : Text.startsWith (writeText t ++ rest) ['\'', '\'', '\''] = false := rfl
  rw [single, if_neg Bool.false_ne_true]
  show readBasicRest ((escape t ++ ['"'] ++ rest).length + 1) (escape t ++ ['"'] ++ rest) = _
  rw [List.append_assoc, List.singleton_append]
  refine readBasicRest_escape clean rest ?_
  rw [List.length_append, List.length_cons]
  omega

/-! ## Keys -/

theorem readKey_of_part {k r s : Text} {c : Char} (part : readKeyPart t = .ok (k, r))
    (shape : skipSpace r = c :: s)
    (single : c ≠ '.') : readKey (fuel + 1) t = .ok ([k], c :: s) := by
  rw [readKey, part]
  dsimp only [bind, Except.bind]
  rw [shape]
  split
  · next same => exact absurd (List.cons.inj same).1 single
  · rfl

theorem readBasicRest_key {k : Text} (clean : CleanKey k) (rest : Text) :
    readBasicRest ((k ++ '"' :: rest).length + 1) (k ++ '"' :: rest) = .ok (k, rest) := by
  have enough : (escape k).length < (k ++ '"' :: rest).length + 1 := by
    rw [escape_of_plain clean.2.1 clean.2.2, List.length_append]
    omega
  have read := readBasicRest_escape clean.1 rest enough
  rwa [escape_of_plain clean.2.1 clean.2.2] at read

/-- A key between quotes is read. -/
theorem readKey_quoted {k : Text} (clean : CleanKey k) (rest : Text) :
    readKey (fuel + 1) ('"' :: (k ++ '"' :: ' ' :: '=' :: rest)) = .ok ([k], '=' :: rest) :=
  readKey_of_part (readBasicRest_key clean (' ' :: '=' :: rest)) rfl (by decide)

theorem span_append {p : Char → Bool} {k : Text} (all : ∀ c ∈ k, p c = true)
    {c : Char} (stops : p c = false) (r : Text) :
    (k ++ c :: r).span p = (k, c :: r) := by
  rw [List.span_eq_takeWhile_dropWhile, List.takeWhile_append_of_pos all,
    List.dropWhile_append_of_pos all,
    List.takeWhile_cons_of_neg (by rw [stops]; decide),
    List.dropWhile_cons_of_neg (by rw [stops]; decide),
    List.append_nil]

/-- A key without quotes is read. -/
theorem readKeyPart_bare {k : Text} (bare : ∀ c ∈ k, isBare c = true) (given : k ≠ []) {c : Char}
    (stops : isBare c = false) (r : Text) : readKeyPart (k ++ c :: r) = .ok (k, c :: r) := by
  obtain ⟨first, others, rfl⟩ := List.exists_cons_of_ne_nil given
  have own := bare first List.mem_cons_self
  unfold readKeyPart
  split
  · next same =>
    rw [(List.cons.inj same).1] at own
    cases own
  · next same =>
    rw [(List.cons.inj same).1] at own
    cases own
  · rw [span_append bare stops]
    rfl

/-! ## Integers -/

/-- A numeral has no zero in front, unless it is the zero. -/
theorem ofNat_head {n : Nat} (some : 0 < n) : ∃ c r, Text.ofNat n = c :: r ∧ c ≠ '0' := by
  induction n using Nat.strongRecOn with
  | _ n ih =>
    unfold Text.ofNat
    by_cases small : n < 10
    · rw [Nat.toDigits_of_lt_base small]
      have other : ∀ d < 10, 0 < d → d.digitChar ≠ '0' := by decide
      exact ⟨n.digitChar, [], rfl, other n small some⟩
    · rw [Nat.toDigits_of_base_le (by decide) (Nat.not_lt.mp small)]
      obtain ⟨c, r, shape, other⟩ := ih (n / 10) (Nat.div_lt_self some (by decide)) (by omega)
      rw [Text.ofNat] at shape
      rw [shape]
      exact ⟨c, _, rfl, other⟩

/-- What ends a value is no part of a number. -/
theorem Ends.no_number (ends : Ends rest) {c : Char} {r : Text} (shape : rest = c :: r) :
    c.isDigit = false ∧ c ∉ ['_', '.', 'e', 'E', 'x', 'b', 'o', '-', ':'] := by
  have all : ∀ c ∈ ['\n', ' ', ',', ']'], c.isDigit = false ∧
      c ∉ ['_', '.', 'e', 'E', 'x', 'b', 'o', '-', ':'] := by
    decide
  exact all c (ends c r shape)

theorem spanGroupedRest_digits {d : Text} (digits : ∀ c ∈ d, c.isDigit = true) (ends : Ends rest) :
    spanGrouped.spanGroupedRest Char.isDigit (d ++ rest) = (d, rest) := by
  induction d with
  | nil =>
    cases rest with
    | nil => rfl
    | cons c r =>
      obtain ⟨digit, other⟩ := ends.no_number rfl
      rw [List.nil_append, spanGrouped.spanGroupedRest]
      · rw [digit]
        rfl
      · rintro c' r' rfl rfl
        exact other (by decide)
  | cons c d ih =>
    obtain ⟨digit, digits⟩ := List.forall_mem_cons.mp digits
    rw [List.cons_append, spanGrouped.spanGroupedRest]
    · rw [digit, if_pos rfl, ih digits]
      rfl
    · rintro c' r' rfl _
      cases digit

theorem spanGrouped_numeral {d : Text} (numeral : Text.Numeral d) (ends : Ends rest) :
    spanGrouped Char.isDigit (d ++ rest) = (d, rest) := by
  obtain ⟨c, r, rfl⟩ := List.exists_cons_of_ne_nil numeral.given
  obtain ⟨digit, digits⟩ := List.forall_mem_cons.mp numeral.digits
  rw [List.cons_append, spanGrouped, digit, if_pos rfl, spanGroupedRest_digits digits ends]
  rfl

/-- The character behind the first digits of a numeral is a digit, or none that numbers, dates and
times go on with. -/
theorem numeral_next {d : Text} (numeral : Text.Numeral d) (ends : Ends rest)
    {front r : Text} {c : Char} (digits : ∀ b ∈ front, b.isDigit = true)
    (shape : d ++ rest = front ++ c :: r) :
    c.isDigit = true ∨ c ∉ ['_', '.', 'e', 'E', 'x', 'b', 'o', '-', ':'] := by
  rcases List.append_eq_append_iff.mp shape with ⟨further, rfl, behind⟩ | ⟨further, rfl, behind⟩
  · -- The numeral ends within the digits or right behind them.
    cases further with
    | nil => exact .inr (ends.no_number behind).2
    | cons b further =>
      have digit := digits b (List.mem_append_right _ List.mem_cons_self)
      rw [(ends.no_number behind).1] at digit
      cases digit
  · cases further with
    | nil => exact .inr (ends.no_number behind.symm).2
    | cons b further =>
      obtain ⟨rfl, -⟩ := List.cons.inj behind
      exact .inl (numeral.digits c (List.mem_append_right _ List.mem_cons_self))

theorem readPair?_eq_some {low high n : Nat} {r : Text}
    (read : readPair? low high t = some (n, r)) :
    ∃ a b, t = a :: b :: r ∧ a.isDigit = true ∧ b.isDigit = true := by
  unfold readPair? at read
  split at read
  · next a b r' =>
    split at read
    · next digits =>
      obtain ⟨digit, digit'⟩ := Bool.and_eq_true_iff.mp digits
      dsimp only at read
      split at read
      · obtain ⟨-, rfl⟩ := Prod.mk.inj (Option.some.inj read)
        exact ⟨a, b, rfl, digit, digit'⟩
      · cases read
    · cases read
  · cases read

theorem after?_eq_some {c : Char} {r : Text} (read : after? c t = some r) : t = c :: r := by
  unfold after? at read
  split at read
  · split at read
    · next same => rw [beq_iff_eq.mp same, Option.some.inj read]
    · cases read
  · cases read

/-- A day starts with digits and a hyphen. -/
theorem readDay?_none (other : ∀ front r, t = front ++ '-' :: r →
    (∀ b ∈ front, b.isDigit = true) → front ≠ [] → False) :
    readDay? t = none := by
  unfold readDay?
  refine Option.bind_eq_none_iff.mpr ?_
  rintro ⟨m, r⟩ first
  refine Option.bind_eq_none_iff.mpr ?_
  rintro ⟨n, r'⟩ second
  refine Option.bind_eq_none_iff.mpr ?_
  intro r'' hyphen
  obtain ⟨a, b, rfl, one, two⟩ := readPair?_eq_some first
  obtain ⟨c, d, rfl, three, four⟩ := readPair?_eq_some second
  obtain rfl := after?_eq_some hyphen
  exact (other [a, b, c, d] r'' rfl (by simp [one, two, three, four]) (List.cons_ne_nil _ _)).elim

/-- A time of day starts with digits and a colon. -/
theorem readTime?_none (other : ∀ front r, t = front ++ ':' :: r →
    (∀ b ∈ front, b.isDigit = true) → front ≠ [] → False) :
    readTime? t = none := by
  unfold readTime?
  refine Option.bind_eq_none_iff.mpr ?_
  rintro ⟨m, r⟩ first
  refine Option.bind_eq_none_iff.mpr ?_
  intro r' colon
  obtain ⟨a, b, rfl, one, two⟩ := readPair?_eq_some first
  obtain rfl := after?_eq_some colon
  exact (other [a, b] r' rfl (by simp [one, two]) (List.cons_ne_nil _ _)).elim

/-- A number with a base starts with a zero and a letter. -/
theorem readBased?_none (other : ∀ c r, t = '0' :: c :: r → c ∉ ['x', 'b', 'o']) :
    readBased? t = none := by
  unfold readBased?
  dsimp only
  split
  · exact absurd (by decide) (other 'x' _ rfl)
  · exact absurd (by decide) (other 'b' _ rfl)
  · exact absurd (by decide) (other 'o' _ rfl)
  · rfl

theorem wholeDigits_ofNat (n : Nat) (ends : Ends rest) :
    wholeDigits (Text.ofNat n ++ rest) = (Text.ofNat n, rest) := by
  by_cases zero : n = 0
  · subst zero
    rfl
  · obtain ⟨c, r, head, other⟩ := ofNat_head (Nat.pos_of_ne_zero zero)
    rw [← spanGrouped_numeral (Text.numeral_ofNat n) ends, head]
    unfold wholeDigits
    split
    · next same => exact absurd (List.cons.inj same).1 other
    · rfl

theorem fraction?_none (ends : Ends rest) : fraction? rest = none := by
  unfold fraction?
  split
  · exact absurd (ends.no_number rfl).2 (by decide)
  · rfl

theorem exponent?_none (ends : Ends rest) : exponent? rest = none := by
  cases rest with
  | nil => rfl
  | cons c r =>
    have other := (ends.no_number rfl).2
    have plain : (c == 'e' || c == 'E') = false := by
      rw [Bool.or_eq_false_iff, beq_eq_false_iff_ne, beq_eq_false_iff_ne]
      exact ⟨fun same => other (by rw [same]; decide), fun same => other (by rw [same]; decide)⟩
    rw [exponent?, plain, if_neg Bool.false_ne_true]

/-- **The digits of a number that is written are read as this number**, with its sign. -/
theorem readDecimal?_write {n : Nat} {neg : Bool} (sign : readSign t = (neg, Text.ofNat n ++ rest))
    (ends : Ends rest) (small : n < Nat.pow 10 Text.maxDigits) :
    readDecimal? t = some (.ok (.int (if neg then -(n : Int) else n)), rest) := by
  have given : (Text.ofNat n).isEmpty = false := by
    rw [Bool.eq_false_iff]
    exact fun none => (Text.numeral_ofNat n).given (List.isEmpty_iff.mp none)
  have short : (Text.ofNat n).length ≤ Text.maxDigits := Text.length_ofNat (by decide) small
  have value : Json.natOfDigits (Text.ofNat n) = n := Text.ofDigits_ofNat n
  simp only [readDecimal?, sign, wholeDigits_ofNat n ends, given, fraction?_none ends,
    exponent?_none ends, value,
    Option.getD_none, Option.isNone_none, Bool.and_self, if_true, if_pos short,
    Bool.false_eq_true, if_false]

/-- **An integer is read as it was written.** -/
theorem readScalar_int {n : Int} (small : n.natAbs < Nat.pow 10 Text.maxDigits) (ends : Ends rest) :
    readScalar (Text.ofInt n ++ rest) = .ok (.int n, rest) := by
  -- Neither a date or a time starts here, nor a number with a base.
  suffices decimal : readDecimal? (Text.ofInt n ++ rest) = some (.ok (.int n), rest) ∧
      (∀ front r c, Text.ofInt n ++ rest = front ++ c :: r → (∀ b ∈ front, b.isDigit = true) →
        front ≠ [] →
        c ∉ ['-', ':', 'x', 'b', 'o']) by
    obtain ⟨decimal, other⟩ := decimal
    have undated : readDay? (Text.ofInt n ++ rest) = none :=
      readDay?_none fun front r shape digits some =>
      other front r '-' shape digits some (by decide)
    have untimed : readTime? (Text.ofInt n ++ rest) = none :=
      readTime?_none fun front r shape digits some =>
      other front r ':' shape digits some (by decide)
    have timeless : readMoment? (Text.ofInt n ++ rest) = none := by
      rw [readMoment?, undated, untimed]; rfl
    have based : readBased? (Text.ofInt n ++ rest) = none := readBased?_none fun c r shape => by
      have free := other ['0'] r c shape (by decide) (List.cons_ne_nil _ _)
      exact fun mem => free (List.mem_cons_of_mem _ (List.mem_cons_of_mem _ mem))
    rw [readScalar, timeless, based, decimal]
    rfl
  cases n with
  | ofNat n =>
    have numeral := Text.numeral_ofNat n
    refine ⟨@readDecimal?_write _ _ n false ?_ ends small, fun front r c shape digits _ mem => ?_⟩
    · obtain ⟨c, d, head⟩ := List.exists_cons_of_ne_nil numeral.given
      have digit := numeral.digits c (head ▸ List.mem_cons_self)
      rw [Text.ofInt, head, List.cons_append, readSign]
      · rintro r same
        rw [(List.cons.inj same).1] at digit
        cases digit
      · rintro r same
        rw [(List.cons.inj same).1] at digit
        cases digit
    · rcases numeral_next numeral ends digits shape with digit | other
      · have none : ∀ c ∈ ['-', ':', 'x', 'b', 'o'], c.isDigit = false := by decide
        rw [none c mem] at digit
        cases digit
      · have sub : ['-', ':', 'x', 'b', 'o'] ⊆ ['_', '.', 'e', 'E', 'x', 'b', 'o', '-', ':'] := by
          decide
        exact other (sub mem)
  | negSucc n =>
    refine ⟨@readDecimal?_write _ _ (n + 1) true rfl ends small,
      fun front r c shape digits some => ?_⟩
    obtain ⟨b, front, rfl⟩ := List.exists_cons_of_ne_nil some
    have digit := digits b List.mem_cons_self
    rw [← (List.cons.inj shape).1] at digit
    cases digit

end ContractCheck.Toml
