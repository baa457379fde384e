import ContractCheck.Text.Blank
import Mathlib.Data.List.Basic

/-! # Pieces of texts

What cutting, splitting and trimming do to a text whose parts are known.  A text is split at a
character one piece after the other (`splitOn_append_sep`), and it is cut where the last separator
is known to be.
-/
namespace ContractCheck.Text

theorem startsWith_iff {t lead : Text} : startsWith t lead = true ↔ lead <+: t :=
  List.isPrefixOf_iff_prefix

/-! ## Splitting at a character -/

section Splitting

variable {sep : Char}

theorem splitOn_cons_sep (sep : Char) (r : Text) :
    splitOn [sep] (sep :: r) = [] :: splitOn [sep] r := by
  simp [splitOn, splitFrom, startsWith]

theorem splitOn_cons_other {c : Char} (other : c ≠ sep) (r : Text) :
    splitOn [sep] (c :: r) = consFirst c (splitOn [sep] r) := by
  simp [splitOn, splitFrom, startsWith, other.symm]

/-- A text is split behind a separator as if it started there. -/
theorem splitOn_append (t r : Text) :
    splitOn [sep] (t ++ sep :: r) = splitOn [sep] t ++ splitOn [sep] r := by
  induction t with
  | nil => exact splitOn_cons_sep sep r
  | cons c t ih =>
    by_cases here : c = sep
    · subst here
      rw [List.cons_append, splitOn_cons_sep, splitOn_cons_sep, ih, List.cons_append]
    · obtain ⟨first, rest, split⟩ := List.exists_cons_of_ne_nil (splitOn_ne_nil [sep] t)
      rw [List.cons_append, splitOn_cons_other here, splitOn_cons_other here, ih, split]
      rfl

/-- A text without separators is one piece. -/
theorem splitOn_of_not_mem {piece : Text} (plain : sep ∉ piece) :
    splitOn [sep] piece = [piece] := by
  induction piece with
  | nil => rfl
  | cons c piece ih =>
    obtain ⟨other, plain⟩ := List.ne_and_not_mem_of_not_mem_cons plain
    rw [splitOn_cons_other other.symm, ih plain, consFirst]

/-- What stands before the first separator is the first piece. -/
theorem splitOn_append_sep {piece : Text} (plain : sep ∉ piece) (r : Text) :
    splitOn [sep] (piece ++ sep :: r) = piece :: splitOn [sep] r := by
  rw [splitOn_append, splitOn_of_not_mem plain, List.singleton_append]

/-- No piece has a separator in it. -/
theorem not_mem_of_mem_splitOn {t piece : Text} (mem : piece ∈ splitOn [sep] t) : sep ∉ piece := by
  induction t generalizing piece with
  | nil =>
    obtain rfl := List.mem_singleton.mp mem
    exact List.not_mem_nil
  | cons c r ih =>
    by_cases here : c = sep
    · subst here
      rw [splitOn_cons_sep] at mem
      rcases List.mem_cons.mp mem with rfl | mem
      · exact List.not_mem_nil
      · exact ih mem
    · rw [splitOn_cons_other here] at mem
      obtain ⟨first, rest, split⟩ := List.exists_cons_of_ne_nil (splitOn_ne_nil [sep] r)
      rw [split] at ih mem
      rcases List.mem_cons.mp mem with rfl | mem
      · exact List.not_mem_cons_of_ne_of_not_mem (Ne.symm here) (ih List.mem_cons_self)
      · exact ih (List.mem_cons_of_mem _ mem)

end Splitting

/-- A text has a last separator, or none. -/
theorem not_mem_or_last (sep : Char) (t : Text) :
    sep ∉ t ∨ ∃ before after, sep ∉ after ∧ t = before ++ sep :: after := by
  induction t with
  | nil => exact .inl List.not_mem_nil
  | cons c r ih =>
    rcases ih with none | ⟨before, after, last, rfl⟩
    · by_cases here : sep = c
      · exact .inr ⟨[], r, none, by rw [here, List.nil_append]⟩
      · exact .inl (List.not_mem_cons_of_ne_of_not_mem here none)
    · exact .inr ⟨c :: before, after, last, rfl⟩

/-! ## Cutting -/

section Cutting

variable {p : Char → Bool}

theorem cutLastWhere_eq_none {t : Text} (free : ∀ c ∈ t, p c = false) :
    cutLastWhere p t = none := by
  induction t with
  | nil => rfl
  | cons c r ih =>
    obtain ⟨here, rest⟩ := List.forall_mem_cons.mp free
    rw [cutLastWhere, ih rest]
    simp [here]

/-- A text is cut at the last character that satisfies the test. -/
theorem cutLastWhere_append {c : Char} (here : p c = true) {after : Text}
    (free : ∀ x ∈ after, p x = false)
    (before : Text) : cutLastWhere p (before ++ c :: after) = some (before, after) := by
  induction before with
  | nil =>
    rw [List.nil_append, cutLastWhere, cutLastWhere_eq_none free]
    exact if_pos here
  | cons x before ih => rw [List.cons_append, cutLastWhere, ih]

theorem cutLast_eq_none {sep : Char} {t : Text} (plain : sep ∉ t) : cutLast sep t = none :=
  cutLastWhere_eq_none fun _ mem => beq_false_of_ne fun eq => plain (eq ▸ mem)

theorem cutLast_append {sep : Char} {after : Text} (plain : sep ∉ after) (before : Text) :
    cutLast sep (before ++ sep :: after) = some (before, after) := by
  have free : ∀ x ∈ after, (x == sep) = false :=
    fun x mem => beq_false_of_ne fun eq => plain (eq ▸ mem)
  exact cutLastWhere_append (p := (· == sep)) (beq_self_eq_true sep) free before

/-- A text has a last character that satisfies the test, or none. -/
theorem free_or_last (p : Char → Bool) (t : Text) :
    (∀ c ∈ t, p c = false) ∨
      ∃ before c after, p c = true ∧ (∀ x ∈ after, p x = false) ∧ t = before ++ c :: after := by
  induction t with
  | nil => exact .inl nofun
  | cons x t ih =>
    rcases ih with free | ⟨before, c, after, here, free, rfl⟩
    · cases own : p x with
      | false => exact .inl (List.forall_mem_cons.mpr ⟨own, free⟩)
      | true => exact .inr ⟨[], x, t, own, free, rfl⟩
    · exact .inr ⟨x :: before, c, after, here, free, rfl⟩

/-- A text is cut at the first separator. -/
theorem cutFirst_append {sep : Char} {before : Text} (plain : sep ∉ before) (after : Text) :
    cutFirst sep (before ++ sep :: after) = some (before, after) := by
  induction before with
  | nil => exact if_pos rfl
  | cons c before ih =>
    obtain ⟨here, behind⟩ := not_or.mp (mt List.mem_cons.mpr plain)
    rw [List.cons_append, cutFirst, if_neg (Ne.symm here), ih behind]
    rfl

end Cutting

theorem dropTail_append (t tail : Text) : dropTail (t ++ tail) tail = t := by
  have found : endsWith (t ++ tail) tail = true := List.isSuffixOf_iff_suffix.mpr ⟨t, rfl⟩
  rw [dropTail, if_pos found, List.length_append, Nat.add_sub_cancel, List.take_left]

theorem dropTail_singleton {t : Text} {c : Char} (other : t.getLast? ≠ some c) :
    dropTail t [c] = t := by
  refine if_neg fun ends => ?_
  obtain ⟨rest, rfl⟩ := List.isSuffixOf_iff_suffix.mp ends
  exact other List.getLast?_concat

/-! ## Trimming -/

/-- What no character of a text is. -/
theorem eq_false_of_any {p : Char → Bool} {t : Text} (none : t.any p = false) :
    ∀ c ∈ t, p c = false :=
  fun c mem => Bool.eq_false_iff.mpr (List.any_eq_false.mp none c mem)

/-- Blanks only. -/
def Blanks (t : Text) : Prop := ∀ c ∈ t, isBlank c = true

theorem blanks_nil : Blanks [] := nofun

/-- A text with no blank at its end. -/
def EndsPlain (t : Text) : Prop := ∀ c, t.getLast? = some c → isBlank c = false

theorem EndsPlain.append {t : Text} (h : EndsPlain t) (given : t ≠ []) (before : Text) :
    EndsPlain (before ++ t) := by
  intro c here
  rw [List.getLast?_append_of_ne_nil before given] at here
  exact h c here

theorem endsPlain_cons {c : Char} (first : isBlank c = false) {r : Text} (h : EndsPlain r) :
    EndsPlain (c :: r) := by
  cases r with
  | nil =>
    intro x here
    obtain rfl := Option.some.inj here
    exact first
  | cons x r => exact h.append (List.cons_ne_nil x r) [c]

theorem trimStart_append {lead : Text} (blanks : Blanks lead) {c : Char} (first : isBlank c = false)
    (r : Text) : trimStart (lead ++ c :: r) = c :: r := by
  rw [trimStart, List.dropWhile_append_of_pos blanks]
  exact List.dropWhile_cons_of_neg (by simp [first])

/-- Characters at the end are dropped up to the last one that does not satisfy the test. -/
theorem dropEndWhile_append {p : Char → Bool} {t trail : Text} (all : ∀ c ∈ trail, p c = true)
    (last : ∀ c, t.getLast? = some c → p c = false) : dropEndWhile p (t ++ trail) = t := by
  have dropped : (trail.reverse ++ t.reverse).dropWhile p = t.reverse := by
    rw [List.dropWhile_append_of_pos fun c mem => all c (List.mem_reverse.mp mem)]
    cases rev : t.reverse with
    | nil => rfl
    | cons c r =>
      have here : t.getLast? = some c := by rw [← List.head?_reverse, rev, List.head?_cons]
      exact List.dropWhile_cons_of_neg (by simp [last c here])
  rw [dropEndWhile, List.reverse_append, dropped, List.reverse_reverse]

theorem trimEnd_append {t trail : Text} (blanks : Blanks trail) (last : EndsPlain t) :
    trimEnd (t ++ trail) = t := dropEndWhile_append blanks last

/-- Trimming takes the blanks around a text away. -/
theorem trim_append {lead r trail : Text} {c : Char} (before : Blanks lead) (after : Blanks trail)
    (first : isBlank c = false) (last : EndsPlain (c :: r)) :
    trim (lead ++ c :: (r ++ trail)) = c :: r := by
  rw [trim, trimStart_append before first, ← List.cons_append, trimEnd_append after last]

/-- Trimming leaves a text alone that has no blank at either end. -/
theorem trim_eq_self {r : Text} {c : Char} (first : isBlank c = false) (last : EndsPlain (c :: r)) :
    trim (c :: r) = c :: r := by
  have trimmed := trim_append blanks_nil blanks_nil first last
  rwa [List.nil_append, List.append_nil] at trimmed

/-- What was trimmed has no blank at its end. -/
theorem endsPlain_trim (t : Text) : EndsPlain (trim t) := by
  intro c here
  rw [trim, trimEnd, dropEndWhile, List.getLast?_reverse] at here
  have stop := List.head?_dropWhile_not isBlank (trimStart t).reverse
  rw [here] at stop
  simpa using stop

theorem trim_front (t : Text) : trim t <+: trimStart t := by
  have behind : (trimStart t).reverse.dropWhile isBlank <:+ (trimStart t).reverse :=
    List.dropWhile_suffix isBlank
  simpa [trim, trimEnd, dropEndWhile] using List.reverse_prefix.mpr behind

/-- Trimming leaves a piece of the text. -/
theorem trim_inside (t : Text) : trim t <:+: t :=
  (trim_front t).isInfix.trans (List.dropWhile_suffix isBlank).isInfix

theorem trim_subset (t : Text) : trim t ⊆ t := (trim_inside t).subset

/-- A text that was trimmed is left alone by trimming. -/
theorem trim_trim (t : Text) : trim (trim t) = trim t := by
  cases shape : trim t with
  | nil => rfl
  | cons c r =>
    have last : EndsPlain (c :: r) := shape ▸ endsPlain_trim t
    refine trim_eq_self ?_ last
    -- The first character of what is left is the one at which the blanks in front end.
    obtain ⟨rest, whole⟩ := shape ▸ trim_front t
    have stop := List.head?_dropWhile_not isBlank t
    have started : (t.dropWhile isBlank).head? = some c := by
      rw [show t.dropWhile isBlank = c :: (r ++ rest) from whole.symm]
      rfl
    rw [started] at stop
    simpa using stop

/-- What was dropped before would have been dropped as well. -/
theorem dropWhile_dropWhile {p q : Char → Bool} (all : ∀ c, q c = true → p c = true) (t : Text) :
    (t.dropWhile q).dropWhile p = t.dropWhile p := by
  induction t with
  | nil => rfl
  | cons c r ih =>
    by_cases here : q c = true
    · rw [List.dropWhile_cons_of_pos here, List.dropWhile_cons_of_pos (all c here), ih]
    · rw [List.dropWhile_cons_of_neg here]

theorem EndsPlain.of_trimmed {t : Text} (trimmed : trim t = t) : EndsPlain t :=
  trimmed ▸ endsPlain_trim t

/-- What is trimmed and not empty begins with no blank. -/
theorem cons_of_trimmed {t : Text} (given : t ≠ []) (trimmed : trim t = t) :
    ∃ c r, t = c :: r ∧ isBlank c = false := by
  obtain ⟨c, r, rfl⟩ := List.exists_cons_of_ne_nil given
  refine ⟨c, r, rfl, Bool.eq_false_iff.mpr fun blank => ?_⟩
  -- A blank in front is dropped, and then there is less left than there was.
  have dropped : trim (c :: r) = trimEnd (trimStart r) := by
    rw [trim, trimStart, List.dropWhile_cons_of_pos blank]
    rfl
  have shorter : (trim (c :: r)).length ≤ r.length := by
    rw [dropped, trimEnd, dropEndWhile, List.length_reverse]
    calc ((trimStart r).reverse.dropWhile isBlank).length
        ≤ (trimStart r).reverse.length := (List.dropWhile_suffix isBlank).length_le
      _ = (trimStart r).length := List.length_reverse
      _ ≤ r.length := (List.dropWhile_suffix isBlank).length_le
  rw [trimmed, List.length_cons] at shorter
  omega

end ContractCheck.Text
