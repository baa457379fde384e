import ContractCheck.Text.Lines
import ContractCheck.Proofs.Text.Numerals

/-! # Lines of reports

A line that has no break in it is read as a line, whatever comes behind its end
(`lines_append_feed`).  So what is read from the lines of a text is what is read from the lines that
it was joined from (`filterMap_lines_join`).
-/
namespace ContractCheck.Text

/-- No character that ends a line. -/
def Unbroken (t : Text) : Prop := ∀ c ∈ t, isBreak c = false

instance (t : Text) : Decidable (Unbroken t) :=
  inferInstanceAs (Decidable (∀ c ∈ t, isBreak c = false))

variable {t u : Text}

theorem unbroken_cons {c : Char} : Unbroken (c :: t) ↔ isBreak c = false ∧ Unbroken t :=
  List.forall_mem_cons

theorem unbroken_append : Unbroken (t ++ u) ↔ Unbroken t ∧ Unbroken u := List.forall_mem_append

/-- There are no breaks in joined texts but those of the texts and of what is between them. -/
theorem unbroken_join {sep : Text} (between : Unbroken sep) {ps : List Text}
    (plain : ∀ p ∈ ps, Unbroken p) :
    Unbroken (join sep ps) := by
  induction ps with
  | nil => exact fun _ mem => nomatch mem
  | cons p ps ih =>
    obtain ⟨here, rest⟩ := List.forall_mem_cons.mp plain
    cases ps with
    | nil => exact here
    | cons q qs =>
      rw [join, unbroken_append, unbroken_append]
      exact ⟨⟨here, between⟩, ih rest⟩

theorem isBlank_of_isBreak {c : Char} (ends : isBreak c = true) : isBlank c = true := by
  simp only [isBreak, isBlank, Bool.or_eq_true, Bool.and_eq_true, decide_eq_true_eq,
    beq_iff_eq] at ends ⊢
  omega

/-- What is not blank ends no line. -/
theorem isBreak_of_not_blank {c : Char} (plain : isBlank c = false) : isBreak c = false :=
  Bool.eq_false_iff.mpr fun ends => Bool.false_ne_true (plain.symm.trans (isBlank_of_isBreak ends))

theorem Numeral.unbroken (h : Numeral t) : Unbroken t :=
  fun c mem => isBreak_of_not_blank (isBlank_of_digit (h.digits c mem))

theorem lines_cons {c : Char} (plain : isBreak c = false) (r : Text) :
    lines (c :: r) = consFirst c (lines r) := by
  have other : c ≠ '\r' := by
    rintro rfl
    cases plain
  rw [lines]
  · rw [if_neg (Bool.eq_false_iff.mp plain)]
  · rintro r' rfl
    exact absurd rfl other

theorem lines_feed (r : Text) : lines ('\n' :: r) = [] :: lines r := by
  rw [lines]
  · rfl
  · rintro r' eq
    cases eq

/-- **A line ends at its line feed.** -/
theorem lines_append_feed (plain : Unbroken t) (r : Text) :
    lines (t ++ '\n' :: r) = t :: lines r := by
  induction t with
  | nil => exact lines_feed r
  | cons c t ih =>
    obtain ⟨here, rest⟩ := List.forall_mem_cons.mp plain
    rw [List.cons_append, lines_cons here, ih rest, consFirst]

/-- The last line needs no line feed. -/
theorem lines_unbroken (given : t ≠ []) (plain : Unbroken t) : lines t = [t] := by
  induction t with
  | nil => exact absurd rfl given
  | cons c t ih =>
    obtain ⟨here, rest⟩ := List.forall_mem_cons.mp plain
    rw [lines_cons here]
    cases t with
    | nil => rfl
    | cons x t => rw [ih (List.cons_ne_nil x t) rest, consFirst]

/-- **The lines of a text are those that it was joined from**, as far as anything is read from
them. -/
theorem filterMap_lines_join {α : Type} {f : Text → Option α} (blank : f [] = none) {ls : List Text}
    (plain : ∀ l ∈ ls, Unbroken l) {ending : Text} (ends : ending = [] ∨ ending = ['\n']) :
    (lines (join ['\n'] ls ++ ending)).filterMap f = ls.filterMap f := by
  induction ls with
  | nil =>
    rcases ends with rfl | rfl
    · rfl
    · rw [join, List.nil_append, lines_feed, List.filterMap_cons_none blank]
      rfl
  | cons l ls ih =>
    obtain ⟨here, rest⟩ := List.forall_mem_cons.mp plain
    cases ls with
    | nil =>
      rw [join]
      rcases ends with rfl | rfl
      · rw [List.append_nil]
        by_cases given : l = []
        · rw [given, List.filterMap_cons_none blank]
          rfl
        · rw [lines_unbroken given here]
      · rw [lines_append_feed here]
        rfl
    | cons m ls =>
      rw [join, List.append_assoc, List.append_assoc, List.singleton_append, lines_append_feed here,
        List.filterMap_cons, ih rest]
      rfl

end ContractCheck.Text
