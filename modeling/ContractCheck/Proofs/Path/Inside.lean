import ContractCheck.Proofs.Path.Names
import Mathlib.Data.List.Basic

/-! # Names in a directory

A name that is put in a directory comes behind the same pieces whatever the name is
(`splitOn_join_name`), and the parent of the path is the directory, tidy (`InDirectory.parent`).  A
tidy path has no more characters than the path it is made from (`tidy_sublist`).
-/
namespace ContractCheck.Path

variable {dir name p : Text}

/-- The pieces that stand before a name in a directory. -/
def piecesBefore (dir : Text) : List Text := (Text.splitOn ['/'] (Posix.join dir [])).dropLast

/-- A name in a directory is the directory, a slash if one is missing, and the name. -/
theorem join_cases (dir : Text) :
    dir = [] ∧ (∀ name, '/' ∉ name → Posix.join dir name = name) ∨
    (∃ front, dir = front ++ ['/'] ∧ ∀ name, '/' ∉ name →
      Posix.join dir name = front ++ '/' :: name) ∨
    dir ≠ [] ∧ Text.endsWith dir ['/'] = false ∧ ∀ name, '/' ∉ name →
    Posix.join dir name = dir ++ '/' :: name := by
  by_cases empty : dir = []
  · refine .inl ⟨empty, fun name bare => ?_⟩
    rw [empty, Posix.join, isAbsolute_of_not_mem bare]
    rfl
  cases ends : Text.endsWith dir ['/'] with
  | true =>
    obtain ⟨front, shape⟩ := List.isSuffixOf_iff_suffix.mp ends
    refine .inr (.inl ⟨front, shape.symm, fun name bare => ?_⟩)
    rw [Posix.join, isAbsolute_of_not_mem bare, if_neg Bool.false_ne_true, ends, Bool.or_true,
      if_pos rfl, ← shape,
      List.append_assoc, List.singleton_append]
  | false =>
    have given : dir.isEmpty = false := by simpa using empty
    refine .inr (.inr ⟨empty, rfl, fun name bare => ?_⟩)
    rw [Posix.join, isAbsolute_of_not_mem bare, if_neg Bool.false_ne_true,
      ends, given, Bool.or_false, if_neg Bool.false_ne_true]

/-- **The pieces before a name do not depend on the name.** -/
theorem splitOn_join_name (bare : '/' ∉ name) (dir : Text) :
    Text.splitOn ['/'] (Posix.join dir name) = piecesBefore dir ++ [name] := by
  unfold piecesBefore
  rcases join_cases dir with ⟨rfl, join⟩ | ⟨front, rfl, join⟩ | ⟨-, -, join⟩ <;>
    rw [join name bare, join [] List.not_mem_nil]
  · rw [Text.splitOn_of_not_mem bare]
    rfl
  · rw [Text.splitOn_append, Text.splitOn_append, Text.splitOn_of_not_mem bare,
      Text.splitOn_of_not_mem List.not_mem_nil, List.dropLast_concat]
  · rw [Text.splitOn_append, Text.splitOn_append, Text.splitOn_of_not_mem bare,
      Text.splitOn_of_not_mem List.not_mem_nil, List.dropLast_concat]

/-- The names of a directory are its pieces that lead somewhere. -/
theorem names_eq_filter (dir : Text) :
    Posix.names dir = (piecesBefore dir).filter fun s => s ≠ [] ∧ s ≠ here := by
  unfold piecesBefore Posix.names
  rcases join_cases dir with
    ⟨rfl, join⟩ | ⟨front, rfl, join⟩ | ⟨-, -, join⟩ <;> rw [join [] List.not_mem_nil]
  · rfl
  · rw [Text.splitOn_append, Text.splitOn_of_not_mem List.not_mem_nil, List.dropLast_concat,
      List.filter_append]
    simp
  · rw [Text.splitOn_append, Text.splitOn_of_not_mem List.not_mem_nil, List.dropLast_concat]

theorem names_join (bare : '/' ∉ name) (proper : Proper name) (dir : Text) :
    Posix.names (Posix.join dir name) = Posix.names dir ++ [name] := by
  have own : [name].filter (fun s => s ≠ [] ∧ s ≠ here) = [name] := by simp [proper.1, proper.2.1]
  rw [names_eq_filter dir, Posix.names, splitOn_join_name bare, List.filter_append, own]

/-! ## The root of a path -/

/-- What starts with no slash leaves the root of what it is put behind as it is. -/
theorem root_append_plain (p : Text) {t : Text} (plain : ∀ r, t ≠ '/' :: r) :
    Posix.root (p ++ t) = Posix.root p := by
  have own : Posix.root t = [] ∧ Posix.root ('/' :: t) = ['/'] ∧
      Posix.root ('/' :: '/' :: t) = ['/', '/'] := by
    cases t with
    | nil => decide
    | cons c r =>
      have other : c ≠ '/' := fun same => plain r (same ▸ rfl)
      simp [Posix.root, other]
  -- Three characters decide about the root.
  cases p with
  | nil => exact own.1
  | cons c p =>
    by_cases first : c = '/'
    · cases p with
      | nil => rw [first]; exact own.2.1
      | cons d p =>
        by_cases second : d = '/'
        · cases p with
          | nil => rw [first, second]; exact own.2.2
          | cons e p =>
            by_cases third : e = '/'
            · rw [first, second, third]
              rfl
            · simp [Posix.root, first, second, third]
        · simp [Posix.root, first, second]
    · simp [Posix.root, first]

theorem not_slash_of_bare (bare : '/' ∉ name) : ∀ r, name ≠ '/' :: r :=
  fun _ same => bare (same ▸ List.mem_cons_self)

/-- A name in a directory does not change the root. -/
theorem root_join (bare : '/' ∉ name) (dir : Text) :
    Posix.root (Posix.join dir name) = Posix.root dir := by
  rcases join_cases dir with
    ⟨rfl, join⟩ | ⟨front, rfl, join⟩ | ⟨given, ends, join⟩ <;> rw [join name bare]
  · exact root_append_plain [] (not_slash_of_bare bare)
  · rw [List.append_cons]
    exact root_append_plain _ (not_slash_of_bare bare)
  · -- The last character of the directory is no slash, so neither it nor what follows counts.
    obtain ⟨front, c, rfl⟩ : ∃ front c, dir = front ++ [c] :=
      ⟨_, _, (List.dropLast_append_getLast given).symm⟩
    have other : c ≠ '/' := by
      rintro rfl
      rw [Text.endsWith, Bool.eq_false_iff] at ends
      exact ends (List.isSuffixOf_iff_suffix.mpr (List.suffix_append front _))
    have plain (t : Text) : ∀ r, c :: t ≠ '/' :: r := fun r same => other (List.cons.inj same).1
    rw [List.append_assoc, List.singleton_append, root_append_plain front (plain _),
      root_append_plain front (plain _)]

theorem isAbsolute_iff : Posix.isAbsolute p = true ↔ Posix.root p ≠ [] := by
  constructor
  · intro absolute empty
    rcases root_of_absolute absolute with root | root <;> cases empty.symm.trans root
  · intro given
    cases p with
    | nil => exact absurd rfl given
    | cons c r =>
      by_cases slash : c = '/'
      · rw [slash]
        rfl
      · exact absurd (by simp [Posix.root, slash]) given

theorem isAbsolute_congr {q : Text} (same : Posix.root p = Posix.root q) :
    Posix.isAbsolute p = Posix.isAbsolute q := by
  rw [Bool.eq_iff_iff, isAbsolute_iff, isAbsolute_iff, same]

theorem root_prefix (p : Text) : Posix.root p <+: p := by
  fun_cases Posix.root p with
  | case1 => exact ⟨_, rfl⟩
  | case2 => exact ⟨_, rfl⟩
  | case3 => exact ⟨_, rfl⟩
  | case4 => exact List.nil_prefix

/-! ## Tidy paths -/

theorem names_of_join_eq_nil (none : Text.join ['/'] (Posix.names p) = []) :
    Posix.names p = [] := by
  cases own : Posix.names p with
  | nil => rfl
  | cons n ns =>
    have mem : n ∈ Posix.names p := own ▸ List.mem_cons_self
    have given : n ≠ [] := (by simpa using List.of_mem_filter mem : n ≠ [] ∧ n ≠ here).1
    rw [own] at none
    cases ns with
    | nil => exact absurd none given
    | cons m ns =>
      exact absurd (List.append_eq_nil_iff.mp (List.append_eq_nil_iff.mp none).1).1 given

/-- A tidy path starts like the path and has its names. -/
theorem tidy_same (p : Text) :
    Posix.root (Posix.tidy p) = Posix.root p ∧ Posix.names (Posix.tidy p) = Posix.names p := by
  by_cases empty : (Posix.root p ++ Text.join ['/'] (Posix.names p)).isEmpty
  · have here : Posix.tidy p = Path.here := if_pos empty
    obtain ⟨root, names⟩ := List.append_eq_nil_iff.mp (List.isEmpty_iff.mp empty)
    rw [here, root, names_of_join_eq_nil names]
    decide
  · have shape : Posix.tidy p = Posix.root p ++ Text.join ['/'] (Posix.names p) := if_neg empty
    rw [shape, root_append p (join_names p), names_root_append, names_join_names]
    exact ⟨rfl, rfl⟩

theorem join_filter_sublist (keep : Text → Bool) (pieces : List Text) :
    (Text.join ['/'] (pieces.filter keep)).Sublist (Text.join ['/'] pieces) := by
  induction pieces with
  | nil => exact List.Sublist.slnil
  | cons s rest ih =>
    cases rest with
    | nil =>
      cases own : keep s with
      | true => rw [List.filter_cons_of_pos own]; exact List.Sublist.refl _
      | false => rw [List.filter_cons_of_neg (by simp [own])]; exact List.nil_sublist _
    | cons s' rest =>
      have whole : Text.join ['/'] (s :: s' :: rest) = s ++ ['/'] ++ Text.join ['/'] (s' :: rest) :=
        rfl
      rw [whole]
      cases own : keep s with
      | false =>
        rw [List.filter_cons_of_neg (by simp [own])]
        exact ih.trans (List.sublist_append_right _ _)
      | true =>
        rw [List.filter_cons_of_pos own]
        cases kept : (s' :: rest).filter keep with
        | nil => exact (List.sublist_append_left s ['/']).trans (List.sublist_append_left _ _)
        | cons k ks =>
          rw [kept] at ih
          exact (List.Sublist.refl _).append ih

/-- **A tidy path has no characters but those of the path**, in their order. -/
theorem tidy_sublist (given : Posix.names p ≠ []) : (Posix.tidy p).Sublist p := by
  obtain ⟨rest, whole⟩ := root_prefix p
  have names : Posix.names p = Posix.names rest := by
    conv_lhs => rw [← whole]
    exact names_root_append p rest
  have shape : Posix.tidy p = Posix.root p ++ Text.join ['/'] (Posix.names p) := by
    exact if_neg fun empty =>
      given (names_of_join_eq_nil (List.append_eq_nil_iff.mp (List.isEmpty_iff.mp empty)).2)
  rw [shape]
  conv_rhs => rw [← whole]
  refine (List.Sublist.refl _).append ?_
  rw [names]
  conv_rhs => rw [← Text.join_splitOn (List.cons_ne_nil '/' []) rest]
  exact join_filter_sublist _ _

/-! ## Paths to a name -/

/-- A path to a name in a directory. -/
structure InDirectory (path dir name : Text) : Prop where
  shape : path = Posix.join dir name
  bare : '/' ∉ name
  proper : Proper name

namespace InDirectory

variable {path : Text} (inside : InDirectory path dir name)
include inside

theorem pieces : Text.splitOn ['/'] path = piecesBefore dir ++ [name] := by
  rw [inside.shape, splitOn_join_name inside.bare]

theorem root : Posix.root path = Posix.root dir := by
  rw [inside.shape, root_join inside.bare]

theorem names : Posix.names path = Posix.names dir ++ [name] := by
  rw [inside.shape, names_join inside.bare inside.proper]

/-- **The parent of a name in a directory is the directory, tidy.** -/
theorem parent : Posix.parent path = Posix.tidy dir := by
  rw [Posix.parent, Posix.tidy, inside.names, List.dropLast_concat, Posix.withNames,
    Posix.withNames, inside.root]

theorem ends : EndsIn name path := by
  rw [inside.shape]
  exact .join (.inl rfl) dir

/-- The tidy path does not end in a slash. -/
theorem tidy_open : Text.endsWith (Posix.tidy path) ['/'] = false := by
  obtain ⟨front, c, last⟩ : ∃ front c, name = front ++ [c] :=
    ⟨_, _, (List.dropLast_append_getLast inside.proper.1).symm⟩
  have other : c ≠ '/' := fun same => inside.bare (by simp [last, same])
  obtain ⟨before, shape⟩ : ∃ before, Posix.tidy path = before ++ [c] := by
    rcases inside.ends.tidy inside.bare inside.proper with same | ⟨before, same⟩
    · exact ⟨front, same.trans last⟩
    · exact ⟨before ++ '/' :: front, by rw [same, last]; simp⟩
  rw [Text.endsWith, Bool.eq_false_iff, shape]
  intro closed
  obtain ⟨_, same⟩ := List.isSuffixOf_iff_suffix.mp closed
  exact other (List.singleton_inj.mp (List.append_inj' same rfl).2.symm)

end InDirectory
end ContractCheck.Path
