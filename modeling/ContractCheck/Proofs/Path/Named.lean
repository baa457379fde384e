import ContractCheck.Proofs.Path.Names

/-! # Rows of names

A resolved path below the root is a row of names (`Row`).  It is tidy, its names are those of the
row, and a name that is put behind it makes a longer row.
-/
namespace ContractCheck.Path

/-- A row of names, with the empty segments that may stand before it. -/
structure Row (lead names : List Text) : Prop where
  lead : IsLead lead
  given : names ≠ []
  proper : ∀ s ∈ names, Proper s
  plain : Plain names

namespace Row

variable {lead names : List Text} (row : Row lead names)
include row

theorem whole : Plain (lead ++ names) := by
  refine List.forall_mem_append.mpr ⟨?_, row.plain⟩
  rcases row.lead with rfl | rfl
  · exact nofun
  · exact List.forall_mem_singleton.mpr List.not_mem_nil

theorem pieces : Text.splitOn ['/'] (slashed (lead ++ names)) = [] :: (lead ++ names) :=
  splitOn_slashed row.whole

theorem root : Posix.root (slashed (lead ++ names)) = '/' :: slashed lead := by
  obtain ⟨s, rest, rfl⟩ := List.exists_cons_of_ne_nil row.given
  exact root_row row.lead (row.proper s List.mem_cons_self).1 (row.plain s List.mem_cons_self)

omit row in
theorem isAbsolute (given : names ≠ []) : Posix.isAbsolute (slashed (lead ++ names)) = true := by
  cases lead with
  | nil =>
    obtain ⟨s, rest, rfl⟩ := List.exists_cons_of_ne_nil given
    rfl
  | cons s rest => rfl

theorem absolute : Posix.isAbsolute (slashed (lead ++ names)) = true := isAbsolute row.given

theorem last : ∃ x, (lead ++ names).getLast? = some x ∧ x ≠ [] := by
  have some := List.getLast?_eq_some_getLast row.given
  exact ⟨_, by rw [List.getLast?_append_of_ne_nil _ row.given, some],
    (row.proper _ (List.mem_of_getLast? some)).1⟩

theorem names_eq : Posix.names (slashed (lead ++ names)) = names := by
  have own : names.filter (fun s => s ≠ [] ∧ s ≠ here) = names := by
    rw [List.filter_eq_self]
    intro s mem
    have proper := row.proper s mem
    exact decide_eq_true ⟨proper.1, proper.2.1⟩
  rw [Posix.names, row.pieces]
  rcases row.lead with rfl | rfl
  · exact own
  · exact own

theorem withNames {ns : List Text} (given : ns ≠ []) :
    Posix.withNames (slashed (lead ++ names)) ns = slashed (lead ++ ns) := by
  unfold Posix.withNames
  rw [row.root, List.cons_append, lead_append_join row.lead given]
  have some : (slashed (lead ++ ns)).isEmpty = false := by
    rw [← lead_append_join row.lead given]
    rfl
  dsimp only
  rw [some]
  rfl

theorem tidy : Posix.tidy (slashed (lead ++ names)) = slashed (lead ++ names) := by
  rw [Posix.tidy, row.names_eq, row.withNames row.given]

theorem normalise : Posix.normalise (slashed (lead ++ names)) = slashed (lead ++ names) := by
  have first : ∃ s rest, names = s :: rest ∧ s ≠ [] := by
    obtain ⟨s, rest, rfl⟩ := List.exists_cons_of_ne_nil row.given
    exact ⟨s, rest, rfl, (row.proper s List.mem_cons_self).1⟩
  rw [normalise_row row.lead first row.whole, collapse_of_proper row.proper,
    lead_append_join row.lead row.given]

theorem concat {name : Text} (proper : Proper name) (bare : '/' ∉ name) :
    Row lead (names ++ [name]) where
  lead := row.lead
  given := by simp
  proper := List.forall_mem_append.mpr ⟨row.proper, List.forall_mem_singleton.mpr proper⟩
  plain := List.forall_mem_append.mpr ⟨row.plain, List.forall_mem_singleton.mpr bare⟩

theorem parent {name : Text} (proper : Proper name) (bare : '/' ∉ name) :
    Posix.parent (slashed (lead ++ (names ++ [name]))) = slashed (lead ++ names) := by
  have longer := row.concat proper bare
  rw [Posix.parent, longer.names_eq, List.dropLast_concat, longer.withNames row.given]

omit row in
theorem slashed_concat (lead names : List Text) (name : Text) :
    slashed (lead ++ (names ++ [name])) = slashed (lead ++ names) ++ '/' :: name := by simp

theorem join {name : Text} (bare : '/' ∉ name) :
    Posix.join (slashed (lead ++ names)) name = slashed (lead ++ (names ++ [name])) := by
  rw [join_slashed row.whole row.last (isAbsolute_of_not_mem bare), slashed_concat]

theorem dirname {name : Text} (bare : '/' ∉ name) :
    Posix.dirname (slashed (lead ++ (names ++ [name]))) = slashed (lead ++ names) := by
  rw [slashed_concat, dirname_row row.whole row.last bare]

end Row

/-- **The directory of a resolved path is a row of names**, unless it is a root. -/
theorem row_of_directory {directory name : Text}
    (absolute : Posix.isAbsolute (directory ++ '/' :: name) = true)
    (resolved : Posix.normalise (directory ++ '/' :: name) = directory ++ '/' :: name)
    (below : directory ≠ [] ∧ directory ≠ ['/'])
    (bare : '/' ∉ name) :
    ∃ lead names, Row lead names ∧ directory = slashed (lead ++ names) ∧ Proper name := by
  obtain ⟨given, root⟩ := below
  rcases row_of_resolved absolute resolved with rooted | ⟨body, filled, proper, plain, split⟩
  · -- A root has no directory but the excluded ones.
    obtain ⟨c, r, rfl⟩ := List.exists_cons_of_ne_nil given
    rcases root_of_absolute absolute with one | two
    · rw [one] at rooted
      simp at rooted
    · rw [two] at rooted
      obtain ⟨rfl, rest⟩ := List.cons.inj rooted
      cases r with
      | nil => exact absurd rfl root
      | cons y r => simp at rest
  · have leads := isLead_leading (directory ++ '/' :: name)
    generalize leading (directory ++ '/' :: name) = lead at plain split leads
    obtain ⟨front, last, rfl⟩ := (List.eq_nil_or_concat body).resolve_left filled
    rw [List.concat_eq_append] at proper plain split
    rw [Row.slashed_concat] at split
    -- A path is cut at its last slash in one way only.
    have cut := Text.cutLast_append bare directory
    rw [split, Text.cutLast_append (plain last (by simp))] at cut
    obtain ⟨rfl, rfl⟩ := Prod.mk.inj (Option.some.inj cut)
    have inner : front ≠ [] := by
      rintro rfl
      rcases leads with rfl | rfl
      · exact given rfl
      · exact root rfl
    exact ⟨lead, front, ⟨leads, inner, fun s mem => proper s (List.mem_append_left _ mem),
      fun s mem => plain s (by simp [mem])⟩, rfl, proper last (by simp)⟩

end ContractCheck.Path
