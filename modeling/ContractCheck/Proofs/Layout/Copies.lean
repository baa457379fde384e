import ContractCheck.Proofs.FileSystem.Rows
import ContractCheck.Proofs.Layout.Naming
import ContractCheck.Proofs.Layout.Outputs
import ContractCheck.Proofs.Layout.Project

/-! # Where copies are

The copy of a source is in the mirrored directory, under the name of the source with the marker in
front of it (`Copied.row`).  Sources that are not in a temporary directory are copied to places of
their own (`CopyRow.place_unique`).
-/
namespace ContractCheck.Layout

open ContractCheck.Path
open FileSystem (placeOf)

variable {l : Layout} {m : Char} {path path' : Text} {lead lead' names names' : List Text}
  {name name' : Text}

/-- A path whose copy has a place of its own: it is resolved, it is in a directory other than the
root, and no directory on the way is the temporary one. -/
structure Copied (l : Layout) (path : Text) : Prop where
  resolved : Resolved path
  below : (splitPath path).1 ≠ [] ∧ (splitPath path).1 ≠ ['/']
  apart : l.temp ∉ Text.splitOn ['/'] (splitPath path).1
  forward : '\\' ∉ path
  inLine : '\n' ∉ path

/-- The names that a path and the path of its copy are made up of. -/
structure CopyRow (l : Layout) (m : Char) (path : Text) (lead names : List Text) (name : Text) :
    Prop where
  row : Row lead names
  proper : Proper name
  bare : '/' ∉ name
  cut : splitPath path = (slashed (lead ++ names), name)
  whole : path = slashed (lead ++ (names ++ [name]))
  apart : l.temp ∉ names
  mirrored : Row lead (mirror l.contracts l.temp names)
  marked : Proper (m :: name)
  plain : '/' ∉ m :: name
  staged : l.stagedPath path = slashed (lead ++ (mirror l.contracts l.temp names ++ [m :: name]))

/-- An absolute path without back slashes is cut at its last slash. -/
theorem splitPath_absolute (absolute : Posix.isAbsolute path = true) (forward : '\\' ∉ path) :
    ∃ directory name, splitPath path = (directory, name) ∧ path = directory ++ '/' :: name ∧
      ∀ c ∈ name, isSlash c = false := by
  obtain ⟨free, front, whole, start⟩ := splitPath_cases path
  have bare : '/' ∉ (splitPath path).2 := not_mem_of_bare free rfl
  rcases start with rfl | ⟨before, c, slash, rfl⟩
  · rw [whole, List.nil_append, isAbsolute_of_not_mem bare] at absolute
    cases absolute
  · have here : c = '/' := by
      rcases Bool.or_eq_true_iff.mp slash with here | back
      · exact beq_iff_eq.mp here
      · refine absurd ?_ forward
        rw [whole, ← beq_iff_eq.mp back]
        simp
    rw [here, List.append_assoc, List.singleton_append] at whole
    have cut := @splitPath_append before _ free
    rw [← whole] at cut
    exact ⟨before, _, cut, whole, free⟩

/-- **A copy is made up of the mirrored names and the marked one.** -/
theorem Copied.row (own : Copied l path) (single : Named l) (marker : l.marker = [m])
    (other : isSlash m = false) :
    ∃ lead names name, CopyRow l m path lead names name := by
  obtain ⟨directory, name, cut, shape, free⟩ := splitPath_absolute own.resolved.absolute own.forward
  have bare : '/' ∉ name := not_mem_of_bare free rfl
  have below := own.below
  have apart := own.apart
  rw [cut] at below apart
  have absolute := own.resolved.absolute
  have resolved := own.resolved.fixed
  rw [shape] at absolute resolved
  obtain ⟨lead, names, row, rfl, proper⟩ := row_of_directory absolute resolved below bare
  have marked : Proper (m :: name) := by
    refine ⟨List.cons_ne_nil _ _, fun same => proper.1 (List.cons.inj same).2,
      fun same => proper.2.1 ?_⟩
    exact (List.cons.inj same).2
  have plain : '/' ∉ m :: name := by
    rintro (_ | ⟨_, inside⟩)
    · cases other
    · exact bare inside
  have mirrored : Row lead (mirror l.contracts l.temp names) :=
    mirror_row row single.temp.proper (single.temp.not_mem rfl)
  have swapped : l.toStagingDir (slashed (lead ++ names)) = _ :=
    swapSegment_row row single.contracts.proper.1 (single.contracts.not_mem rfl)
      (single.temp.not_mem rfl)
      (single.temp.not_mem rfl) (fun mem =>
        own.forward (by rw [shape]; exact List.mem_append_left _ mem))
      (fun mem => own.inLine (by rw [shape]; exact List.mem_append_left _ mem))
  refine ⟨lead, names, name, row, proper, bare, cut, ?_, fun mem => apart ?_, mirrored,
    marked, plain, ?_⟩
  · rw [shape, Row.slashed_concat]
  · rw [row.pieces]
    exact List.mem_cons_of_mem _ (List.mem_append_right _ mem)
  · rw [stagedPath, cut]
    dsimp only
    rw [swapped, marker, List.singleton_append, mirrored.join plain]

namespace CopyRow

variable (own : CopyRow l m path lead names name)
include own

/-- The place of a copy. -/
theorem place (cwd : Place) :
    placeOf cwd (Posix.tidy (l.stagedPath path)) =
      mirror l.contracts l.temp names ++ [m :: name] := by
  have row := own.mirrored.concat own.marked own.plain
  rw [own.staged, row.tidy, FileSystem.placeOf_row row]

theorem source_place (cwd : Place) : placeOf cwd path = names ++ [name] := by
  rw [own.whole, FileSystem.placeOf_row (own.row.concat own.proper own.bare)]

theorem parent :
    Posix.parent (l.stagedPath path) = slashed (lead ++ mirror l.contracts l.temp names) := by
  rw [own.staged, own.mirrored.parent own.marked own.plain]

theorem tidy : Posix.tidy (l.stagedPath path) =
    slashed (lead ++ (mirror l.contracts l.temp names ++ [m :: name])) := by
  rw [own.staged, (own.mirrored.concat own.marked own.plain).tidy]

/-- **Copies at one place are copies of one source.** -/
theorem place_unique (own' : CopyRow l m path' lead' names' name') {cwd : Place}
    (same : placeOf cwd (Posix.tidy (l.stagedPath path)) =
      placeOf cwd (Posix.tidy (l.stagedPath path'))) :
    placeOf cwd path = placeOf cwd path' := by
  rw [own.place, own'.place] at same
  obtain ⟨directory, leaf⟩ := List.append_inj' same rfl
  have names_eq : names = names' := by
    rw [← mirror_mirror l.contracts own.apart, directory, mirror_mirror l.contracts own'.apart]
  rw [own.source_place, own'.source_place, names_eq, (List.cons.inj (List.cons.inj leaf).1).2]

end CopyRow
end ContractCheck.Layout
