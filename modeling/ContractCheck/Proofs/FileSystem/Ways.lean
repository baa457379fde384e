import ContractCheck.Proofs.FileSystem.Rows
import ContractCheck.Proofs.FileSystem.Trees
import ContractCheck.Proofs.Path.Inside
import Mathlib.Data.List.Flatten

/-! # Names in directories that are reached by any way

A path to a name in a directory can be followed exactly if the directory can be reached, whatever
climbs on the way (`InDirectory.resolve_iff`).  A directory that was made can be reached
(`standing_of_made`), one that can be reached is not made again (`made_of_standing`), and one that
was reached stays so as long as no directory goes (`Standing.keeps`).
-/
namespace ContractCheck

namespace FileSystem

open ContractCheck.Path (up Proper piecesBefore)

variable {fs fs' : FileSystem} {cwd dir p : Place} {path name : Text} {names : List Text}

/-! ## Following names -/

/-- The names of a path are those that lead somewhere. -/
theorem moves_iff (name : Text) : decide (name ≠ [] ∧ name ≠ Path.here) = !isStill name := by
  rw [Bool.eq_iff_iff]
  simp [isStill]

/-- Names that can be followed can be followed as long as no directory on the way goes. -/
theorem walk_keeps (keeps : ∀ front, front <+: names → fs.get? (lead dir front) = some .directory →
    fs'.get? (lead dir front) = some .directory) (led : fs.walk dir names = .ok p) :
    fs'.walk dir names = .ok p := by
  induction names generalizing dir with
  | nil => exact led
  | cons name rest ih =>
    have further : ∀ front, front <+: rest → fs.get? (lead dir (name :: front)) = some .directory →
        fs'.get? (lead dir (name :: front)) = some .directory := fun front ahead =>
      keeps (name :: front) (List.cons_prefix_cons.mpr ⟨rfl, ahead⟩)
    simp only [lead] at further
    simp only [walk] at led ⊢
    split at led
    · cases led
    · cases led
    · next directory =>
      rw [show fs'.get? dir = some .directory from keeps [] List.nil_prefix directory]
      dsimp only
      split at led
      · next still =>
        rw [if_pos still]
        exact ih (by simpa only [if_pos still] using further) led
      · next moves =>
        rw [if_neg moves]
        simp only [if_neg moves] at further
        split at led
        · next climbs =>
          rw [if_pos climbs]
          exact ih (by simpa only [if_pos climbs] using further) led
        · next stays =>
          rw [if_neg stays]
          split at led
          · cases led
          · next short =>
            rw [if_neg short]
            exact ih (by simpa only [if_neg stays] using further) led

/-- The last name of a way is looked for in the directory that the names before it lead to. -/
theorem walk_concat_iff (proper : Proper name) : fs.walk dir (names ++ [name]) = .ok p ↔
    fs.walk dir names = .ok (lead dir names) ∧ fs.get? (lead dir names) = some .directory ∧
    tooLong name = false ∧
      p = lead dir names ++ [name] := by
  induction names generalizing dir with
  | nil =>
    simp only [List.nil_append, walk, lead, isStill_of_proper proper, if_neg Bool.false_ne_true,
      if_neg proper.2.2]
    cases fs.get? dir with
    | none => simp
    | some n => cases n <;> cases tooLong name <;> simp [eq_comm]
  | cons s rest ih =>
    rw [List.cons_append]
    simp only [walk, lead]
    cases fs.get? dir with
    | none => simp
    | some n =>
      cases n with
      | file content x => simp
      | directory =>
        dsimp only
        by_cases still : isStill s
        · rw [if_pos still, if_pos still, if_pos still, ih]
        · rw [if_neg still, if_neg still, if_neg still]
          by_cases climbs : s = up
          · rw [if_pos climbs, if_pos climbs, if_pos climbs, ih]
          · rw [if_neg climbs, if_neg climbs, if_neg climbs]
            cases tooLong s with
            | true => simp
            | false => simp [ih]

/-- Names that lead nowhere can be left out before another one. -/
theorem walk_filter (fs : FileSystem) (dir : Place) (names : List Text) (name : Text) :
    fs.walk dir ((names.filter fun s => !isStill s) ++ [name]) = fs.walk dir (names ++ [name]) := by
  induction names generalizing dir with
  | nil => rfl
  | cons s rest ih =>
    cases still : isStill s with
    | false =>
      rw [List.filter_cons_of_pos (by simp [still]), List.cons_append, List.cons_append]
      simp only [walk, ih]
    | true =>
      rw [List.filter_cons_of_neg (by simp [still]), ih, List.cons_append]
      -- The names that are left start from a directory just as well.
      obtain ⟨n, ns, shape⟩ := List.exists_cons_of_ne_nil
        (List.append_ne_nil_of_right_ne_nil rest (List.cons_ne_nil name []))
      rw [shape]
      conv_rhs => rw [walk, still, if_pos rfl]
      rw [walk]
      cases fs.get? dir with
      | none => rfl
      | some node => cases node <;> rfl

/-- Names that lead nowhere can be left out when directories are made. -/
theorem makeAlong_filter (fs : FileSystem) (dir : Place) (names : List Text) :
    fs.makeAlong dir (names.filter fun s => !isStill s) = fs.makeAlong dir names := by
  induction names generalizing fs dir with
  | nil => rfl
  | cons s rest ih =>
    cases still : isStill s with
    | false =>
      have left : (rest.filter fun s => !isStill s).all isStill = rest.all isStill := by
        rw [Bool.eq_iff_iff, List.all_eq_true, List.all_eq_true]
        constructor
        · intro none s mem
          by_contra moves
          exact moves (none s (List.mem_filter.mpr ⟨mem, by simpa using moves⟩))
        · exact fun all s mem => all s (List.mem_of_mem_filter mem)
      rw [List.filter_cons_of_pos (by simp [still])]
      simp only [makeAlong, ih, left]
    | true => rw [List.filter_cons_of_neg (by simp [still]), ih, makeAlong, still, if_pos rfl]

/-- Names that lead nowhere do not count for the place. -/
theorem lead_filter (dir : Place) (names : List Text) :
    lead dir (names.filter fun s => !isStill s) = lead dir names := by
  induction names generalizing dir with
  | nil => rfl
  | cons s rest ih =>
    cases still : isStill s with
    | false =>
      rw [List.filter_cons_of_pos (by simp [still])]
      simp only [lead, ih]
    | true => rw [List.filter_cons_of_neg (by simp [still]), ih, lead, still, if_pos rfl]

/-- The place of a path is where its names lead. -/
theorem placeOf_eq_lead_names (cwd : Place) (path : Text) :
    placeOf cwd path = lead (startOf cwd path) (Path.Posix.names path) := by
  rw [placeOf, ← lead_filter, Path.Posix.names]
  simp only [moves_iff]

/-- The tidy path has the place of the path. -/
theorem placeOf_tidy (cwd : Place) (path : Text) :
    placeOf cwd (Path.Posix.tidy path) = placeOf cwd path := by
  have start : startOf cwd (Path.Posix.tidy path) = startOf cwd path := by
    rw [startOf, startOf, Path.isAbsolute_congr (Path.tidy_same path).1]
  rw [placeOf_eq_lead_names, placeOf_eq_lead_names cwd path, (Path.tidy_same path).2, start]

/-! ## Making directories on a way -/

/-- **Names can be followed in a tree once their directories were made.** -/
theorem walk_of_makeAlong (tree : fs.IsTree) (stands : fs.get? dir = some .directory)
    (done : (fs.makeAlong dir names).2 = none) :
    (fs.makeAlong dir names).1.walk dir names = .ok (lead dir names) ∧
      (fs.makeAlong dir names).1.get? (lead dir names) = some .directory := by
  induction names generalizing fs dir with
  | nil => exact ⟨rfl, stands⟩
  | cons s rest ih =>
    have start := (makeAlong_grows fs dir (s :: rest)).directory dir stands
    simp only [walk, lead, start]
    simp only [makeAlong] at done ⊢
    split
    · next still =>
      rw [if_pos still] at done
      exact ih tree stands done
    · next moves =>
      rw [if_neg moves] at done
      split
      · next climbs =>
        rw [if_pos climbs] at done
        exact ih tree (tree.dropLast stands) done
      · next stays =>
        rw [if_neg stays] at done
        split at done
        · cases done
        · next short =>
          simp only [if_neg short]
          split at done
          · next there => exact ih tree there done
          · cases done
          · next free =>
            split at done
            · cases done
            · next allowed =>
              rw [if_neg allowed]
              refine ih (tree.set_directory ?_ free) (get?_set_self fs _ (by simp)) done
              rwa [List.dropLast_concat]

/-- Names that lead to a directory start from one. -/
theorem directory_of_walk (led : fs.walk dir names = .ok p) (stands : fs.get? p = some .directory) :
    fs.get? dir = some .directory := by
  cases names with
  | nil =>
    obtain rfl := Except.ok.inj led
    exact stands
  | cons s rest =>
    rw [walk] at led
    split at led
    · cases led
    · cases led
    · next there => exact there

/-- A way to a directory leads over directories. -/
theorem directory_on_walk (led : fs.walk dir names = .ok p) (stands : fs.get? p = some .directory)
    {front : List Text}
    (ahead : front <+: names) : fs.get? (lead dir front) = some .directory := by
  induction names generalizing dir front with
  | nil =>
    obtain rfl := List.prefix_nil.mp ahead
    exact directory_of_walk led stands
  | cons s rest ih =>
    cases front with
    | nil => exact directory_of_walk led stands
    | cons s' front =>
      obtain ⟨rfl, further⟩ := List.cons_prefix_cons.mp ahead
      simp only [walk, directory_of_walk led stands] at led
      simp only [lead]
      split at led
      · next still => rw [if_pos still]; exact ih led further
      · next moves =>
        rw [if_neg moves]
        split at led
        · next climbs => rw [if_pos climbs]; exact ih led further
        · next stays =>
          rw [if_neg stays]
          split at led
          · cases led
          · exact ih led further

/-- Directories that stand are not made again. -/
theorem makeAlong_standing (led : fs.walk dir names = .ok p)
    (stands : fs.get? p = some .directory) :
    fs.makeAlong dir names = (fs, none) := by
  induction names generalizing dir with
  | nil => rfl
  | cons s rest ih =>
    simp only [walk] at led
    rw [makeAlong]
    split at led
    · cases led
    · cases led
    · split at led
      · next still => rw [if_pos still, ih led]
      · next moves =>
        rw [if_neg moves]
        split at led
        · next climbs => rw [if_pos climbs, ih led]
        · next stays =>
          rw [if_neg stays]
          split at led
          · cases led
          · next short =>
            rw [if_neg short]
            dsimp only
            rw [directory_of_walk led stands]
            exact ih led

/-- Directories are made on the way only. -/
theorem makeAlong_within {hidden made : Place → Prop}
    (within : ∀ front, front <+: names → made (lead dir front)) :
    AlikeBut hidden made fs (fs.makeAlong dir names).1 := by
  induction names generalizing fs dir with
  | nil => exact .refl _ _ fs
  | cons s rest ih =>
    have further : ∀ front, front <+: rest → made (lead dir (s :: front)) := fun front ahead =>
      within (s :: front) (List.cons_prefix_cons.mpr ⟨rfl, ahead⟩)
    simp only [lead] at further
    simp only [makeAlong]
    split
    · next still => exact ih (by simpa only [if_pos still] using further)
    · next moves =>
      simp only [if_neg moves] at further
      split
      · next climbs => exact ih (by simpa only [if_pos climbs] using further)
      · next stays =>
        simp only [if_neg stays] at further
        split
        · exact .refl _ _ fs
        · split
          · exact ih further
          · exact .refl _ _ fs
          · next free =>
            split
            · exact .refl _ _ fs
            · have here : made (dir ++ [s]) := further [] List.nil_prefix
              exact (alike_set (by simp [free]) (.inr ⟨here, free, rfl⟩)).trans (ih further)

/-- The places that a path leads over. -/
def OnWay (cwd : Place) (path : Text) (q : Place) : Prop :=
  ∃ front, front <+: Text.splitOn ['/'] path ∧ q = lead (startOf cwd path) front

/-- A path leads over the places that its names lead to one after the other. -/
theorem onWay_iff {q : Place} : OnWay cwd path q ↔
    ∃ front, front <+: Path.Posix.names path ∧ q = lead (startOf cwd path) front := by
  have names : Path.Posix.names path = (Text.splitOn ['/'] path).filter fun s => !isStill s := by
    simp only [Path.Posix.names, moves_iff]
  rw [names]
  constructor
  · rintro ⟨front, ahead, rfl⟩
    exact ⟨_, ahead.filter _, (lead_filter _ front).symm⟩
  · rintro ⟨front, ⟨rest, whole⟩, rfl⟩
    obtain ⟨before, after, split, rfl, -⟩ := List.filter_eq_append_iff.mp whole.symm
    exact ⟨before, split ▸ List.prefix_append before after, lead_filter _ before⟩

/-- A tidy path leads over the same places. -/
theorem onWay_tidy {q : Place} : OnWay cwd (Path.Posix.tidy path) q ↔ OnWay cwd path q := by
  obtain ⟨root, names⟩ := Path.tidy_same path
  rw [onWay_iff, onWay_iff, names, startOf, startOf, Path.isAbsolute_congr root]

theorem makeDirectories_within (hidden : Place → Prop) (fs : FileSystem) (cwd : Place)
    (path : Text) :
    AlikeBut hidden (OnWay cwd path) fs (fs.makeDirectories cwd path).1 := by
  unfold makeDirectories
  split
  · exact .refl _ _ fs
  · split
    · exact .refl _ _ fs
    · exact makeAlong_within fun front ahead => ⟨front, ahead, rfl⟩

/-- The way to a directory that is found leads over directories. -/
theorem onWay_directory {q : Place} (directory : fs.isDirectory cwd path = true)
    (on : OnWay cwd path q) :
    fs.get? q = some .directory := by
  obtain ⟨front, ahead, rfl⟩ := on
  obtain ⟨p, found⟩ := isDirectory_iff.mp directory
  obtain ⟨led, stands⟩ := find_iff.mp found
  exact directory_on_walk (resolve_iff.mp led).2 stands ahead

/-! ## Directories -/

/-- The place of a directory, if its path leads anywhere. -/
def folderOf (cwd : Place) (dir : Text) : Place := lead (startOf cwd dir) (piecesBefore dir)

theorem folderOf_eq_lead_names (cwd : Place) (dir : Text) :
    folderOf cwd dir = lead (startOf cwd dir) (Path.Posix.names dir) := by
  rw [folderOf, ← lead_filter, Path.names_eq_filter]
  simp only [moves_iff]

/-- A directory is where its path leads. -/
theorem folderOf_eq_placeOf (cwd : Place) (dir : Text) : folderOf cwd dir = placeOf cwd dir := by
  rw [folderOf_eq_lead_names, placeOf_eq_lead_names]

/-- Whether the path of a directory leads to one. -/
structure Standing (fs : FileSystem) (cwd : Place) (dir : Text) : Prop where
  led : fs.walk (startOf cwd dir) (piecesBefore dir) = .ok (folderOf cwd dir)
  directory : fs.get? (folderOf cwd dir) = some .directory

theorem Standing.keeps {dir : Text} (standing : fs.Standing cwd dir)
    (keeps : ∀ q, fs.get? q = some .directory → fs'.get? q = some .directory) :
    fs'.Standing cwd dir :=
  ⟨walk_keeps (fun _ _ => keeps _) standing.led, keeps _ standing.directory⟩

/-- Whether a path to a name can be given to a file system. -/
structure Nameable (path name : Text) : Prop where
  takes : Takes path
  short : tooLong name = false

theorem startOf_congr {path' : Text} (same : Path.Posix.root path = Path.Posix.root path')
    (cwd : Place) :
    startOf cwd path = startOf cwd path' := by
  rw [startOf, startOf, Path.isAbsolute_congr same]

/-- Something is there if it is found. -/
theorem found_or_absent (fs : FileSystem) (cwd : Place) (path : Text) :
    (∃ p n, fs.find cwd path = .ok (p, n) ∧ fs.isThere cwd path = true) ∨
      (∀ p n, fs.find cwd path ≠ .ok (p, n)) ∧ fs.isThere cwd path = false := by
  unfold isThere
  cases fs.find cwd path with
  | error e => exact .inr ⟨nofun, rfl⟩
  | ok f => exact .inl ⟨f.1, f.2, rfl, rfl⟩

/-- A path to a name leads where its names lead. -/
theorem walk_names (bare : '/' ∉ name) (proper : Proper name) (ends : Path.EndsIn name path)
    (fs : FileSystem) (start : Place) :
    fs.walk start (Text.splitOn ['/'] path) = fs.walk start (Path.Posix.names path) := by
  obtain ⟨segs, pieces⟩ := ends.pieces bare
  have own : Path.Posix.names path = (segs.filter fun s => !isStill s) ++ [name] := by
    simp only [Path.Posix.names, pieces, moves_iff, List.filter_append]
    rw [List.filter_cons_of_pos (by simp [isStill_of_proper proper]), List.filter_nil]
  rw [own, walk_filter, pieces]

/-! ## Directories that are made -/

section Made

variable {dir : Text}

theorem makeDirectories_tidy (checked : '\x00' ∉ Path.Posix.tidy dir ∧
    (Utf8.encode (Path.Posix.tidy dir)).length ≤ maxPath)
    (fs : FileSystem) (cwd : Place) :
    fs.makeDirectories cwd (Path.Posix.tidy dir) =
      fs.makeAlong (startOf cwd dir) (piecesBefore dir) := by
  obtain ⟨root, names⟩ := Path.tidy_same dir
  have same : fs.makeAlong (startOf cwd dir) (Text.splitOn ['/'] (Path.Posix.tidy dir)) =
      fs.makeAlong (startOf cwd dir) (piecesBefore dir) := by
    rw [← makeAlong_filter fs _ (Text.splitOn ['/'] (Path.Posix.tidy dir)),
      ← makeAlong_filter fs _ (piecesBefore dir)]
    simp only [← moves_iff]
    rw [← Path.names_eq_filter, ← names, Path.Posix.names]
  rw [makeDirectories, if_neg fun mem => checked.1 (List.contains_iff_mem.mp mem),
    if_neg (Nat.not_lt.mpr checked.2),
    startOf_congr root, same]

theorem checked_of_made (made : (fs.makeDirectories cwd path).2 = none) :
    '\x00' ∉ path ∧ (Utf8.encode path).length ≤ maxPath := by
  unfold makeDirectories at made
  split at made
  · cases made
  · next usable =>
    split at made
    · cases made
    · next short => exact ⟨fun mem => usable (List.contains_iff_mem.mpr mem), Nat.not_lt.mp short⟩

/-- **A directory that was made can be reached.** -/
theorem standing_of_made (tree : fs.IsTree)
    (start : fs.get? (startOf cwd (Path.Posix.tidy dir)) = some .directory)
    (made : (fs.makeDirectories cwd (Path.Posix.tidy dir)).2 = none) :
    (fs.makeDirectories cwd (Path.Posix.tidy dir)).1.Standing cwd dir := by
  have checked := checked_of_made made
  rw [makeDirectories_tidy checked] at made ⊢
  rw [startOf_congr (Path.tidy_same dir).1] at start
  obtain ⟨led, directory⟩ := walk_of_makeAlong tree start made
  exact ⟨led, directory⟩

/-- **A directory that can be reached is not made again.** -/
theorem made_of_standing (checked : '\x00' ∉ Path.Posix.tidy dir ∧
    (Utf8.encode (Path.Posix.tidy dir)).length ≤ maxPath)
    (standing : fs.Standing cwd dir) :
    fs.makeDirectories cwd (Path.Posix.tidy dir) = (fs, none) := by
  rw [makeDirectories_tidy checked]
  exact makeAlong_standing standing.led standing.directory

end Made
end FileSystem

/-! ## Paths to a name -/

namespace Path.InDirectory

open FileSystem

variable {fs : FileSystem} {cwd p : Place} {path dir name : Text}
  (inside : InDirectory path dir name)
include inside

theorem placeOf (cwd : Place) : placeOf cwd path = folderOf cwd dir ++ [name] := by
  rw [FileSystem.placeOf, inside.pieces, lead_concat inside.proper,
    startOf_congr inside.root, folderOf]

/-- A path to a name leads over the directory's places to the name's. -/
theorem onWay {q : Place} (on : OnWay cwd path q) :
    q = FileSystem.placeOf cwd path ∨ OnWay cwd (Posix.parent path) q := by
  obtain ⟨front, ahead, rfl⟩ := onWay_iff.mp on
  rw [inside.names, List.prefix_concat_iff] at ahead
  rcases ahead with rfl | ahead
  · left
    rw [← inside.names, placeOf_eq_lead_names]
  · right
    rw [inside.parent, onWay_tidy]
    exact onWay_iff.mpr ⟨front, ahead, by rw [startOf_congr inside.root]⟩

/-- The directory of a name is on the way there. -/
theorem folder_onWay (cwd : Place) : OnWay cwd (Posix.parent path) (folderOf cwd dir) := by
  rw [inside.parent, onWay_tidy]
  exact onWay_iff.mpr ⟨_, List.prefix_rfl, folderOf_eq_lead_names cwd dir⟩

/-- **A name can be looked for exactly in a directory that can be reached.** -/
theorem resolve_iff : fs.resolve cwd path = .ok p ↔
    Nameable path name ∧ fs.Standing cwd dir ∧ p = folderOf cwd dir ++ [name] := by
  rw [FileSystem.resolve_iff, inside.pieces, startOf_congr inside.root,
    walk_concat_iff inside.proper]
  constructor
  · rintro ⟨takes, led, directory, short, same⟩
    exact ⟨⟨takes, short⟩, ⟨led, directory⟩, same⟩
  · rintro ⟨⟨takes, short⟩, ⟨led, directory⟩, same⟩
    exact ⟨takes, led, directory, short, same⟩

/-- A name is found exactly in a directory that can be reached. -/
theorem find_iff {n : Node} : fs.find cwd path = .ok (p, n) ↔
    Nameable path name ∧ fs.Standing cwd dir ∧ p = folderOf cwd dir ++ [name] ∧
    fs.get? p = some n := by
  rw [FileSystem.find_iff, inside.resolve_iff, and_assoc, and_assoc]

theorem isThere_iff : fs.isThere cwd path = true ↔
    Nameable path name ∧ fs.Standing cwd dir ∧ fs.get? (folderOf cwd dir ++ [name]) ≠ none := by
  rcases fs.found_or_absent cwd path with ⟨p, n, found, there⟩ | ⟨missing, absent⟩
  · obtain ⟨nameable, standing, rfl, given⟩ := inside.find_iff.mp found
    exact ⟨fun _ => ⟨nameable, standing, given ▸ Option.some_ne_none n⟩, fun _ => there⟩
  · refine ⟨fun there => absurd there (by rw [absent]; exact Bool.false_ne_true),
      fun ⟨nameable, standing, given⟩ => ?_⟩
    obtain ⟨n, given⟩ := Option.ne_none_iff_exists'.mp given
    exact absurd (inside.find_iff.mpr ⟨nameable, standing, rfl, given⟩) (missing _ n)

/-- A path that fits can be given to a file system. -/
theorem nameable (fits : Fits path) : Nameable path name where
  takes := by
    refine ⟨fits.usable, fun empty => ?_, fits.short⟩
    have last := congrArg List.getLast? inside.pieces
    rw [empty, List.getLast?_concat] at last
    exact inside.proper.1 (Option.some.inj last).symm
  short := fits.names name (by rw [inside.pieces]; simp)

/-- A path can be tidied and leads to the same place. -/
theorem resolve_tidy (led : fs.resolve cwd path = .ok p) :
    fs.resolve cwd (Posix.tidy path) = .ok p := by
  obtain ⟨⟨usable, given, short⟩, led⟩ := FileSystem.resolve_iff.mp led
  have own : Posix.names path ≠ [] := by rw [inside.names]; simp
  have less := tidy_sublist own
  have ends := inside.ends
  have ends' := ends.tidy inside.bare inside.proper
  refine FileSystem.resolve_iff.mpr ⟨⟨fun mem => usable (less.subset mem), fun empty => ?_, ?_⟩, ?_⟩
  · rcases ends' with same | ⟨front, same⟩
    · exact inside.proper.1 (same.symm.trans empty)
    · simp [empty] at same
  · exact (less.flatMap String.utf8EncodeChar).length_le.trans short
  · obtain ⟨root, names⟩ := tidy_same path
    rw [walk_names inside.bare inside.proper ends', names, startOf_congr root,
      ← walk_names inside.bare inside.proper ends]
    exact led

end Path.InDirectory
end ContractCheck
