import ContractCheck.Proofs.FileSystem.Contents
import ContractCheck.Proofs.FileSystem.Standing
import ContractCheck.Proofs.Path.Straight
import Mathlib.Data.List.Infix

/-! # File systems that differ in some files

Whoever writes to a file over and over, as a log does, leaves a file system that differs from the
one before only there, and in the directories that were made for the file (`AlikeBut`).  In a file
system that is a tree, a path that only climbs at its start leads to a file afterwards exactly if it
did before, unless it leads to the file that is written (`AlikeBut.isFile`).
-/
namespace ContractCheck.FileSystem

open ContractCheck.Path (up Straight)

variable {fs fs' fs'' : FileSystem} {cwd dir p : Place} {path : Text} {names : List Text}
  {hidden made : Place → Prop}

/-- Whether all that stands somewhere stands in a directory. -/
def IsTree (fs : FileSystem) : Prop :=
  ∀ p n, fs.get? p = some n → ∀ dir, dir <+: p → dir ≠ p → fs.get? dir = some .directory

theorem mem_entries {n : Node} (there : fs.get? p = some n) :
    p = [] ∧ n = .directory ∨ (p, n) ∈ fs.entries := by
  unfold get? entryAt at there
  split at there
  · next root => exact .inl ⟨root, (Option.some.inj there).symm⟩
  · obtain ⟨front, rest, shape, -⟩ := List.lookup_eq_some_iff.mp there
    exact .inr (shape ▸ List.mem_append_right _ List.mem_cons_self)

/-- A tree can be told by its entries. -/
theorem isTree_of_entries (below : ∀ e ∈ fs.entries, ∀ dir ∈ e.1.inits, dir ≠ e.1 →
    fs.get? dir = some .directory) :
    fs.IsTree := by
  intro p n there dir front other
  rcases mem_entries there with ⟨rfl, -⟩ | mem
  · exact absurd (List.prefix_nil.mp front) other
  · exact below _ mem dir ((List.mem_inits dir p).mpr front) other

/-- Whether file systems differ at most at hidden places, where a file is now that was one or was
not there, and in directories that were made. -/
structure AlikeBut (hidden made : Place → Prop) (fs fs' : FileSystem) : Prop where
  denied : fs'.denied = fs.denied
  entry : ∀ q, fs'.get? q = fs.get? q ∨
    (hidden q ∧ fs.get? q ≠ some .directory ∧ ∃ content x, fs'.get? q = some (.file content x)) ∨
    (made q ∧ fs.get? q = none ∧ fs'.get? q = some .directory)

namespace AlikeBut

theorem refl (hidden made : Place → Prop) (fs : FileSystem) : AlikeBut hidden made fs fs :=
  ⟨rfl, fun _ => .inl rfl⟩

theorem mono {hidden' made' : Place → Prop} (alike : AlikeBut hidden made fs fs')
    (less : ∀ q, hidden q → hidden' q)
    (less' : ∀ q, made q → made' q) : AlikeBut hidden' made' fs fs' where
  denied := alike.denied
  entry q := (alike.entry q).imp_right (Or.imp (And.imp_left (less q)) (And.imp_left (less' q)))

theorem trans (first : AlikeBut hidden made fs fs') (second : AlikeBut hidden made fs' fs'') :
    AlikeBut hidden made fs fs'' where
  denied := second.denied.trans first.denied
  entry q := by
    rcases first.entry q with same | ⟨inside, free, content, x, file⟩ | ⟨new, none, directory⟩
    · rw [← same]
      exact second.entry q
    · rcases second.entry q with same | ⟨-, -, file'⟩ | ⟨-, none, -⟩
      · exact .inr (.inl ⟨inside, free, content, x, same.trans file⟩)
      · exact .inr (.inl ⟨inside, free, file'⟩)
      · cases none.symm.trans file
    · rcases second.entry q with same | ⟨-, free, -⟩ | ⟨-, none', -⟩
      · exact .inr (.inr ⟨new, none, same.trans directory⟩)
      · exact absurd directory free
      · cases none'.symm.trans directory

variable (alike : AlikeBut hidden made fs fs')
include alike

/-- Files that are not hidden are the same files. -/
theorem file_iff {q : Place} (shown : ¬ hidden q) {content : Bytes} {x : Mode} :
    fs'.get? q = some (.file content x) ↔ fs.get? q = some (.file content x) := by
  rcases alike.entry q with same | ⟨inside, -⟩ | ⟨-, none, directory⟩
  · rw [same]
  · exact absurd inside shown
  · rw [none, directory]
    exact ⟨nofun, nofun⟩

theorem grows : Grows fs fs' where
  directory q there := by
    rcases alike.entry q with same | ⟨-, free, -⟩ | ⟨-, -, directory⟩
    · rw [same, there]
    · exact absurd there free
    · exact directory
  entry q there := by
    rcases alike.entry q with same | ⟨-, -, content, x, file⟩ | ⟨-, -, directory⟩
    · rwa [same]
    · rw [file]
      rfl
    · rw [directory]
      rfl

end AlikeBut

/-! ## Paths that only climb at their start -/

/-- Names that do not climb lead below where they start. -/
theorem walk_below (level : up ∉ names) (led : fs.walk dir names = .ok p) : dir <+: p := by
  induction names generalizing dir with
  | nil =>
    obtain rfl := Except.ok.inj led
    exact List.prefix_rfl
  | cons name rest ih =>
    obtain ⟨stays, level⟩ := List.ne_and_not_mem_of_not_mem_cons level
    simp only [walk] at led
    split at led
    · cases led
    · cases led
    · split at led
      · exact ih level led
      · rw [if_neg stays.symm] at led
        split at led
        · cases led
        · exact (List.prefix_append dir [name]).trans (ih level led)

/-- **What led to a file that was there before led there before**: the directories on the way were
there too. -/
theorem walk_back (tree : fs.IsTree) {content : Bytes} {x : Mode}
    (there : fs.get? p = some (.file content x)) (there' : fs'.get? p = some (.file content x))
    (level : up ∉ names) (led : fs'.walk dir names = .ok p) :
    fs.walk dir names = .ok p := by
  induction names generalizing dir with
  | nil => exact led
  | cons name rest ih =>
    have below := walk_below level led
    obtain ⟨stays, level⟩ := List.ne_and_not_mem_of_not_mem_cons level
    simp only [walk] at led ⊢
    split at led
    · cases led
    · cases led
    · next directory =>
      have above : fs.get? dir = some .directory := by
        refine tree p _ there dir below ?_
        rintro rfl
        cases directory.symm.trans there'
      rw [above]
      dsimp only
      split at led
      · next still => rw [if_pos still, ih level led]
      · next moves =>
        rw [if_neg stays.symm] at led
        rw [if_neg moves, if_neg stays.symm]
        split at led
        · cases led
        · next short => rw [if_neg short, ih level led]

theorem IsTree.dropLast (tree : fs.IsTree) (stands : fs.get? dir = some .directory) :
    fs.get? dir.dropLast = some .directory := by
  by_cases same : dir.dropLast = dir
  · rw [same, stands]
  · exact tree dir _ stands _ dir.dropLast_prefix same

theorem walk_up (stands : fs.get? dir = some .directory) (names : List Text) :
    fs.walk dir (up :: names) = fs.walk dir.dropLast names := by
  rw [walk, stands]
  rfl

/-! ## Paths that lead somewhere -/

/-- Whether a path can be followed at all: it is given, not too long, and without a zero
character. -/
def Takes (path : Text) : Prop := '\x00' ∉ path ∧ path ≠ [] ∧ (Utf8.encode path).length ≤ maxPath

theorem resolve_iff :
    fs.resolve cwd path = .ok p ↔ Takes path ∧
    fs.walk (startOf cwd path) (Text.splitOn ['/'] path) = .ok p := by
  unfold resolve Takes
  split
  · next zero => exact ⟨nofun, fun takes => absurd (List.contains_iff_mem.mp zero) takes.1.1⟩
  · next usable =>
    split
    · next empty => exact ⟨nofun, fun takes => absurd (List.isEmpty_iff.mp empty) takes.1.2.1⟩
    · next given =>
      split
      · next long => exact ⟨nofun, fun takes => absurd takes.1.2.2 (Nat.not_le.mpr long)⟩
      · next short =>
        refine ⟨fun led =>
          ⟨⟨fun mem => usable (List.contains_iff_mem.mpr mem), ?_, Nat.not_lt.mp short⟩, led⟩,
          And.right⟩
        rintro rfl
        exact given rfl

theorem find_iff {n : Node} :
    fs.find cwd path = .ok (p, n) ↔ fs.resolve cwd path = .ok p ∧ fs.get? p = some n := by
  unfold find
  cases fs.resolve cwd path with
  | error e => exact ⟨nofun, fun ⟨led, _⟩ => nomatch led⟩
  | ok q =>
    dsimp only [bind, Except.bind]
    cases there : fs.get? q with
    | none =>
      refine ⟨nofun, fun ⟨led, given⟩ => ?_⟩
      obtain rfl := Except.ok.inj led
      cases there.symm.trans given
    | some n' =>
      constructor
      · rintro ⟨⟩
        exact ⟨rfl, there⟩
      · rintro ⟨led, given⟩
        obtain rfl := Except.ok.inj led
        rw [← Option.some.inj (there.symm.trans given)]

theorem isFile_iff : fs.isFile cwd path = true ↔ ∃ p content x,
    fs.find cwd path = .ok (p, .file content x) := by
  unfold isFile
  rcases fs.find cwd path with e | ⟨p, _ | ⟨content, x⟩⟩
  · exact ⟨nofun, nofun⟩
  · exact ⟨nofun, nofun⟩
  · exact ⟨fun _ => ⟨p, content, x, rfl⟩, fun _ => rfl⟩

theorem isDirectory_iff : fs.isDirectory cwd path = true ↔
    ∃ p, fs.find cwd path = .ok (p, .directory) := by
  unfold isDirectory
  rcases fs.find cwd path with e | ⟨p, _ | ⟨content, x⟩⟩
  · exact ⟨nofun, nofun⟩
  · exact ⟨fun _ => ⟨p, rfl⟩, fun _ => rfl⟩
  · exact ⟨nofun, nofun⟩

/-- What is there and can be written is a file. -/
theorem isFile_of_written {content : Bytes} (written : fs.write cwd path content = .ok fs')
    (there : fs.isThere cwd path = true) : fs.isFile cwd path = true := by
  obtain ⟨p, x, led, -, -, -, ⟨none, -⟩ | ⟨-, old, file⟩⟩ := write_get? written
  · unfold isThere find at there
    rw [led] at there
    dsimp only [bind, Except.bind] at there
    rw [none] at there
    cases there
  · exact isFile_iff.mpr ⟨p, old, x, find_iff.mpr ⟨led, file⟩⟩

theorem isFile_takes (file : fs.isFile cwd path = true) : Takes path := by
  obtain ⟨p, content, x, found⟩ := isFile_iff.mp file
  exact (resolve_iff.mp (find_iff.mp found).1).1

theorem read_iff {bytes : Bytes} :
    fs.read cwd path = .ok bytes ↔
      ∃ p x, fs.resolve cwd path = .ok p ∧ fs.get? p = some (.file bytes x) ∧
        x.readable = true := by
  unfold read
  constructor
  · intro done
    cases found : fs.find cwd path with
    | error e =>
      rw [found] at done
      cases done
    | ok entry =>
      obtain ⟨p, n⟩ := entry
      rw [found] at done
      cases n with
      | directory => cases done
      | file content x =>
        obtain ⟨led, there⟩ := find_iff.mp found
        dsimp only [bind, Except.bind] at done
        split at done
        · next allowed =>
          obtain rfl := Except.ok.inj done
          exact ⟨p, x, led, there, allowed⟩
        · cases done
  · rintro ⟨p, x, led, there, allowed⟩
    rw [find_iff.mpr ⟨led, there⟩]
    exact if_pos allowed

/-- A file that is there is refused by the system, if at all. -/
theorem read_fromSystem_of_isFile {e : FileError} (file : fs.isFile cwd path = true)
    (failed : fs.read cwd path = .error e) : e.fromSystem = true :=
  read_fromSystem (isFile_takes file).1 failed

namespace AlikeBut

variable (alike : AlikeBut hidden made fs fs') (tree : fs.IsTree)
  (stands : fs.get? cwd = some .directory)
  (straight : Straight (Text.splitOn ['/'] path)) (shown : ¬ hidden (placeOf cwd path))
include alike tree stands straight shown

/-- **A path leads to a file as it did before.** -/
theorem find_iff {content : Bytes} {x : Mode} :
    fs'.find cwd path = .ok (p, .file content x) ↔ fs.find cwd path = .ok (p, .file content x) := by
  rw [FileSystem.find_iff, FileSystem.find_iff]
  constructor
  · rintro ⟨led, there'⟩
    have same := resolve_place led
    have there := (alike.file_iff (same ▸ shown)).mp there'
    obtain ⟨takes, led⟩ := resolve_iff.mp led
    obtain ⟨k, rest, shape, level⟩ := straight
    have root : fs.get? (startOf cwd path) = some .directory := by
      unfold startOf
      split
      · rfl
      · exact stands
    refine ⟨resolve_iff.mpr ⟨takes, ?_⟩, there⟩
    rw [shape] at led ⊢
    clear shape
    generalize startOf cwd path = dir at led root ⊢
    induction k generalizing dir with
    | zero => exact walk_back tree there there' level led
    | succ k ih =>
      rw [List.replicate_succ, List.cons_append] at led ⊢
      rw [walk_up (alike.grows.directory _ root)] at led
      rw [walk_up root]
      exact ih _ led (tree.dropLast root)
  · rintro ⟨led, there⟩
    have same := resolve_place led
    obtain ⟨takes, led⟩ := resolve_iff.mp led
    exact ⟨resolve_iff.mpr ⟨takes, alike.grows.walk led⟩, (alike.file_iff (same ▸ shown)).mpr there⟩

theorem isFile : fs'.isFile cwd path = fs.isFile cwd path := by
  rw [Bool.eq_iff_iff, isFile_iff, isFile_iff]
  simp only [alike.find_iff tree stands straight shown]

/-- **A file reads as it did before.** -/
theorem read (file : fs.isFile cwd path = true) : fs'.read cwd path = fs.read cwd path := by
  obtain ⟨p, content, x, found⟩ := isFile_iff.mp file
  unfold FileSystem.read
  rw [(alike.find_iff tree stands straight shown).mpr found, found]

end AlikeBut

/-! ## What changes a file, and what makes directories -/

theorem alike_set {n : Node} (free : fs.get? p ≠ some .directory)
    (may : (hidden p ∧ ∃ content x, n = .file content x) ∨
      (made p ∧ fs.get? p = none ∧ n = .directory)) :
    AlikeBut hidden made fs (fs.set p n) := by
  have below : p ≠ [] := by
    rintro rfl
    exact free rfl
  refine ⟨denied_set fun directory => absurd directory free, fun q => ?_⟩
  by_cases here : q = p
  · subst here
    rw [get?_set_self fs n below]
    rcases may with ⟨inside, content, x, rfl⟩ | ⟨new, none, rfl⟩
    · exact .inr (.inl ⟨inside, free, content, x, rfl⟩)
    · exact .inr (.inr ⟨new, none, rfl⟩)
  · exact .inl (get?_set_of_ne fs n here)

/-- Changing a file changes what its path leads to. -/
theorem update_alike {change : Bytes → Bytes} (done : fs.update cwd path change = .ok fs')
    (inside : hidden (placeOf cwd path)) : AlikeBut hidden made fs fs' := by
  unfold update at done
  split at done
  · cases done
  · cases led : fs.resolve cwd path with
    | error e => rw [led] at done; cases done
    | ok p =>
      obtain rfl := resolve_place led
      rw [led] at done
      dsimp only [bind, Except.bind] at done
      split at done
      · cases done
      · next content x there =>
        split at done
        · obtain rfl := Except.ok.inj done
          exact alike_set (by rw [there]; nofun) (.inl ⟨inside, _, _, rfl⟩)
        · cases done
      · next free =>
        split at done
        · cases done
        · obtain rfl := Except.ok.inj done
          exact alike_set (by rw [free]; nofun) (.inl ⟨inside, _, _, rfl⟩)

theorem makeAlong_alike (all : ∀ q, made q) (fs : FileSystem) (dir : Place) (names : List Text) :
    AlikeBut hidden made fs (fs.makeAlong dir names).1 := by
  induction names generalizing fs dir with
  | nil => exact .refl _ _ fs
  | cons name rest ih =>
    simp only [makeAlong]
    split
    · exact ih fs dir
    · split
      · exact ih fs dir.dropLast
      · split
        · exact .refl _ _ fs
        · split
          · exact ih fs (dir ++ [name])
          · exact .refl _ _ fs
          · next none =>
            split
            · exact .refl _ _ fs
            · exact (alike_set (by rw [none]; exact (Option.some_ne_none _).symm)
                (.inr ⟨all _, none, rfl⟩)).trans (ih _ _)

theorem makeDirectories_alike (all : ∀ q, made q) (fs : FileSystem) (cwd : Place) (path : Text) :
    AlikeBut hidden made fs (fs.makeDirectories cwd path).1 := by
  unfold makeDirectories
  split
  · exact .refl _ _ fs
  · split
    · exact .refl _ _ fs
    · exact makeAlong_alike all ..

end ContractCheck.FileSystem
