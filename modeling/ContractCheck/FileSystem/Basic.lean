import ContractCheck.Text.Utf8
import ContractCheck.Text.Quoted

/-! # File systems

A file system is a value: what stands at each place, a place being the names that lead to it from
the root.  An entry is a directory or a file with its bytes and what may be done with it.  The root
is always a directory.  Some directories may be denied: no entry can be made in them, removed from
them or given another name.  What may be done with a file goes where the file goes, and a directory
that is denied is denied wherever it is moved.

`set`, `erase` and `relocate` change entries without asking; what `get?` gives afterwards is stated
for each of them.  The operations that can fail are built on them.
-/
namespace ContractCheck

/-- The names that lead from the root to an entry. -/
abbrev Place := List Text

/-- What may be done with a file. -/
structure Mode where
  readable : Bool := true
  writable : Bool := true
  executable : Bool := false
deriving DecidableEq

/-- A file that was just made: it can be read and written. -/
abbrev Mode.plain : Mode := {}

/-- A file that can be read, written and run. -/
abbrev Mode.program : Mode := { executable := true }

/-- What stands at a place. -/
inductive Node where
  | directory
  | file (content : Bytes) (mode : Mode)
deriving DecidableEq

/-- Whether what stands at a place can be copied: a directory, or a file that can be read. -/
def Node.copyable : Node → Bool
  | .directory => true
  | .file _ mode => mode.readable

/-- Why a file operation fails. -/
inductive FileError where
  /-- Nothing stands there. -/
  | missing
  /-- A file stands where a directory is needed. -/
  | notDirectory
  /-- A directory stands where a file is needed. -/
  | isDirectory
  /-- Something stands there already. -/
  | occupied
  /-- The directory still has entries. -/
  | notEmpty
  /-- A directory cannot be given a name in itself. -/
  | invalid
  /-- A directory cannot move into itself. -/
  | intoItself (source target : Text)
  /-- A directory that something should move into has an entry of its name already. -/
  | taken (target : Text)
  /-- Files of a directory that could not be read, each with the path of the copy that is
  missing. -/
  | incomplete (files : List (Text × Text))
  /-- A name or the whole path is too long. -/
  | nameTooLong
  /-- The file or the directory may not be used so. -/
  | denied
  /-- The file is no program that can be started. -/
  | notProgram
  /-- A path cannot hold a zero character; no file system is asked. -/
  | unusablePath
deriving DecidableEq, Repr

namespace FileError

/-- The number and the words by which systems know an error. -/
def code : FileError → Nat × Text
  | .missing => (2, "No such file or directory".toList)
  | .notDirectory => (20, "Not a directory".toList)
  | .isDirectory => (21, "Is a directory".toList)
  | .occupied => (17, "File exists".toList)
  | .notEmpty => (39, "Directory not empty".toList)
  | .nameTooLong => (36, "File name too long".toList)
  | .denied => (13, "Permission denied".toList)
  | .notProgram => (8, "Exec format error".toList)
  | .invalid | .intoItself .. | .taken .. | .incomplete _ | .unusablePath =>
    (22, "Invalid argument".toList)

/-- An error that has a number, in words. -/
def numbered (e : FileError) (path : Text) : Text :=
  "[Errno ".toList ++ Text.ofNat e.code.1 ++ "] ".toList ++ e.code.2 ++ ": ".toList ++
    Text.quote path

/-- The error in words, for the path that it is about. -/
def message (path : Text) : FileError → Text
  | .unusablePath => "embedded null byte".toList
  | .intoItself source target =>
    "Cannot move a directory '".toList ++ source ++ "' into itself '".toList ++
      target ++ "'.".toList
  | .taken target => "Destination path '".toList ++ target ++ "' already exists".toList
  | .incomplete files =>
    '[' :: Text.join ", ".toList (files.map fun (source, target) =>
      '(' :: Text.quote source ++ ", ".toList ++ Text.quote target ++ ", ".toList ++
        Text.quote (numbered .denied source) ++ [')']) ++ [']']
  | e => e.numbered path

end FileError

/-- Whether the file system gave the error; an unusable path does not even reach it. -/
def FileError.fromSystem (e : FileError) : Bool := e != .unusablePath

/-- What stands at a place, by the entries. -/
def entryAt (entries : List (Place × Node)) (p : Place) : Option Node :=
  if p = [] then some .directory else entries.lookup p

/-- Entries by place, and the directories that are denied. -/
structure FileSystem where
  entries : List (Place × Node) := []
  denied : List Place := []
  denied_directory : ∀ p ∈ denied, entryAt entries p = some .directory := by
    first | exact List.forall_mem_nil _ | decide
deriving DecidableEq

namespace FileSystem

/-- No files at all. -/
def blank : FileSystem := {}

theorem lookup_filter {β : Type} (keep : Place → Bool) (xs : List (Place × β)) (q : Place) :
    (xs.filter fun e => keep e.1).lookup q = if keep q then xs.lookup q else none := by
  induction xs with
  | nil => simp
  | cons x xs ih =>
    obtain ⟨a, b⟩ := x
    by_cases hq : q = a
    · subst hq
      cases hk : keep q <;> simp [hk, ih]
    · have : (q == a) = false := by simp [hq]
      cases hk : keep a <;> simp [hk, ih, List.lookup_cons, this]

/-- What stands at a place. -/
def get? (fs : FileSystem) (p : Place) : Option Node := entryAt fs.entries p

/-- The file system with an entry set. -/
def set (fs : FileSystem) (p : Place) (n : Node) : FileSystem where
  entries := fs.entries.filter (fun e => e.1 != p) ++ [(p, n)]
  denied := fs.denied.filter fun d => d != p || n == .directory
  denied_directory d mem := by
    obtain ⟨mem, keeps⟩ := List.mem_filter.mp mem
    have stands := fs.denied_directory d mem
    unfold entryAt at stands ⊢
    split
    · rfl
    · next below =>
      rw [if_neg below] at stands
      rw [List.lookup_append, lookup_filter (· != p)]
      by_cases same : d = p
      · subst same
        have : n = .directory := by simpa using keeps
        simp [this]
      · simp [same, stands]

/-- The file system without the entry at a place and everything below it. -/
def erase (fs : FileSystem) (p : Place) : FileSystem where
  entries := fs.entries.filter fun e => !p.isPrefixOf e.1
  denied := fs.denied.filter fun d => !p.isPrefixOf d
  denied_directory d mem := by
    obtain ⟨mem, apart⟩ := List.mem_filter.mp mem
    have stands := fs.denied_directory d mem
    unfold entryAt at stands ⊢
    split
    · rfl
    · next below =>
      rw [if_neg below] at stands
      rw [lookup_filter (fun k => !p.isPrefixOf k), if_pos apart, stands]

/-- The place that an entry at or below `source` has once `source` has become `target`. -/
def moved (source target p : Place) : Place := target ++ p.drop source.length

theorem lookup_filter_of_keep {keep : Node → Bool} {xs : List (Place × Node)} {q : Place} {n : Node}
    (given : xs.lookup q = some n) (keeps : keep n = true) :
    (xs.filter fun e => keep e.2).lookup q = some n := by
  induction xs with
  | nil => cases given
  | cons x xs ih =>
    obtain ⟨k, m⟩ := x
    rw [List.lookup_cons] at given
    rw [List.filter_cons]
    cases here : q == k with
    | true =>
      rw [here] at given
      obtain rfl := Option.some.inj given
      rw [if_pos keeps, List.lookup_cons, here]
    | false =>
      rw [here] at given
      split
      · rw [List.lookup_cons, here, ih given]
      · exact ih given

/-- What is carried from one place to another keeps its way from there. -/
theorem lookup_carried (es : List (Place × Node)) (p q rest : Place) :
    ((es.filter fun e => p.isPrefixOf e.1).map fun e => (moved p q e.1, e.2)).lookup (q ++ rest) =
      es.lookup (p ++ rest) := by
  induction es with
  | nil => rfl
  | cons e es ih =>
    obtain ⟨k, n⟩ := e
    by_cases below : p <+: k
    · obtain ⟨r, rfl⟩ := below
      have inside : p.isPrefixOf (p ++ r) = true :=
        List.isPrefixOf_iff_prefix.mpr (List.prefix_append p r)
      have goal : moved p q (p ++ r) = q ++ r := by rw [moved, List.drop_left]
      have same : (q ++ rest == q ++ r) = (p ++ rest == p ++ r) := by
        rw [Bool.eq_iff_iff]
        simp
      rw [List.filter_cons, if_pos inside, List.map_cons, List.lookup_cons, List.lookup_cons, goal,
        ih, same]
    · have outside : ¬ p.isPrefixOf k = true := fun mem => below (List.isPrefixOf_iff_prefix.mp mem)
      have other : (p ++ rest == k) = false :=
        beq_eq_false_iff_ne.mpr fun same => below (same ▸ List.prefix_append p rest)
      rw [List.filter_cons, if_neg outside, List.lookup_cons, other, ih]

/-- The file system with the entry at `source`, and everything below it, at `target` instead. -/
def relocate (fs : FileSystem) (source target : Place) : FileSystem where
  entries :=
    (fs.entries.filter fun e => !source.isPrefixOf e.1 && !target.isPrefixOf e.1) ++
      (fs.entries.filter fun e => source.isPrefixOf e.1).map fun e => (moved source target e.1, e.2)
  denied :=
    (fs.denied.filter fun d => !source.isPrefixOf d && !target.isPrefixOf d) ++
      (fs.denied.filter fun d => source.isPrefixOf d && d != []).map (moved source target)
  denied_directory d mem := by
    unfold entryAt
    split
    · rfl
    next below =>
    rw [List.lookup_append, lookup_filter (fun k => !source.isPrefixOf k && !target.isPrefixOf k)]
    rcases List.mem_append.mp mem with kept | carried
    · obtain ⟨mem, apart⟩ := List.mem_filter.mp kept
      have stands := fs.denied_directory d mem
      rw [entryAt, if_neg below] at stands
      rw [if_pos apart, stands, Option.some_or]
    · obtain ⟨d, origin, rfl⟩ := List.mem_map.mp carried
      obtain ⟨mem, inside⟩ := List.mem_filter.mp origin
      obtain ⟨front, given⟩ := Bool.and_eq_true_iff.mp inside
      obtain ⟨rest, rfl⟩ := List.isPrefixOf_iff_prefix.mp front
      have stands := fs.denied_directory _ mem
      rw [entryAt, if_neg (by simpa using given)] at stands
      have within : target.isPrefixOf (target ++ rest) = true :=
        List.isPrefixOf_iff_prefix.mpr (List.prefix_append target rest)
      rw [moved, List.drop_left, within, Bool.not_true, Bool.and_false, if_neg Bool.false_ne_true,
        Option.none_or, lookup_carried, stands]

/-- The file system with the directories and the files that can be read, of what is at `source` and
below, at `target` as well. -/
def graft (fs : FileSystem) (source target : Place) : FileSystem where
  entries :=
    (fs.entries.filter fun e => !target.isPrefixOf e.1) ++
      ((fs.entries.filter fun e => e.2.copyable).filter fun e => source.isPrefixOf e.1).map
        fun e => (moved source target e.1, e.2)
  denied :=
    (fs.denied.filter fun d => !target.isPrefixOf d) ++
      (fs.denied.filter fun d => source.isPrefixOf d && d != []).map (moved source target)
  denied_directory d mem := by
    unfold entryAt
    split
    · rfl
    next below =>
    rw [List.lookup_append, lookup_filter (fun k => !target.isPrefixOf k)]
    rcases List.mem_append.mp mem with kept | carried
    · obtain ⟨mem, apart⟩ := List.mem_filter.mp kept
      have stands := fs.denied_directory d mem
      rw [entryAt, if_neg below] at stands
      rw [if_pos apart, stands, Option.some_or]
    · obtain ⟨d, origin, rfl⟩ := List.mem_map.mp carried
      obtain ⟨mem, inside⟩ := List.mem_filter.mp origin
      obtain ⟨front, given⟩ := Bool.and_eq_true_iff.mp inside
      obtain ⟨rest, rfl⟩ := List.isPrefixOf_iff_prefix.mp front
      have stands := fs.denied_directory _ mem
      rw [entryAt, if_neg (by simpa using given)] at stands
      have within : target.isPrefixOf (target ++ rest) = true :=
        List.isPrefixOf_iff_prefix.mpr (List.prefix_append target rest)
      rw [moved, List.drop_left, within, Bool.not_true, if_neg Bool.false_ne_true, Option.none_or,
        lookup_carried, lookup_filter_of_keep stands rfl]

/-- Whether a directory has entries. -/
def occupied (fs : FileSystem) (p : Place) : Bool :=
  fs.entries.any fun e => p.isPrefixOf e.1 && e.1 != p

/-- The names in a directory. -/
def names (fs : FileSystem) (p : Place) : List Text :=
  fs.entries.filterMap fun e =>
    if e.1.length = p.length + 1 ∧ p.isPrefixOf e.1 then e.1.getLast? else none

/-- **The entry that was set is found.** -/
theorem get?_set_self (fs : FileSystem) {p : Place} (n : Node) (hp : p ≠ []) :
    (fs.set p n).get? p = some n := by
  simp [get?, entryAt, set, hp, List.lookup_append, lookup_filter (· != p)]

/-- **Setting an entry changes no other one.** -/
theorem get?_set_of_ne (fs : FileSystem) {p q : Place} (n : Node) (h : q ≠ p) :
    (fs.set p n).get? q = fs.get? q := by
  have hq : (q == p) = false := by simp [h]
  have hk : (q != p) = true := by simp [h]
  simp [get?, entryAt, set, List.lookup_append, lookup_filter (· != p), List.lookup_cons, hq, hk]

/-- **Erasing an entry takes away what is at or below it, and nothing else.** -/
theorem get?_erase (fs : FileSystem) (p : Place) {q : Place} (hq : q ≠ []) :
    (fs.erase p).get? q = if p.isPrefixOf q then none else fs.get? q := by
  simp only [get?, entryAt, erase, hq, if_false]
  rw [lookup_filter (fun k => !p.isPrefixOf k)]
  cases p.isPrefixOf q <;> simp

/-- What is denied is a directory. -/
theorem directory_of_denied {fs : FileSystem} {p : Place} (mem : p ∈ fs.denied) :
    fs.get? p = some .directory := fs.denied_directory p mem

/-- A file that is set where no directory stands denies as much as before. -/
theorem denied_set {fs : FileSystem} {p : Place} {n : Node}
    (free : fs.get? p = some .directory → n = .directory) : (fs.set p n).denied = fs.denied := by
  refine List.filter_eq_self.mpr fun d mem => ?_
  by_cases same : d = p
  · subst same
    simp [free (directory_of_denied mem)]
  · simp [same]

end FileSystem
end ContractCheck
