import ContractCheck.Path.Posix
import ContractCheck.Proofs.Text.Pieces

/-! # Absolute paths as rows of segments

An absolute path is a row of segments with a slash in front of each (`slashed`).
-/
namespace ContractCheck.Path

variable {segs : List Text}

/-- The segments with a slash in front of each. -/
def slashed (segs : List Text) : Text := segs.flatMap fun s => '/' :: s

@[simp] theorem slashed_nil : slashed [] = [] := rfl

@[simp] theorem slashed_cons (s : Text) (segs : List Text) :
    slashed (s :: segs) = '/' :: (s ++ slashed segs) := rfl

@[simp] theorem slashed_append (segs more : List Text) :
    slashed (segs ++ more) = slashed segs ++ slashed more := List.flatMap_append

theorem slashed_eq_join (given : segs ≠ []) : slashed segs = '/' :: Text.join ['/'] segs := by
  induction segs with
  | nil => exact absurd rfl given
  | cons s segs ih =>
    cases segs with
    | nil => simp [Text.join]
    | cons t rest =>
      rw [slashed_cons, ih (List.cons_ne_nil t rest), Text.join, List.append_assoc]; rfl

/-- Whether no segment has a slash in it. -/
def Plain (segs : List Text) : Prop := ∀ s ∈ segs, '/' ∉ s

theorem splitOn_slashed (plain : Plain segs) : Text.splitOn ['/'] (slashed segs) = [] :: segs := by
  -- With the text before the first slash the induction goes through.
  have behind : ∀ first : Text, '/' ∉ first →
      Text.splitOn ['/'] (first ++ slashed segs) = first :: segs := by
    induction segs with
    | nil =>
      intro first bare
      rw [slashed_nil, List.append_nil, Text.splitOn_of_not_mem bare]
    | cons s segs ih =>
      intro first bare
      obtain ⟨here, rest⟩ := List.forall_mem_cons.mp plain
      rw [slashed_cons, Text.splitOn_append_sep bare, ih rest s here]
  exact behind [] List.not_mem_nil

/-- An absolute path is a row of segments. -/
theorem slashed_of_absolute {p : Text} (absolute : Posix.isAbsolute p = true) :
    ∃ segs, segs ≠ [] ∧ Plain segs ∧ p = slashed segs ∧ Text.splitOn ['/'] p = [] :: segs := by
  cases p with
  | nil => cases absolute
  | cons c r =>
    obtain rfl : '/' = c := by simpa [Posix.isAbsolute, Text.startsWith] using absolute
    have given := Text.splitOn_ne_nil ['/'] r
    refine ⟨Text.splitOn ['/'] r, given, fun s mem => Text.not_mem_of_mem_splitOn mem, ?_,
      Text.splitOn_cons_sep '/' r⟩
    rw [slashed_eq_join given, Text.join_splitOn (List.cons_ne_nil _ _)]

theorem mem_slashed {c : Char} {s : Text} (mem : s ∈ segs) (inside : c ∈ s) : c ∈ slashed segs :=
  List.mem_flatMap.mpr ⟨s, mem, List.mem_cons_of_mem _ inside⟩

theorem not_mem_slashed {c : Char} (other : c ≠ '/') (free : ∀ s ∈ segs, c ∉ s) :
    c ∉ slashed segs := by
  intro mem
  obtain ⟨s, inside, here⟩ := List.mem_flatMap.mp mem
  exact free s inside (List.mem_of_ne_of_mem other here)

/-- A row ends as its last segment does. -/
theorem getLast?_slashed {x : Text} (last : segs.getLast? = some x) (given : x ≠ []) :
    (slashed segs).getLast? = x.getLast? := by
  obtain ⟨front, rfl⟩ := List.getLast?_eq_some_iff.mp last
  have shape : slashed (front ++ [x]) = (slashed front ++ ['/']) ++ x := by simp
  rw [shape, List.getLast?_append_of_ne_nil _ given]

/-- Rows with the same text are the same. -/
theorem slashed_inj {more : List Text} (plain : Plain segs) (plain' : Plain more)
    (same : slashed segs = slashed more) : segs = more := by
  have pieces := congrArg (Text.splitOn ['/']) same
  rw [splitOn_slashed plain, splitOn_slashed plain'] at pieces
  exact (List.cons.inj pieces).2

/-! ## Reading paths from a directory -/

theorem isAbsolute_of_not_mem {p : Text} (bare : '/' ∉ p) : Posix.isAbsolute p = false := by
  rw [Bool.eq_false_iff]
  intro absolute
  exact bare ((Text.startsWith_iff.mp absolute).subset List.mem_cons_self)

theorem isAbsolute_join {dir p : Text} (absolute : Posix.isAbsolute dir = true) :
    Posix.isAbsolute (Posix.join dir p) = true := by
  obtain ⟨rest, rfl⟩ := Text.startsWith_iff.mp absolute
  unfold Posix.join
  split
  · assumption
  · split <;> rfl

/-- A row whose last segment is not empty does not end with a slash. -/
theorem endsWith_slashed (plain : Plain segs) {x : Text} (last : segs.getLast? = some x)
    (given : x ≠ []) :
    Text.endsWith (slashed segs) ['/'] = false := by
  rw [Bool.eq_false_iff]
  intro ends
  obtain ⟨rest, split⟩ := List.isSuffixOf_iff_suffix.mp ends
  have slash : x.getLast? = some '/' := by
    rw [← getLast?_slashed last given, ← split, List.getLast?_concat]
  exact plain x (List.mem_of_getLast? last) (List.mem_of_getLast? slash)

/-- A relative path that is read from a row of segments stands behind it. -/
theorem join_slashed (plain : Plain segs) (ends : ∃ x, segs.getLast? = some x ∧ x ≠ []) {p : Text}
    (relative : Posix.isAbsolute p = false) :
    Posix.join (slashed segs) p = slashed segs ++ '/' :: p := by
  obtain ⟨x, last, given⟩ := ends
  have some : (slashed segs).isEmpty = false := by
    cases segs with
    | nil => cases last
    | cons y r => rfl
  simp [Posix.join, relative, some, endsWith_slashed plain last given]

/-- A path behind a row of segments makes the row longer. -/
theorem row_append (segs : List Text) (p : Text) :
    slashed segs ++ '/' :: p = slashed (segs ++ Text.splitOn ['/'] p) := by
  rw [slashed_append, slashed_eq_join (Text.splitOn_ne_nil _ _),
    Text.join_splitOn (List.cons_ne_nil _ _)]

/-- The directory of a name behind a row of segments is the row. -/
theorem dirname_row (plain : Plain segs) (ends : ∃ x, segs.getLast? = some x ∧ x ≠ []) {name : Text}
    (bare : '/' ∉ name) : Posix.dirname (slashed segs ++ '/' :: name) = slashed segs := by
  obtain ⟨x, last, given⟩ := ends
  obtain ⟨y, c, rfl⟩ := (List.eq_nil_or_concat x).resolve_left given
  have final : (slashed segs).getLast? = some c := by simp [getLast?_slashed last given]
  have other : c ≠ '/' := by
    rintro rfl
    exact plain _ (List.mem_of_getLast? last) (by simp)
  have cut : Posix.cutName (slashed segs ++ '/' :: name) = (slashed segs ++ ['/'], name) := by
    rw [Posix.cutName, Text.cutLast_append bare]
  have named : ¬ ((slashed segs ++ ['/']).all (· == '/')) = true := by
    intro all
    have slash := List.all_eq_true.mp all c (List.mem_append_left _ (List.mem_of_getLast? final))
    exact other (eq_of_beq slash)
  rw [Posix.dirname, cut]
  dsimp only
  rw [if_neg named]
  refine Text.dropEndWhile_append (by simp) fun x there => ?_
  obtain rfl := Option.some.inj (final.symm.trans there)
  exact beq_false_of_ne other

end ContractCheck.Path
