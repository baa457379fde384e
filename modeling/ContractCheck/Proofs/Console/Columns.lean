import ContractCheck.Proofs.Console.Positions
import Mathlib.Data.List.Forall2

/-! # Columns of tables

Every column of a table is as wide as its widest cell, its header among them, and two spaces stand
behind it.  So the start of a column is a sum over the columns before it, and it does not depend on
the row (`LaidOut`).  A row may have fewer cells than there are headers.  A cell without a header
has no column: it widens nothing, but its row and the rows below it are missing from the table
(`Console.table_columns`).
-/
namespace ContractCheck.Console

/-! ## Columns -/

/-- The cells of a column, its header first. -/
def column (headers : List Text) (rows : List (List Text)) (j : Nat) : List Text :=
  (headers :: rows).filterMap (·[j]?)

/-- The length of the widest cell of a column. -/
def widest (headers : List Text) (rows : List (List Text)) (j : Nat) : Nat :=
  ((column headers rows j).map List.length).max?.getD 0

/-- Where the cells of a column start. -/
def columnStart (headers : List Text) (rows : List (List Text)) : Nat → Nat
  | 0 => 0
  | j + 1 => columnStart headers rows j + widest headers rows j + 2

/-- A line in which every cell stands at the start of its column, with nothing but spaces from there
to the next. -/
structure LaidOut (start : Nat → Nat) (cells : List Text) (line : Text) : Prop where
  reaches : ∀ j (h : j < cells.length), start j + cells[j].length ≤ line.length
  shows : ∀ j (h : j < cells.length), ∃ gap,
    line.drop (start j) = cells[j] ++ List.replicate gap ' ' ++ line.drop (start (j + 1))

variable {headers : List Text} {rows : List (List Text)} {j : Nat}

theorem length_le_widest {c : Text} (mem : c ∈ column headers rows j) :
    c.length ≤ widest headers rows j :=
  List.le_max?_getD_of_mem (List.mem_map_of_mem mem)

/-- Two spaces or more stand behind the widest cell of a column. -/
theorem columnStart_apart {c : Text} (mem : c ∈ column headers rows j) :
    columnStart headers rows j + c.length + 2 ≤ columnStart headers rows (j + 1) := by
  have wide := length_le_widest mem
  show _ ≤ columnStart headers rows j + widest headers rows j + 2
  omega

theorem mem_column {r : List Text} (listed : r ∈ headers :: rows) (h : j < r.length) :
    r[j] ∈ column headers rows j :=
  List.mem_filterMap.mpr ⟨r, listed, List.getElem?_eq_getElem h⟩

/-! ## Widths -/

theorem length_widen (ws : List Nat) (r : List Text) : (widen ws r).length = ws.length := by
  induction ws, r using widen.induct with
  | case1 => rfl
  | case2 => rfl
  | case3 w ws c cs ih => exact congrArg (· + 1) ih

theorem widen_getElem? (ws : List Nat) (r : List Text) (j : Nat) :
    (widen ws r)[j]? = ws[j]?.map fun w => (r[j]?.map List.length).toList.foldl max w := by
  induction ws, r using widen.induct generalizing j with
  | case1 => rfl
  | case2 w ws =>
    rw [widen, List.getElem?_nil]
    exact Option.map_id'.symm
  | case3 w ws c cs ih =>
    cases j with
    | zero => rfl
    | succ j => exact ih j

/-- The rows widen a column by their cells in it. -/
theorem foldl_widen_getElem? (ws : List Nat) (rows : List (List Text)) (j : Nat) :
    (rows.foldl widen ws)[j]? = ws[j]?.map fun w =>
    ((rows.filterMap (·[j]?)).map List.length).foldl max w := by
  induction rows generalizing ws with
  | nil => exact Option.map_id'.symm
  | cons r rows ih =>
    rw [List.foldl_cons, ih, widen_getElem?, Option.map_map]
    refine congrArg (Option.map · ws[j]?) (funext fun w => ?_)
    cases cell : r[j]? with
    | none =>
      simp only [Function.comp, cell, List.filterMap_cons, Option.map_none, Option.toList_none,
        List.foldl_nil]
    | some c => simp only [Function.comp, cell, List.filterMap_cons, Option.map_some,
      Option.toList_some, List.foldl_nil, List.foldl_cons, List.map_cons]

theorem length_widths : (widths headers rows).length = headers.length := by
  unfold widths
  suffices kept : ∀ ws, (rows.foldl widen ws).length = ws.length by rw [kept, List.length_map]
  induction rows with
  | nil => exact fun _ => rfl
  | cons r rows ih =>
    intro ws
    rw [List.foldl_cons, ih, length_widen]

/-- **A column is as wide as its widest cell.** -/
theorem widths_getElem (h : j < (widths headers rows).length) :
    (widths headers rows)[j] = widest headers rows j := by
  have headed : j < headers.length := by rwa [length_widths] at h
  have cells : column headers rows j = headers[j] :: rows.filterMap (·[j]?) := by
    exact List.filterMap_cons_some (List.getElem?_eq_getElem headed)
  have wide : (widths headers rows)[j]? = some (widest headers rows j) := by
    rw [widths, foldl_widen_getElem?, List.getElem?_map, List.getElem?_eq_getElem headed, widest,
      cells, List.map_cons,
      List.max?_cons']
    rfl
  rw [List.getElem?_eq_getElem h] at wide
  exact Option.some.inj wide

/-! ## Lines of cells -/

/-- Cells are padded if each of them has a column. -/
theorem padCells?_eq (ws : List Nat) (cells : List Text) :
    padCells? ws cells =
      if cells.length ≤ ws.length then some (List.zipWith Text.padEnd ws cells) else none := by
  induction ws, cells using padCells?.induct with
  | case1 ws => cases ws <;> rfl
  | case2 => rfl
  | case3 w ws c cs ih =>
    rw [padCells?, ih, List.length_cons, List.length_cons]
    by_cases fits : cs.length ≤ ws.length
    · rw [if_pos fits, if_pos (Nat.succ_le_succ fits)]
      rfl
    · rw [if_neg fits, if_neg fun fits' => fits (Nat.le_of_succ_le_succ fits')]
      rfl

/-- A line of cells that are padded to widths. -/
def lineOf (ws : List Nat) (cells : List Text) : Text :=
  Text.join [' ', ' '] (List.zipWith Text.padEnd ws cells)

theorem rowLine?_eq (ws : List Nat) (cells : List Text) :
    rowLine? ws cells = if cells.length ≤ ws.length then some (lineOf ws cells) else none := by
  rw [rowLine?, padCells?_eq]
  split <;> rfl

theorem length_padEnd (w : Nat) (c : Text) : (Text.padEnd w c).length = max w c.length := by
  rw [Text.padEnd, List.length_append, List.length_replicate]
  omega

theorem lineOf_single (w : Nat) (ws : List Nat) (c : Text) :
    lineOf (w :: ws) [c] = Text.padEnd w c := by
  rw [lineOf, List.zipWith_cons_cons, List.zipWith_nil_right]
  rfl

/-- Two more spaces stand behind a cell that is not the last one. -/
theorem lineOf_cons {w : Nat} {ws : List Nat} {c : Text} {cs : List Text}
    (fits : c.length ≤ w) (headed : cs.length ≤ ws.length)
    (more : cs ≠ []) : lineOf (w :: ws) (c :: cs) = Text.padEnd (w + 2) c ++ lineOf ws cs := by
  obtain ⟨d, ds, rfl⟩ := List.exists_cons_of_ne_nil more
  obtain ⟨v, vs, rfl⟩ := List.exists_cons_of_length_pos (Nat.zero_lt_of_lt headed)
  have spaces : Text.padEnd (w + 2) c = Text.padEnd w c ++ [' ', ' '] := by
    rw [Text.padEnd, Text.padEnd, List.append_assoc, Nat.sub_add_comm fits, List.replicate_add]
    rfl
  rw [spaces]
  rfl

section Line
variable {ws : List Nat} {cells : List Text} {start : Nat → Nat}

/-- What stands in a line from the start of a column on: the cells from there. -/
theorem lineOf_split (headed : cells.length ≤ ws.length)
    (fits : ∀ j (h : j < cells.length), cells[j].length ≤ ws[j])
    (first : start 0 = 0) (next : ∀ j (h : j < cells.length), start (j + 1) = start j + ws[j] + 2)
    (h : j < cells.length) :
    ∃ before : Text, before.length = start j ∧
      lineOf ws cells = before ++ lineOf (ws.drop j) (cells.drop j) := by
  induction j with
  | zero => exact ⟨[], first.symm, rfl⟩
  | succ j ih =>
    have h' : j < cells.length := Nat.lt_of_succ_lt h
    obtain ⟨before, long, split⟩ := ih h'
    refine ⟨before ++ Text.padEnd (ws[j] + 2) cells[j], ?_, ?_⟩
    · have fit := fits j h'
      rw [List.length_append, length_padEnd, long, next j h']
      omega
    · have headed' : (cells.drop (j + 1)).length ≤ (ws.drop (j + 1)).length := by
        rw [List.length_drop, List.length_drop]
        omega
      have more : cells.drop (j + 1) ≠ [] := List.drop_eq_nil_iff.not.mpr (Nat.not_le_of_lt h)
      rw [split, List.drop_eq_getElem_cons (Nat.lt_of_lt_of_le h' headed),
        List.drop_eq_getElem_cons h',
        lineOf_cons (fits j h') headed' more, List.append_assoc]

/-- A line is laid out to columns that are wide enough, each two characters behind the end of the
one before. -/
theorem laidOut_lineOf (headed : cells.length ≤ ws.length)
    (fits : ∀ j (h : j < cells.length), cells[j].length ≤ ws[j])
    (first : start 0 = 0) (next : ∀ j (h : j < cells.length), start (j + 1) = start j + ws[j] + 2) :
    LaidOut start cells (lineOf ws cells) := by
  have split {j : Nat} (h : j < cells.length) := lineOf_split headed fits first next h
  have unfolded {j : Nat} (h : j < cells.length) : lineOf (ws.drop j) (cells.drop j) =
      lineOf (ws[j] :: ws.drop (j + 1)) (cells[j] :: cells.drop (j + 1)) := by
    rw [← List.drop_eq_getElem_cons (Nat.lt_of_lt_of_le h headed), ← List.drop_eq_getElem_cons h]
  -- behind the last cell there are the spaces of its own column only
  suffices shown : ∀ j (h : j < cells.length), ∃ w, lineOf (ws.drop j) (cells.drop j) =
      Text.padEnd w cells[j] ++ (lineOf ws cells).drop (start (j + 1)) by
    constructor
    · intro j h
      obtain ⟨before, long, line⟩ := split h
      obtain ⟨w, rest⟩ := shown j h
      rw [line, rest, List.length_append, List.length_append, length_padEnd, long]
      omega
    · intro j h
      obtain ⟨before, long, line⟩ := split h
      obtain ⟨w, rest⟩ := shown j h
      refine ⟨w - cells[j].length, ?_⟩
      rw [← Text.padEnd, ← rest, line, ← long, List.drop_left]
  intro j h
  by_cases last : j + 1 < cells.length
  · obtain ⟨before, long, line⟩ := split last
    have headed' : (cells.drop (j + 1)).length ≤ (ws.drop (j + 1)).length := by
      rw [List.length_drop, List.length_drop]
      omega
    refine ⟨ws[j] + 2, ?_⟩
    rw [unfolded h, lineOf_cons (fits j h) headed'
      (List.drop_eq_nil_iff.not.mpr (Nat.not_le_of_lt last)), line, ← long,
      List.drop_left]
  · obtain ⟨before, long, line⟩ := split h
    have ended : cells.drop (j + 1) = [] := List.drop_eq_nil_of_le (Nat.le_of_not_lt last)
    refine ⟨ws[j], ?_⟩
    rw [line, unfolded h, ended, lineOf_single, List.drop_eq_nil_of_le, List.append_nil]
    have fit := fits j h
    rw [List.length_append, length_padEnd, long, next j h]
    omega

end Line

/-! ## Tables -/

/-- A row that has no more cells than there are headers. -/
def Headed (headers r : List Text) : Prop := r.length ≤ headers.length

instance (headers r : List Text) : Decidable (Headed headers r) :=
  inferInstanceAs (Decidable (r.length ≤ headers.length))

/-- The header and the rows without surplus cells are laid out to the columns of the table. -/
theorem laidOut_row {r : List Text} (listed : r ∈ headers :: rows) (headed : Headed headers r) :
    LaidOut (columnStart headers rows) r (lineOf (widths headers rows) r) := by
  have headed' : r.length ≤ (widths headers rows).length := by rwa [length_widths]
  refine laidOut_lineOf headed' (fun j h => ?_) rfl fun j h => ?_
  · rw [widths_getElem]
    exact length_le_widest (mem_column listed h)
  · rw [widths_getElem]
    rfl

/-- The rows down to the first one with a surplus cell are printed. -/
theorem rowLines_eq {ws : List Nat} (wide : ws.length = headers.length) (rows : List (List Text)) :
    rowLines ws rows = ((rows.takeWhile (Headed headers ·)).map (lineOf ws),
      rows.all (Headed headers ·)) := by
  induction rows with
  | nil => rfl
  | cons r rows ih =>
    rw [rowLines, rowLine?_eq, ih, wide]
    by_cases headed : Headed headers r
    · have yes := decide_eq_true headed
      simp only [if_pos (show r.length ≤ headers.length from headed), List.takeWhile_cons,
        List.all_cons, yes, if_true,
        List.map_cons, Bool.true_and]
    · have no := decide_eq_false headed
      simp only [if_neg (show ¬r.length ≤ headers.length from headed), List.takeWhile_cons,
        List.all_cons, no,
        Bool.false_eq_true, if_false, List.map_nil, Bool.false_and]

theorem table_eq (color : Bool) (headers : List Text) (given : rows ≠ []) :
    table color headers rows =
      { lines := (if color then bold (lineOf (widths headers rows) headers)
        else lineOf (widths headers rows) headers) ::
          List.replicate (lineOf (widths headers rows) headers).length '-' ::
          (rows.takeWhile (Headed headers ·)).map (lineOf (widths headers rows)),
        complete := rows.all (Headed headers ·) } := by
  have header : rowLine? (widths headers rows) headers =
      some (lineOf (widths headers rows) headers) := by
    rw [rowLine?_eq, if_pos (Nat.le_of_eq length_widths.symm)]
  unfold table
  dsimp only
  rw [if_neg (by simpa using given), header, rowLines_eq length_widths, Option.getD_some]

/-- There is no break in a line of cells but those of the cells. -/
theorem unbroken_lineOf {cells : List Text} (plain : ∀ c ∈ cells, Text.Unbroken c) (ws : List Nat) :
    Text.Unbroken (lineOf ws cells) := by
  refine Text.unbroken_join (by decide) fun p mem => ?_
  obtain ⟨k, h, rfl⟩ := List.mem_iff_getElem.mp mem
  rw [List.length_zipWith] at h
  rw [List.getElem_zipWith, Text.padEnd, Text.unbroken_append]
  refine ⟨plain _ (List.getElem_mem _), fun c spaces => ?_⟩
  rw [List.eq_of_mem_replicate spaces]
  rfl

theorem unbroken_bold {t : Text} (plain : Text.Unbroken t) : Text.Unbroken (bold t) := by
  unfold bold
  rw [Text.unbroken_append, Text.unbroken_append]
  exact ⟨⟨by decide, plain⟩, by decide⟩

/-- Tables of cells without breaks have no breaks in their lines. -/
theorem unbroken_table (color : Bool) (given : rows ≠ [])
    (plain : ∀ r ∈ headers :: rows, ∀ c ∈ r, Text.Unbroken c) :
    ∀ line ∈ (table color headers rows).lines, Text.Unbroken line := by
  obtain ⟨heads, cells⟩ := List.forall_mem_cons.mp plain
  have header := unbroken_lineOf heads (widths headers rows)
  rw [table_eq color headers given]
  refine List.forall_mem_cons.mpr
    ⟨?_, List.forall_mem_cons.mpr ⟨fun c mem => ?_, fun line mem => ?_⟩⟩
  · cases color
    · exact header
    · exact unbroken_bold header
  · rw [List.eq_of_mem_replicate mem]
    rfl
  · obtain ⟨r, printed, rfl⟩ := List.mem_map.mp mem
    exact unbroken_lineOf (cells r ((List.takeWhile_prefix _).subset printed)) _

/-- **Tables are aligned.**  All rows of a table are printed if and only if none of them has more
cells than there are headers; otherwise those before the first such row.  The header is printed, a
rule of its length and one line for each of these rows, and in each line every cell stands at the
start of its column, with nothing but spaces from there to the next.  The start of a column is at
least two characters behind the widest cell of the column before it. -/
theorem table_columns (color : Bool) (headers : List Text) (rows : List (List Text))
    (given : rows ≠ []) :
    ((table color headers rows).complete = true ↔ ∀ r ∈ rows, Headed headers r) ∧
      (∃ header lines, (table color headers rows).lines =
          (if color then bold header else header) :: List.replicate header.length '-' :: lines ∧
        LaidOut (columnStart headers rows) headers header ∧
        List.Forall₂ (LaidOut (columnStart headers rows))
          (rows.takeWhile (Headed headers ·)) lines) ∧
      (∀ j, ∀ c ∈ column headers rows j, columnStart headers rows j + c.length + 2 ≤
        columnStart headers rows (j + 1)) ∧
      ((∀ r ∈ headers :: rows, ∀ c ∈ r, Text.Unbroken c) →
        Text.lines (printed (table color headers rows).lines) =
          (table color headers rows).lines) := by
  refine ⟨?_, ⟨lineOf (widths headers rows) headers,
    (rows.takeWhile (Headed headers ·)).map (lineOf (widths headers rows)),
    ?_, ?_, ?_⟩, fun j c mem => columnStart_apart mem,
    fun plain => lines_printed (unbroken_table color given plain)⟩
  · rw [table_eq color headers given, List.all_eq_true]
    exact forall₂_congr fun r _ => decide_eq_true_iff
  · rw [table_eq color headers given]
  · exact laidOut_row List.mem_cons_self (Nat.le_refl _)
  · rw [List.forall₂_map_right_iff, List.forall₂_same]
    intro r printed
    have headed := List.all_eq_true.mp List.all_takeWhile r printed
    exact laidOut_row (List.mem_cons_of_mem _ ((List.takeWhile_prefix _).subset printed))
      (of_decide_eq_true headed)

/-- The headers of a table of two columns. -/
def narrow : List Text := ["Name".toList, "Ok".toList]

/-- Rows with one cell, with two and with three. -/
def ragged : List (List Text) :=
  [["compiler".toList, "yes".toList], ["linker".toList], ["a".toList, "unknown".toList, "b".toList],
    ["x".toList, "y".toList]]

/-- The rows before the one with three cells are printed, and the second column starts behind the
widest cell of the first. -/
theorem ragged_columns :
    ragged ≠ [] ∧ (table false narrow ragged).complete = false ∧ columnStart narrow ragged 1 = 10 ∧
      ∃ header lines, (table false narrow ragged).lines =
        header :: List.replicate header.length '-' :: lines ∧
        header = "Name      Ok     ".toList ∧
        lines = ["compiler  yes    ".toList, "linker  ".toList] ∧
        LaidOut (columnStart narrow ragged) narrow header ∧
        List.Forall₂ (LaidOut (columnStart narrow ragged)) (ragged.take 2) lines ∧
        Text.lines (printed (table false narrow ragged).lines) =
          (table false narrow ragged).lines := by
  have given : ragged ≠ [] := List.cons_ne_nil _ _
  obtain ⟨complete, ⟨header, lines, shown, top, below⟩, -, plain⟩ :=
    table_columns false narrow ragged given
  have evaluated : (table false narrow ragged).lines =
      ["Name      Ok     ".toList, List.replicate 17 '-', "compiler  yes    ".toList,
        "linker  ".toList] := by decide
  obtain ⟨rfl, rest⟩ := List.cons.inj (evaluated.symm.trans shown)
  obtain ⟨-, rfl⟩ := List.cons.inj rest
  refine ⟨given, ?_, by decide, _, _, shown, rfl, rfl, top, below, plain (by decide)⟩
  exact Bool.eq_false_iff.mpr fun all => absurd (complete.mp all) (by decide)

/-- A row with two cells below one header is not printed. -/
theorem surplus_cell_unprinted :
    table false ["A".toList] [["1".toList, "2".toList]] =
      { lines := ["A".toList, "-".toList], complete := false } := by
  decide

end ContractCheck.Console
