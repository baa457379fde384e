import ContractCheck.Text.Basic

/-! # Tables on the console

A table has a header line, a rule as long as it, and one line per row.  Every column is as wide as
its widest cell or its header, and two spaces stand between columns.  A cell without a header has no
column: the rows before it are printed, its own is not.
-/
namespace ContractCheck.Console

/-- What a table prints, and whether every cell had a column. -/
structure TableOutput where
  lines : List Text
  complete : Bool
deriving DecidableEq

/-- The widths of the columns widened to a row. -/
def widen : List Nat → List Text → List Nat
  | [], _ => []
  | w :: ws, [] => w :: ws
  | w :: ws, c :: cs => max w c.length :: widen ws cs

/-- The widths of the columns. -/
def widths (headers : List Text) (rows : List (List Text)) : List Nat :=
  rows.foldl widen (headers.map List.length)

/-- The cells padded to their columns; `none` if a cell has no column. -/
def padCells? : List Nat → List Text → Option (List Text)
  | _, [] => some []
  | [], _ :: _ => none
  | w :: ws, c :: cs => (padCells? ws cs).map (Text.padEnd w c :: ·)

/-- A line of cells. -/
def rowLine? (ws : List Nat) (cells : List Text) : Option Text :=
  (padCells? ws cells).map (Text.join [' ', ' '])

/-- The lines of rows, up to the first row with a cell that has no column. -/
def rowLines (ws : List Nat) : List (List Text) → List Text × Bool
  | [] => ([], true)
  | r :: rs =>
    match rowLine? ws r with
    | none => ([], false)
    | some l =>
      let (ls, ok) := rowLines ws rs
      (l :: ls, ok)

/-- Text in bold. -/
def bold (t : Text) : Text := "\x1b[1m".toList ++ t ++ "\x1b[0m".toList

/-- What a table prints; one without rows prints nothing. -/
def table (color : Bool) (headers : List Text) (rows : List (List Text)) : TableOutput :=
  if rows.isEmpty then { lines := [], complete := true }
  else
    let ws := widths headers rows
    let header := (rowLine? ws headers).getD []
    let (ls, complete) := rowLines ws rows
    { lines := (if color then bold header else header) ::
        List.replicate header.length '-' :: ls, complete }

end ContractCheck.Console
