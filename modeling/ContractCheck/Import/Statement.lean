import ContractCheck.Text.Blank

/-! # Import statements

An import statement is the word `import`, a clause, and a path between quotes.  The clause is blank,
or names what is imported and ends with the word `from`; in both cases at least one blank follows
the word `import`, and the clause holds no semicolon.

Statements are found by scanning from the left.  A statement ends at its closing quote and scanning
goes on behind it; where no statement starts, scanning goes on one character further.
-/
namespace ContractCheck.Import

/-- Either kind of quote. -/
def isQuote (c : Char) : Bool := c == '\'' || c == '"'

/-- The word that starts a statement. -/
def keyword : Text := "import".toList

/-- Whether a text ends with a blank, the word `from`, and at least one more blank. -/
def endsWithFrom (t : Text) : Bool :=
  match t.reverse with
  | c :: r =>
    Text.isBlank c &&
      (match r.dropWhile Text.isBlank with
       | 'm' :: 'o' :: 'r' :: 'f' :: d :: _ => Text.isBlank d
       | _ => false)
  | [] => false

/-- Whether a text may stand between the word `import` and the path. -/
def isClause : Text → Bool
  | [] => false
  | c :: r => Text.isBlank c && (r.all Text.isBlank || (!r.contains ';' && endsWithFrom r))

/-- The start of a statement behind its keyword: the clause, the opening quote, the characters up to
the next quote, and what follows them. -/
structure Opening where
  clause : Text
  quote : Char
  path : Text
  rest : Text

/-- Reads the start of a statement behind its keyword. -/
def opening? (t : Text) : Option Opening :=
  let (clause, r) := t.span fun c => !isQuote c
  match r with
  | [] => none
  | quote :: r =>
    if isClause clause then
      let (path, rest) := r.span fun c => !isQuote c
      some { clause, quote, path, rest }
    else none

/-- The path of a statement behind its keyword: it is not empty and a quote of either kind closes
it. -/
def pathAt? (t : Text) : Option (Text × Text) :=
  match opening? t with
  | none => none
  | some o =>
    match o.path, o.rest with
    | [], _ => none
    | _ :: _, [] => none
    | c :: p, _ :: rest => some (c :: p, rest)

/-- The paths of the statements in a text whose next `skip` characters belong to a statement already
found. -/
def findFrom : Nat → Text → List Text
  | _, [] => []
  | skip + 1, _ :: r => findFrom skip r
  | 0, c :: r =>
    if Text.startsWith (c :: r) keyword then
      match pathAt? ((c :: r).drop keyword.length) with
      | some (path, rest) => path :: findFrom (r.length - rest.length) r
      | none => findFrom 0 r
    else findFrom 0 r

/-- The paths of all import statements, in the order of the statements. -/
def find (content : Text) : List Text := findFrom 0 content

end ContractCheck.Import
