import ContractCheck.Shell.Syntax

/-! # Reading shell scripts

A reader for the shell language: quoting, parameters with their operators, output of commands,
lists, pipes, the compound commands and redirections with their here-documents.  Every function
takes the text from where it stands and gives what it read and the rest; `none` means that the text
breaks the language.  All of them spend one unit of a budget, which the length of the script bounds.
-/
namespace ContractCheck.Shell

/-- A character that ends a word. -/
def isMeta (c : Char) : Bool :=
  c == ' ' || c == '\t' || c == '\n' || c == ';' || c == '&' || c == '|' || c == '<' || c == '>' ||
  c == '(' || c == ')'

/-- A character of a name. -/
def isNameChar (c : Char) : Bool := c.isAlphanum || c == '_'

/-- A character that a name may begin with. -/
def isNameStart (c : Char) : Bool := c.isAlpha || c == '_'

/-- The backquote. -/
def backquote : Char := Char.ofNat 96

/-- The rest after blanks, continued lines and a comment. -/
def skipBlanks : Text → Text
  | ' ' :: r => skipBlanks r
  | '\t' :: r => skipBlanks r
  | '\\' :: '\n' :: r => skipBlanks r
  | '#' :: r => r.dropWhile (· != '\n')
  | t => t

/-- The rest after blanks and line ends. -/
def skipLines : Nat → Text → Text
  | 0, t => t
  | n + 1, t =>
    match skipBlanks t with
    | '\n' :: r => skipLines n r
    | r => r

/-- The word that stands next, if it could be a reserved one. -/
def reserved (t : Text) : Text := t.takeWhile fun c => !isMeta c

/-- Whether a list of commands ends here. -/
def endsList (t : Text) : Bool :=
  match t with
  | [] => true
  | ')' :: _ => true
  | ';' :: ';' :: _ => true
  | t =>
    ["then", "fi", "else", "elif", "do", "done", "esac", "\x7d"].any fun w => reserved t = w.toList

/-- The rest after a reserved word. -/
def afterWord (n : Nat) (w : String) (t : Text) : Option Text :=
  let t := skipLines n t
  if reserved t = w.toList then some (t.drop w.length) else none

/-- Text up to an unescaped backquote, escapes of backquotes, dollars and backslashes taken away. -/
def untilBackquote : Text → Option (Text × Text)
  | [] => none
  | '\\' :: c :: r =>
    (untilBackquote r).map fun p =>
      (if c = backquote ∨ c = '$' ∨ c = '\\' then c :: p.1 else '\\' :: c :: p.1, p.2)
  | c :: r =>
    if c = backquote then some ([], r) else (untilBackquote r).map fun p => (c :: p.1, p.2)

/-- Text up to a character. -/
def until_ (stop : Char) : Text → Option (Text × Text)
  | [] => none
  | c :: r => if c = stop then some ([], r) else (until_ stop r).map fun p => (c :: p.1, p.2)

/-- The lines of a here-document up to its delimiter, and the rest after it. -/
def hereLines (strip : Bool) (delimiter : Text) : Nat → Text → Text × Text
  | 0, t => ([], t)
  | n + 1, t =>
    if t.isEmpty then ([], [])
    else
      let line := t.takeWhile (· != '\n')
      let rest := (t.dropWhile (· != '\n')).drop 1
      let line := if strip then line.dropWhile (· == '\t') else line
      if line = delimiter then ([], rest)
      else
        let p := hereLines strip delimiter n rest
        (line ++ '\n' :: p.1, p.2)

/-- The operator of a parameter at the start of a text. -/
def operatorOf (t : Text) : Option Text :=
  ["%%".toList, "##".toList, ":-".toList, ":=".toList, ":+".toList, ":?".toList, ['-'],
   ['='], ['+'], ['?'], ['%'], ['#']].find? fun o => Text.startsWith t o

/-- The delimiter of a here-document: its text, and whether any of it is quoted. -/
def delimiterOf (w : Word) : Text × Bool :=
  (w.flatMap fun p => match p with | .plain t => t | .quoted t => t | _ => [],
   w.any fun p => match p with | .quoted _ => true | _ => false)

mutual
/-- A dollar expansion, after the dollar sign. -/
def readDollar (n : Nat) (quoted : Bool) (t : Text) : Option (Piece × Text) :=
  match n, t with
  | 0, _ => none
  | n + 1, '(' :: r => do
    let (cs, r) ← readList n r
    match skipLines n r with
    | ')' :: r => some (.output quoted cs, r)
    | _ => none
  | _ + 1, '\x7b' :: '#' :: c :: r =>
    if c = '\x7d' then some (.parameter quoted ['#'] [] [], r)
    else
      let name := (c :: r).takeWhile fun d => isNameChar d || d == '@' || d == '*'
      match (c :: r).drop name.length with
      | '\x7d' :: r =>
        if name.isEmpty then none else some (.parameter quoted name "length".toList [], r)
      | _ => none
  | n + 1, '\x7b' :: r =>
    let name := match r with
      | c :: _ => if isNameChar c then r.takeWhile isNameChar else [c]
      | [] => []
    let r := r.drop name.length
    match r with
    | '\x7d' :: r => if name.isEmpty then none else some (.parameter quoted name [] [], r)
    | r => do
      let o ← operatorOf r
      let asPattern := o.head? == some '%' || o.head? == some '#'
      let (w, r) ← readArgument n (quoted && !asPattern) (r.drop o.length)
      some (.parameter quoted name o w, r)
  | _ + 1, c :: r =>
    if isNameStart c then
      let name := (c :: r).takeWhile isNameChar
      some (.parameter quoted name [] [], (c :: r).drop name.length)
    else if c.isDigit || ['@', '*', '#', '?', '-', '$', '!'].contains c then
      some (.parameter quoted [c] [] [], r)
    else some (if quoted then .quoted ['$'] else .plain ['$'], c :: r)
  | _ + 1, [] => some (if quoted then .quoted ['$'] else .plain ['$'], [])

/-- The argument of an operator, up to the closing brace. -/
def readArgument (n : Nat) (quoted : Bool) (t : Text) : Option (Word × Text) :=
  match n, t with
  | 0, _ => none
  | _ + 1, [] => none
  | n + 1, c :: r =>
    if c = '\x7d' then some ([], r)
    else do
      let (ps, r) ← readPieces n quoted (c :: r)
      let (w, r) ← readArgument n quoted r
      some (ps ++ w, r)

/-- The pieces that the next characters of a word make. -/
def readPieces (n : Nat) (inQuotes : Bool) (t : Text) : Option (Word × Text) :=
  match n, t with
  | 0, _ => none
  | _ + 1, [] => none
  | n + 1, '$' :: r => do
    let (p, r) ← readDollar n inQuotes r
    some ([p], r)
  | n + 1, '"' :: r => do
    let (w, r) ← readQuoted n r
    some (.quoted [] :: w, r)
  | _ + 1, '\\' :: '\n' :: r => some ([], r)
  | _ + 1, '\\' :: c :: r =>
    if inQuotes then
      if c = '"' ∨ c = '\\' ∨ c = '$' ∨ c = backquote ∨ c = '\x7d' then some ([.quoted [c]], r)
      else some ([.quoted ['\\', c]], r)
    else some ([.quoted [c]], r)
  | n + 1, c :: r =>
    if c = '\'' ∧ !inQuotes then
      (until_ '\'' r).map fun p => ([.quoted p.1], p.2)
    else if c = backquote then do
      let (inner, r) ← untilBackquote r
      let (cs, _) ← readList n inner
      some ([.output inQuotes cs], r)
    else some ([if inQuotes then .quoted [c] else .plain [c]], r)

/-- The pieces up to the closing double quote. -/
def readQuoted (n : Nat) (t : Text) : Option (Word × Text) :=
  match n, t with
  | 0, _ => none
  | _ + 1, [] => none
  | n + 1, c :: r =>
    if c = '"' then some ([], r)
    else do
      let (ps, r) ← readPieces n true (c :: r)
      let (w, r) ← readQuoted n r
      some (ps ++ w, r)

/-- The pieces of the next word; empty if none begins here. -/
def readWord (n : Nat) (t : Text) : Option (Word × Text) :=
  match n, t with
  | 0, _ => none
  | _ + 1, [] => some ([], [])
  | n + 1, c :: r =>
    if isMeta c then some ([], c :: r)
    else do
      let (ps, r) ← readPieces n false (c :: r)
      let (w, r) ← readWord n r
      some (ps ++ w, r)

/-- The pieces of a here-document, in which only dollars, backquotes and backslashes mean
something. -/
def readHere (n : Nat) (t : Text) : Option Word :=
  match n, t with
  | 0, _ => none
  | _ + 1, [] => some []
  | n + 1, '"' :: r => (readHere n r).map (.quoted ['"'] :: ·)
  | n + 1, '\\' :: '"' :: r => (readHere n r).map (.quoted ['\\', '"'] :: ·)
  | n + 1, c :: r => do
    let (ps, r) ← readPieces n true (c :: r)
    let w ← readHere n r
    some (ps ++ w)

/-- A redirection, if one begins here. -/
def readRedirect (n : Nat) (t : Text) : Option (Option Redirect × Text) :=
  match n with
  | 0 => none
  | n + 1 =>
    let digits := t.takeWhile Char.isDigit
    let fd (default : Nat) : Nat :=
      if digits.isEmpty then default else digits.foldl (fun k d => 10 * k + (d.toNat - 48)) 0
    let target (default : Nat) (kind : RedirectKind) (r : Text) : Option (Option Redirect × Text) :=
      match readWord n (skipBlanks r) with
      | some (p :: w, r) => some (some (fd default, kind, p :: w), r)
      | _ => none
    match t.drop digits.length with
    | '<' :: '<' :: r =>
      let strip := r.head? == some '-'
      match readWord n (skipBlanks (if strip then r.drop 1 else r)) with
      | some (p :: w, r) =>
        let line := r.takeWhile (· != '\n')
        let (delimiter, literal) := delimiterOf (p :: w)
        let (body, after) := hereLines strip delimiter n ((r.dropWhile (· != '\n')).drop 1)
        (if literal then some [.quoted body] else readHere n body).map fun here =>
          (some (fd 0, .here, here), line ++ '\n' :: after)
      | _ => none
    | '<' :: '&' :: r => target 0 .duplicate r
    | '<' :: r => target 0 .read r
    | '>' :: '>' :: r => target 1 .append r
    | '>' :: '&' :: r => target 1 .duplicate r
    | '>' :: '|' :: r => target 1 .write r
    | '>' :: r => target 1 .write r
    | _ => some (none, t)

/-- The redirections that stand next. -/
def readRedirects (n : Nat) (t : Text) : Option (List Redirect × Text) :=
  match n with
  | 0 => none
  | n + 1 => do
    match ← readRedirect n (skipBlanks t) with
    | (some d, r) =>
      let (ds, r) ← readRedirects n r
      some (d :: ds, r)
    | (none, _) => some ([], t)

/-- Assignments, words and redirections of a simple command. -/
def readSimple (n : Nat) (first : Bool) (t : Text) :
    Option (List (Text × Word) × List Word × List Redirect × Text) :=
  match n with
  | 0 => none
  | n + 1 => do
    let t := skipBlanks t
    match ← readRedirect n t with
    | (some d, r) =>
      let (as, ws, ds, r) ← readSimple n first r
      some (as, ws, d :: ds, r)
    | (none, _) =>
      let name := t.takeWhile isNameChar
      match t.drop name.length, first && (name.head?.map isNameStart).getD false with
      | '=' :: r, true =>
        let (w, r) ← readWord n r
        let (as, ws, ds, r) ← readSimple n true r
        some ((name, w) :: as, ws, ds, r)
      | _, _ =>
        match ← readWord n t with
        | ([], _) => some ([], [], [], t)
        | (w, r) =>
          let (as, ws, ds, r) ← readSimple n false r
          some (as, w :: ws, ds, r)

/-- The arms of a case command, up to its end. -/
def readArms (n : Nat) (t : Text) : Option (List (List Word × List Command) × Text) :=
  match n with
  | 0 => none
  | n + 1 =>
    match afterWord n "esac" t with
    | some r => some ([], r)
    | none => do
      let t := skipLines n t
      let (patterns, r) ← readPatterns n (if t.head? == some '(' then t.drop 1 else t)
      let (body, r) ← readList n r
      let r := skipLines n r
      let (arms, r) ← readArms n (if Text.startsWith r ";;" then r.drop 2 else r)
      some ((patterns, body) :: arms, r)

/-- The patterns of an arm, up to the closing parenthesis. -/
def readPatterns (n : Nat) (t : Text) : Option (List Word × Text) :=
  match n with
  | 0 => none
  | n + 1 => do
    let (w, r) ← readWord n (skipBlanks t)
    match skipBlanks r with
    | '|' :: r =>
      let (ws, r) ← readPatterns n r
      some (w :: ws, r)
    | ')' :: r => some ([w], r)
    | _ => none

/-- The words of a for command. -/
def readWords (n : Nat) (t : Text) : Option (List Word × Text) :=
  match n with
  | 0 => none
  | n + 1 => do
    match ← readWord n (skipBlanks t) with
    | ([], r) => some ([], r)
    | (w, r) =>
      let (ws, r) ← readWords n r
      some (w :: ws, r)

/-- What follows the test of an if command. -/
def readBranches (n : Nat) (t : Text) : Option (Command × Text) :=
  match n with
  | 0 => none
  | n + 1 => do
    let (test, r) ← readList n t
    let r ← afterWord n "then" r
    let (yes, r) ← readList n r
    match afterWord n "elif" r with
    | some r =>
      let (c, r) ← readBranches n r
      some (.cond test yes [c], r)
    | none =>
      match afterWord n "else" r with
      | some r =>
        let (no, r) ← readList n r
        let r ← afterWord n "fi" r
        some (.cond test yes no, r)
      | none =>
        let r ← afterWord n "fi" r
        some (.cond test yes [], r)

/-- A command without the lists and pipes that it is part of. -/
def readCommand (n : Nat) (t : Text) : Option (Command × Text) :=
  match n with
  | 0 => none
  | n + 1 =>
    let t := skipBlanks t
    let word := reserved t
    let compound (c : Command × Text) : Option (Command × Text) := do
      let (ds, r) ← readRedirects n c.2
      some (if ds.isEmpty then c.1 else .redirected c.1 ds, r)
    if t.head? == some '(' then do
      let (cs, r) ← readList n (t.drop 1)
      match skipLines n r with
      | ')' :: r => compound (.apart cs, r)
      | _ => none
    else if word = ['\x7b'] then do
      let (cs, r) ← readList n (t.drop 1)
      let r ← afterWord n "\x7d" r
      compound (.group cs, r)
    else if word = "if".toList then do
      let c ← readBranches n (t.drop 2)
      compound c
    else if word = "while".toList ∨ word = "until".toList then do
      let (test, r) ← readList n (t.drop 5)
      let r ← afterWord n "do" r
      let (body, r) ← readList n r
      let r ← afterWord n "done" r
      compound (.loop (word = "until".toList) test body, r)
    else if word = "for".toList then do
      let r := skipBlanks (t.drop 3)
      let name := r.takeWhile isNameChar
      let r := r.drop name.length
      let (ws, r) ← match afterWord n "in" r with
        | some r => do
          let (ws, r) ← readWords n r
          some (some ws, r)
        | none => some (none, r)
      let r := skipLines n r
      let r ← afterWord n "do" (if r.head? == some ';' then r.drop 1 else r)
      let (body, r) ← readList n r
      let r ← afterWord n "done" r
      compound (.forEach name ws body, r)
    else if word = "case".toList then do
      let (subject, r) ← readWord n (skipBlanks (t.drop 4))
      let r ← afterWord n "in" r
      let (arms, r) ← readArms n r
      compound (.choose subject arms, r)
    else do
      let (as, ws, ds, r) ← readSimple n true t
      if as.isEmpty && ws.isEmpty && ds.isEmpty then none
      else some (.simple t.length as ws ds, r)

/-- Commands joined by pipes. -/
def readPipe (n : Nat) (t : Text) : Option (Command × Text) :=
  match n with
  | 0 => none
  | n + 1 =>
    let t := skipBlanks t
    if reserved t = ['!'] then (readPipe n (t.drop 1)).map fun p => (.negated p.1, p.2)
    else do
      let (c, r) ← readCommand n t
      match skipBlanks r with
      | '|' :: '|' :: _ => some (c, r)
      | '|' :: r =>
        let (d, r) ← readPipe n (skipLines n r)
        some (.pipe c d, r)
      | _ => some (c, r)

/-- Pipes joined by the signs for and and or, after a first one. -/
def readChain (n : Nat) (c : Command) (t : Text) : Option (Command × Text) :=
  match n with
  | 0 => none
  | n + 1 =>
    match skipBlanks t with
    | '&' :: '&' :: r => do
      let (d, r) ← readPipe n (skipLines n r)
      readChain n (.both c d) r
    | '|' :: '|' :: r => do
      let (d, r) ← readPipe n (skipLines n r)
      readChain n (.either c d) r
    | _ => some (c, t)

/-- One command of a list, with what ends it. -/
def readItem (n : Nat) (t : Text) : Option (Command × Text) :=
  match n with
  | 0 => none
  | n + 1 => do
    let (c, r) ← readPipe n t
    let (c, r) ← readChain n c r
    match skipBlanks r with
    | ';' :: ';' :: _ => some (c, r)
    | ';' :: r => some (c, r)
    | '&' :: r => some (c, r)
    | '\n' :: r => some (c, r)
    | r => if endsList r then some (c, r) else none

/-- A list of commands. -/
def readList (n : Nat) (t : Text) : Option (List Command × Text) :=
  match n with
  | 0 => none
  | n + 1 =>
    let t := skipLines n t
    if endsList t then some ([], t)
    else do
      let (c, r) ← readItem n t
      let (cs, r) ← readList n r
      some (c :: cs, r)
end

/-- The budget that a script of a length never uses up. -/
def budget (t : Text) : Nat := 16 * t.length + 64

/-- The next command of a script; the outer `none` says that the script breaks the language, the
inner one that it has ended. -/
def next (t : Text) : Option (Option (Command × Text)) :=
  let t' := skipLines (budget t) t
  if t'.isEmpty then some none else (readItem (budget t) t').map some

end ContractCheck.Shell
