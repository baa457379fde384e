import ContractCheck.Shell.Machine
import ContractCheck.Shell.Printing
import ContractCheck.Text.Lines

/-! # Utilities of scripts

The programs that scripts may rely on: printing, showing files, testing, searching, and changing
files.  Each takes its arguments and a state and gives the state after it.
-/
namespace ContractCheck.Shell

/-- What systems say about a file error, without the path. -/
def systemReason (e : FileError) : Text := e.code.2

/-- The options and the operands of a utility. -/
def splitOptions (args : List Text) : Text × List Text :=
  let isOption (t : Text) : Bool := t.head? == some '-' && decide (1 < t.length) && t != ['-', '-']
  let options := args.takeWhile isOption
  let rest := args.drop options.length
  (options.flatMap (List.drop 1), if rest.head? == some ['-', '-'] then rest.drop 1 else rest)

/-! ## Tests -/

/-- A number of a test. -/
def testNumber? (t : Text) : Option Int := Text.readInt? t

/-- A test of one operand. -/
def testUnary (m : Machine) (op a : Text) : Option Bool :=
  match op with
  | ['-', 'n'] => some (!a.isEmpty)
  | ['-', 'z'] => some a.isEmpty
  | ['-', 'e'] => some (m.files.isThere m.cwd a)
  | ['-', 'f'] => some (m.files.isFile m.cwd a)
  | ['-', 'd'] => some (m.files.isDirectory m.cwd a)
  | ['-', 'r'] => some (m.files.isThere m.cwd a)
  | ['-', 'w'] => some (m.files.isThere m.cwd a)
  | ['-', 's'] =>
    some (match m.files.find m.cwd a with
      | .ok (_, .file content _) => !content.isEmpty
      | .ok (_, .directory) => true
      | .error _ => false)
  | ['-', 'x'] =>
    some (match m.files.find m.cwd a with
      | .ok (_, .file _ mode) => mode.executable
      | .ok (_, .directory) => true
      | .error _ => false)
  | ['-', 't'] => some false
  | ['-', 'L'] => some false
  | ['-', 'h'] => some false
  | _ => none

/-- A test of two operands; `none` if it is none or an operand is no number. -/
def testBinary (a op b : Text) : Option Bool :=
  let numbers (f : Int → Int → Bool) : Option Bool := do
    let x ← testNumber? a
    let y ← testNumber? b
    some (f x y)
  match op with
  | ['='] => some (a = b)
  | ['=', '='] => none
  | ['!', '='] => some (a ≠ b)
  | ['-', 'e', 'q'] => numbers (· == ·)
  | ['-', 'n', 'e'] => numbers (· != ·)
  | ['-', 'l', 't'] => numbers fun x y => decide (x < y)
  | ['-', 'l', 'e'] => numbers fun x y => decide (x ≤ y)
  | ['-', 'g', 't'] => numbers fun x y => decide (y < x)
  | ['-', 'g', 'e'] => numbers fun x y => decide (y ≤ x)
  | _ => none

/-- A test; `none` if it is malformed. -/
def test (m : Machine) : Nat → List Text → Option Bool
  | _, [] => some false
  | _, [a] => some (!a.isEmpty)
  | 0, _ => none
  | n + 1, [a, b] => if a = ['!'] then (test m n [b]).map not else testUnary m a b
  | n + 1, [a, b, c] =>
    match testBinary a b c with
    | some r => some r
    | none =>
      if a = ['!'] then (test m n [b, c]).map not
      else if b = "-a".toList then some (!a.isEmpty && !c.isEmpty)
      else if b = "-o".toList then some (!a.isEmpty || !c.isEmpty)
      else if a = ['('] ∧ c = [')'] then test m n [b]
      else none
  | n + 1, args =>
    let orAt := args.findIdx (· == "-o".toList)
    let andAt := args.findIdx (· == "-a".toList)
    if orAt < args.length then do
      let x ← test m n (args.take orAt)
      let y ← test m n (args.drop (orAt + 1))
      some (x || y)
    else if andAt < args.length then do
      let x ← test m n (args.take andAt)
      let y ← test m n (args.drop (andAt + 1))
      some (x && y)
    else if args.head? == some ['!'] then (test m n (args.drop 1)).map not
    else none

/-- The state after a test. -/
def runTest (m : Machine) (left : Nat) (name : Text) (args : List Text) : Machine :=
  match test m (args.length + 2) args with
  | some true => m.withStatus 0
  | some false => m.withStatus 1
  | none => (m.complain left (name ++ ": unexpected operator".toList)).withStatus 2

/-! ## Files -/

/-- The bytes that operands name, the input for none or a dash; complaints go to the second
stream. -/
def contents (name : Text) (m : Machine) : List Text → Machine × Bytes
  | [] => (m, [])
  | a :: r =>
    let (m, bytes) : Machine × Bytes :=
      if a = ['-'] then ({ m with input := [] }, m.input)
      else if a = "/dev/null".toList then (m, [])
      else if a = "/dev/stdin".toList then ({ m with input := [] }, m.input)
      else match m.files.read m.cwd a with
        | .ok bytes => (m, bytes)
        | .error e =>
          let reason := name ++ ": ".toList ++ a ++ ": ".toList ++ systemReason e ++ ['\n']
          ((m.say 2 reason).withStatus 1, [])
    let (m, more) := contents name m r
    (m, bytes ++ more)

/-- The bytes of the operands, or of the input if there are none. -/
def allContents (name : Text) (m : Machine) (operands : List Text) : Machine × Bytes :=
  contents name (m.withStatus 0) (if operands.isEmpty then [['-']] else operands)

/-- The state after a change of files. -/
def changeFiles (m : Machine) (name what : Text) (change : Except FileError FileSystem) : Machine :=
  match change with
  | .ok fs => { m with files := fs }
  | .error e =>
    (m.say 2 (name ++ ": ".toList ++ what ++ ": ".toList ++ systemReason e ++ ['\n'])).withStatus 1

/-- The state after one change for each operand. -/
def changeEach (m : Machine) (name : Text) (operands : List Text)
    (change : FileSystem → Place → Text → Except FileError FileSystem) : Machine :=
  operands.foldl (fun m a => changeFiles m name a (change m.files m.cwd a)) (m.withStatus 0)

/-- An operand removed with everything below it. -/
def removeTree (fs : FileSystem) (cwd : Place) (path : Text) : Except FileError FileSystem := do
  let (p, _) ← fs.find cwd path
  .ok (fs.erase p)

/-- The target of a copy: inside a directory if one stands there. -/
def targetOf (m : Machine) (source target : Text) : Text :=
  if m.files.isDirectory m.cwd target then Path.Posix.join target (Path.Posix.leaf source)
  else target

/-- A file copied. -/
def copyFile (fs : FileSystem) (cwd : Place) (source target : Text) :
    Except FileError FileSystem := do
  let bytes ← fs.read cwd source
  let fresh := !fs.isThere cwd target
  let fs' ← fs.write cwd target bytes
  match fs.find cwd source with
  | .ok (_, .file _ mode) =>
    if fresh && mode.executable then fs'.makeExecutable cwd target else .ok fs'
  | _ => .ok fs'

/-- A file's mode for running changed. -/
def setMode (executable : Bool) (fs : FileSystem) (cwd : Place) (path : Text) :
    Except FileError FileSystem := do
  match ← fs.find cwd path with
  | (_, .directory) => .ok fs
  | (p, .file content mode) => .ok (fs.set p (.file content { mode with executable }))

/-- Whether a mode lets its owner run the file. -/
def modeRuns (mode : Text) : Bool :=
  match mode.reverse with
  | _ :: _ :: u :: _ =>
    if u.isDigit then (u.toNat - 48) % 2 == 1
    else Text.startsWith mode "+x" || Text.startsWith mode "a+x" || Text.startsWith mode "u+x"
  | _ => Text.startsWith mode "+x"

/-! ## Searching -/

/-- A piece of a search: which characters it takes, and whether any number of them. -/
structure Matcher where
  takes : Char → Bool
  many : Bool

/-- A search: whether it is bound to the start and to the end of a line, and its pieces. -/
structure Search where
  atStart : Bool
  atEnd : Bool
  pieces : List Matcher

/-- The pieces of a search expression, and whether it ends with the sign for the end. -/
def readMatchers : Nat → Text → List Matcher × Bool
  | 0, _ => ([], false)
  | _ + 1, [] => ([], false)
  | _ + 1, ['$'] => ([], true)
  | n + 1, c :: r =>
    let (takes, r) : (Char → Bool) × Text :=
      match c, r with
      | '.', r => (fun _ => true, r)
      | '\\', d :: r => (fun x => x == d, r)
      | '[', r =>
        match r.findIdx (· == ']'), r with
        | k, r =>
          let (inverse, members) := match r.take k with
            | '^' :: s => (true, s)
            | s => (false, s)
          (fun x => Pattern.isMember x (Pattern.loose members) != inverse, r.drop (k + 1))
      | c, r => (fun x => x == c, r)
    let (many, r) := match r with
      | '*' :: r => (true, r)
      | r => (false, r)
    let (ps, atEnd) := readMatchers n r
    ({ takes, many } :: ps, atEnd)

/-- A search expression, or a plain text. -/
def readSearch (plain : Bool) (t : Text) : Search :=
  if plain then { atStart := false, atEnd := false, pieces := t.map fun c => ⟨(· == c), false⟩ }
  else
    let (atStart, t) := match t with
      | '^' :: r => (true, r)
      | r => (false, r)
    let (pieces, atEnd) := readMatchers (t.length + 1) t
    { atStart, atEnd, pieces }

/-- Whether pieces fit the start of a text, or all of it. -/
def fitsFrom (whole : Bool) : Nat → List Matcher → Text → Bool
  | 0, _, _ => false
  | _ + 1, [], t => !whole || t.isEmpty
  | n + 1, p :: ps, t =>
    match p.many, t with
    | true, c :: r => fitsFrom whole n ps (c :: r) || (p.takes c && fitsFrom whole n (p :: ps) r)
    | true, [] => fitsFrom whole n ps []
    | false, c :: r => p.takes c && fitsFrom whole n ps r
    | false, [] => false

/-- Whether a line has what is searched for. -/
def Search.found (s : Search) (line : Text) : Bool :=
  let n := s.pieces.length + line.length + 2
  if s.atStart then fitsFrom s.atEnd n s.pieces line
  else (List.range (line.length + 1)).any fun k => fitsFrom s.atEnd n s.pieces (line.drop k)

/-- The lines of a text, the last one even without a line feed. -/
def fileLines (t : Text) : List Text :=
  let ls := Text.splitOn ['\n'] t
  if ls.getLast? == some [] then ls.dropLast else ls

/-- Searches the lines of files. -/
def grep (m : Machine) (args : List Text) : Machine :=
  let (options, operands) := splitOptions args
  match operands with
  | [] => m.withStatus 2
  | pattern :: files =>
    let (m, bytes) := allContents "grep".toList m files
    let failed := m.status != 0
    let fold (t : Text) : Text := if options.contains 'i' then Text.lower t else t
    let search := readSearch (options.contains 'F') (fold pattern)
    let search :=
      if options.contains 'x' then { search with atStart := true, atEnd := true } else search
    let numbered := (fileLines (Utf8.readLenient bytes)).zipIdx 1
    let hits := numbered.filter fun l => search.found (fold l.1) != options.contains 'v'
    let m := if options.contains 'q' then m
      else if options.contains 'c' then m.say 1 (Text.ofNat hits.length ++ ['\n'])
      else m.say 1 (hits.flatMap fun l =>
        (if options.contains 'n' then Text.ofNat l.2 ++ [':'] else []) ++ l.1 ++ ['\n'])
    m.withStatus (if failed then 2 else if hits.isEmpty then 1 else 0)

/-! ## The table of utilities -/

/-- The number in an option such as `-5` or `-n 5`, and the operands. -/
def countOption (default : Nat) : List Text → Nat × Bool × List Text
  | ['-', 'n'] :: k :: r => ((Text.readNat? k).getD default, false, r)
  | ['-', 'c'] :: k :: r => ((Text.readNat? k).getD default, true, r)
  | ('-' :: c :: k) :: r =>
    if c.isDigit then ((Text.readNat? (c :: k)).getD default, false, r)
    else ((Text.readNat? k).getD default, c == 'c', r)
  | r => (default, false, r)

/-- Runs a utility; `none` if there is none of the name. -/
def utility (left : Nat) (name : Text) (args : List Text) (m : Machine) : Option Machine :=
  let ok := m.withStatus 0
  let (options, operands) := splitOptions args
  match String.ofList name with
  | ":" => some ok
  | "true" => some ok
  | "false" => some (m.withStatus 1)
  | "sleep" => some ok
  | "wait" => some ok
  | "umask" => some ok
  | "trap" => some ok
  | "sync" => some ok
  | "echo" => some (ok.write 1 (echo args))
  | "printf" =>
    match args with
    | [] => some (m.withStatus 2)
    | format :: r =>
      let format := if format = ['-', '-'] then r.headD [] else format
      let r := if args.head? = some ['-', '-'] then r.drop 1 else r
      let p := formatAll format (r.length + 1) { left := r }
      let m := ok.write 1 p.bytes
      some (p.bad.foldl (fun m a =>
        let complaint := "printf: ".toList ++ a ++ ": expected numeric value".toList
        (m.complain left complaint).withStatus 1) m)
  | "cat" =>
    let (m, bytes) := allContents name m operands
    some (m.write 1 bytes)
  | "pwd" => some (ok.say 1 ('/' :: Text.join ['/'] m.cwd ++ ['\n']))
  | "test" => some (runTest m left name args)
  | "[" =>
    if args.getLast? = some [']'] then some (runTest m left name args.dropLast)
    else some ((m.complain left "[: missing ]".toList).withStatus 2)
  | "grep" => some (grep m args)
  | "mkdir" =>
    some (changeEach m name operands fun fs cwd a =>
      if options.contains 'p' then
        match fs.makeDirectories cwd a with
        | (fs, none) => .ok fs
        | (_, some e) => .error e
      else fs.makeDirectory cwd a)
  | "ls" =>
    let listed (m : Machine) (a : Text) : Machine :=
      match m.files.find m.cwd a with
      | .ok (p, .directory) =>
        let visible := (m.files.names p).filter fun n => n.head? != some '.'
        m.say 1 ((visible.mergeSort fun a b => !(decide (b < a))).flatMap fun n => n ++ ['\n'])
      | .ok (_, .file ..) => m.say 1 (a ++ ['\n'])
      | .error e =>
        (m.say 2 ("ls: cannot access '".toList ++ a ++ "': ".toList ++ systemReason e ++
          ['\n'])).withStatus 2
    some ((if operands.isEmpty then [Path.here] else operands).foldl listed ok)
  | "rmdir" => some (changeEach m name operands removeTree)
  | "rm" =>
    some (operands.foldl (fun m a =>
      if options.contains 'f' && !m.files.isThere m.cwd a then m
      else changeFiles m name ("cannot remove '".toList ++ a ++ ['\''])
        (if options.contains 'r' || options.contains 'R' then removeTree m.files m.cwd a
         else m.files.remove m.cwd a)) ok)
  | "touch" => some (changeEach m name operands fun fs cwd a => fs.append cwd a [])
  | "chmod" =>
    match args with
    | mode :: files => some (changeEach m name files (setMode (modeRuns mode)))
    | [] => some (m.withStatus 1)
  | "cp" =>
    match operands.reverse with
    | target :: source :: more =>
      some ((source :: more).reverse.foldl (fun m s =>
        changeFiles m name ("cannot stat '".toList ++ s ++ ['\''])
          (copyFile m.files m.cwd s (targetOf m s target))) ok)
    | _ => some (m.withStatus 1)
  | "mv" =>
    match operands.reverse with
    | target :: source :: more =>
      some ((source :: more).reverse.foldl (fun m s =>
        changeFiles m name ("cannot stat '".toList ++ s ++ ['\''])
          (m.files.rename m.cwd s (targetOf m s target))) ok)
    | _ => some (m.withStatus 1)
  | "basename" =>
    match operands with
    | [a] => some (ok.say 1 (Path.Posix.leaf a ++ ['\n']))
    | a :: suffix :: _ => some (ok.say 1 (Text.dropTail (Path.Posix.leaf a) suffix ++ ['\n']))
    | [] => some (m.withStatus 1)
  | "dirname" =>
    match operands with
    | a :: _ =>
      let d := Path.Posix.dirname (Text.dropEndWhile (· == '/') a)
      some (ok.say 1 ((if d.isEmpty then ['.'] else d) ++ ['\n']))
    | [] => some (m.withStatus 1)
  | "head" =>
    let (k, bytewise, files) := countOption 10 args
    let (m, bytes) := allContents name m files
    if bytewise then some (m.write 1 (bytes.take k))
    else
      let t := Text.splitOn ['\n'] (Utf8.readLenient bytes)
      some (m.say 1 (if k < t.length then (t.take k).flatMap (fun l => l ++ ['\n'])
        else Text.join ['\n'] t))
  | "tail" =>
    let (k, bytewise, files) := countOption 10 args
    let (m, bytes) := allContents name m files
    if bytewise then some (m.write 1 (bytes.drop (bytes.length - k)))
    else
      let ls := fileLines (Utf8.readLenient bytes)
      some (m.say 1 ((ls.drop (ls.length - k)).flatMap fun l => l ++ ['\n']))
  | "wc" =>
    let (m, bytes) := allContents name m operands
    let n := if options.contains 'l' then bytes.count 10
      else if options.contains 'c' then bytes.length
      else (Utf8.readLenient bytes).length
    some (m.say 1 (Text.ofNat n ++
      (match operands with | [a] => ' ' :: a | _ => []) ++ ['\n']))
  | _ => none

end ContractCheck.Shell
