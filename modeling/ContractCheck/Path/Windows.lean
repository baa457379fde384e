import ContractCheck.Path.Segments

/-! # Windows paths

Paths with backslashes, where a slash counts as one, and with a drive in front: a letter and a
colon, or the server and share of a network path.
-/
namespace ContractCheck.Path.Windows

/-- A character that separates segments. -/
def isSeparator (c : Char) : Bool := c == '\\' || c == '/'

/-- The path with every slash made a backslash. -/
def unify (p : Text) : Text := p.map fun c => if c == '/' then '\\' else c

/-- The number of characters before the first backslash at or after `start`. -/
def findFrom (p : Text) (start : Nat) : Option Nat :=
  (Text.cutFirst '\\' (p.drop start)).map fun q => start + q.1.length

/-- The length of the drive in front of a path. -/
def driveLength (p : Text) : Nat :=
  let q := unify p
  match q with
  | '\\' :: '\\' :: _ =>
    let start := if (q.take 8).map Char.toUpper = "\\\\?\\UNC\\".toList then 8 else 2
    match findFrom q start with
    | none => p.length
    | some i =>
      match findFrom q (i + 1) with
      | none => p.length
      | some j => j
  | _ :: ':' :: _ => 2
  | _ => 0

/-- The drive and the rest of the path. -/
def splitDrive (p : Text) : Text × Text := p.splitAt (driveLength p)

/-- Whether the path does not depend on the working directory: it starts with a separator, or with a
drive letter and one. -/
def isAbsolute (p : Text) : Bool :=
  match unify (p.take 3) with
  | '\\' :: _ => true
  | _ :: ':' :: '\\' :: _ => true
  | _ => false

/-- A drive with a path on it; a network share gets a separator in front of a relative path. -/
def onDrive (drive path : Text) : Text :=
  let needs := match path.head?, drive.getLast? with
    | some c, some d => !isSeparator c && d != ':'
    | _, _ => false
  if needs then drive ++ '\\' :: path else drive ++ path

/-- A path read from a directory. -/
def join (dir p : Text) : Text :=
  let (drive, path) := splitDrive dir
  let (pDrive, pPath) := splitDrive p
  if pPath.head?.any isSeparator then
    onDrive (if !pDrive.isEmpty || drive.isEmpty then pDrive else drive) pPath
  else if !pDrive.isEmpty && Text.lower pDrive != Text.lower drive then onDrive pDrive pPath
  else
    let drive := if pDrive.isEmpty then drive else pDrive
    let path := match path.getLast? with
      | some c => if isSeparator c then path else path ++ ['\\']
      | none => path
    onDrive drive (path ++ pPath)

/-- The path with `.`, `..` and repeated separators resolved by its text alone. -/
def normalise (p : Text) : Text :=
  let (drive, path) := splitDrive (unify p)
  let (lead, path) :=
    if Text.startsWith path ['\\'] then (drive ++ ['\\'], path.dropWhile (· == '\\'))
    else (drive, path)
  let rooted := Text.endsWith lead ['\\']
  let segments := collapse rooted (Text.splitOn ['\\'] path)
  if lead.isEmpty && segments.isEmpty then here else lead ++ Text.join ['\\'] segments

/-- The resolved path, read from the working directory when it is relative. -/
def absolute (cwd p : Text) : Text := normalise (if isAbsolute p then p else join cwd p)

end ContractCheck.Path.Windows
