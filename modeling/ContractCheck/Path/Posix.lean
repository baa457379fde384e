import ContractCheck.Path.Segments

/-! # POSIX paths

Paths with slashes.  A path is absolute when it starts with a slash; two slashes at the start, but
not three, are kept apart from one.
-/
namespace ContractCheck.Path.Posix

/-- Whether the path starts at the root. -/
def isAbsolute (p : Text) : Bool := Text.startsWith p ['/']

/-- A path read from a directory: an absolute one is taken alone. -/
def join (dir p : Text) : Text :=
  if isAbsolute p then p
  else if dir.isEmpty || Text.endsWith dir ['/'] then dir ++ p
  else dir ++ '/' :: p

/-- The slashes that a resolved path starts with. -/
def root : Text → Text
  | '/' :: '/' :: '/' :: _ => ['/']
  | '/' :: '/' :: _ => ['/', '/']
  | '/' :: _ => ['/']
  | _ => []

/-- The path with `.`, `..` and repeated slashes resolved by its text alone. -/
def normalise (p : Text) : Text :=
  let r := root p
  let body := Text.join ['/'] (collapse (!r.isEmpty) (Text.splitOn ['/'] p))
  let out := r ++ body
  if out.isEmpty then here else out

/-- The resolved path, read from the working directory when it is relative. -/
def absolute (cwd p : Text) : Text := normalise (join cwd p)

/-- The path up to and including its last slash, and what follows. -/
def cutName (p : Text) : Text × Text :=
  match Text.cutLast '/' p with
  | some (d, n) => (d ++ ['/'], n)
  | none => ([], p)

/-- The directory part: all before the last slash, without slashes at its end unless it has nothing
else. -/
def dirname (p : Text) : Text :=
  let head := (cutName p).1
  if head.all (· == '/') then head else Text.dropEndWhile (· == '/') head

/-- The part after the last slash. -/
def basename (p : Text) : Text := (cutName p).2

/-- The last extension of the last part, with its dot; dots in front of a name start none. -/
def extension (p : Text) : Text :=
  match Text.cutLast '.' (basename p) with
  | some (stem, ext) => if stem.all (· == '.') then [] else '.' :: ext
  | none => []

/-! ## Paths by their names

Taken name by name, a path only loses empty names and `.`; `..` stays, because what it leads to is
for the file system to say.
-/

/-- The names of a path. -/
def names (p : Text) : List Text := (Text.splitOn ['/'] p).filter fun s => s ≠ [] ∧ s ≠ here

/-- The path that starts like `p` and has these names. -/
def withNames (p : Text) (ns : List Text) : Text :=
  let out := root p ++ Text.join ['/'] ns
  if out.isEmpty then here else out

/-- The path without empty names and `.`. -/
def tidy (p : Text) : Text := withNames p (names p)

/-- The last name of a path; empty for a root. -/
def leaf (p : Text) : Text := ((names p).getLast?).getD []

/-- The tidy path without its last name. -/
def parent (p : Text) : Text := withNames p (names p).dropLast

/-- The tidy path and all its parents, the nearest first. -/
def lineage (p : Text) : List Text :=
  (List.range ((names p).length + 1)).map fun k =>
    withNames p ((names p).take ((names p).length - k))

/-- A path read from a directory, tidy. -/
def child (dir p : Text) : Text := tidy (join (tidy dir) p)

end ContractCheck.Path.Posix
