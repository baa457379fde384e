import ContractCheck.FileSystem.Basic
import ContractCheck.Path.Posix

/-! # Access by path

File operations as a program asks for them, by paths that are read from a working directory.  A path
is followed name by name: each name before the last has to be a directory, `..` leads back to the
directory above, and a name or path that is too long is refused.  An operation that fails leaves the
file system as it was.  Two are made of several steps, and may stop half way: `makeDirectories` may
have made some of the directories it was asked for, and `move`, which copies and removes what cannot
be given another name, may have left a copy, or only a part of one.
-/
namespace ContractCheck.FileSystem

/-- The most bytes in one name. -/
def maxName : Nat := 255

/-- The most bytes in a path. -/
def maxPath : Nat := 4095

/-- Whether a name has more bytes than a name may have. -/
def tooLong (name : Text) : Bool := decide (maxName < (Utf8.encode name).length)

/-- Whether a name leads nowhere. -/
def isStill (name : Text) : Bool := name.isEmpty || name == Path.here

/-- The place that names lead to from a directory.  What stands there is not asked for. -/
def walk (fs : FileSystem) : Place → List Text → Except FileError Place
  | dir, [] => .ok dir
  | dir, name :: rest =>
    match fs.get? dir with
    | none => .error .missing
    | some (.file ..) => .error .notDirectory
    | some .directory =>
      if isStill name then walk fs dir rest
      else if name = Path.up then walk fs dir.dropLast rest
      else if tooLong name then .error .nameTooLong
      else walk fs (dir ++ [name]) rest

/-- The directory that a path is read from. -/
def startOf (cwd : Place) (path : Text) : Place := if Path.Posix.isAbsolute path then [] else cwd

/-- The place that a path leads to. -/
def resolve (fs : FileSystem) (cwd : Place) (path : Text) : Except FileError Place :=
  if path.contains '\x00' then .error .unusablePath
  else if path.isEmpty then .error .missing
  else if maxPath < (Utf8.encode path).length then .error .nameTooLong
  else fs.walk (startOf cwd path) (Text.splitOn ['/'] path)

/-- The place that a path leads to, and what stands there. -/
def find (fs : FileSystem) (cwd : Place) (path : Text) : Except FileError (Place × Node) := do
  let p ← fs.resolve cwd path
  match fs.get? p with
  | some n => .ok (p, n)
  | none => .error .missing

/-- Whether something stands there. -/
def isThere (fs : FileSystem) (cwd : Place) (path : Text) : Bool := (fs.find cwd path).isOk

/-- Whether a file stands there. -/
def isFile (fs : FileSystem) (cwd : Place) (path : Text) : Bool :=
  match fs.find cwd path with
  | .ok (_, .file ..) => true
  | _ => false

/-- Whether a directory stands there. -/
def isDirectory (fs : FileSystem) (cwd : Place) (path : Text) : Bool :=
  match fs.find cwd path with
  | .ok (_, .directory) => true
  | _ => false

/-- The bytes of a file. -/
def read (fs : FileSystem) (cwd : Place) (path : Text) : Except FileError Bytes := do
  match ← fs.find cwd path with
  | (_, .directory) => .error .isDirectory
  | (_, .file content mode) => if mode.readable then .ok content else .error .denied

/-- A file's bytes replaced by a function of them; a missing file is made first. -/
def update (fs : FileSystem) (cwd : Place) (path : Text) (change : Bytes → Bytes) :
    Except FileError FileSystem := do
  if Text.endsWith path ['/'] then
    .error (if (fs.resolve cwd path).isOk then .isDirectory else .missing)
  else
    let p ← fs.resolve cwd path
    match fs.get? p with
    | some .directory => .error .isDirectory
    | some (.file content mode) =>
      if mode.writable then .ok (fs.set p (.file (change content) mode)) else .error .denied
    | none =>
      if fs.denied.contains p.dropLast then .error .denied
      else .ok (fs.set p (.file (change []) .plain))

/-- A file written anew. -/
def write (fs : FileSystem) (cwd : Place) (path : Text) (content : Bytes) :
    Except FileError FileSystem := fs.update cwd path fun _ => content

/-- A file with bytes added at its end. -/
def append (fs : FileSystem) (cwd : Place) (path : Text) (content : Bytes) :
    Except FileError FileSystem := fs.update cwd path (· ++ content)

/-- A file that everyone may run. -/
def makeExecutable (fs : FileSystem) (cwd : Place) (path : Text) : Except FileError FileSystem := do
  match ← fs.find cwd path with
  | (_, .directory) => .ok fs
  | (p, .file content mode) => .ok (fs.set p (.file content { mode with executable := true }))

/-- A file removed. -/
def remove (fs : FileSystem) (cwd : Place) (path : Text) : Except FileError FileSystem := do
  match ← fs.find cwd path with
  | (_, .directory) => .error .isDirectory
  | (p, .file ..) => if fs.denied.contains p.dropLast then .error .denied else .ok (fs.erase p)

/-- A directory made in one that is there. -/
def makeDirectory (fs : FileSystem) (cwd : Place) (path : Text) : Except FileError FileSystem := do
  let p ← fs.resolve cwd path
  match fs.get? p with
  | some _ => .error .occupied
  | none =>
    if fs.denied.contains p.dropLast then .error .denied else .ok (fs.set p .directory)

/-- The directories that names lead through, made where they are missing.  The directories made
before a failure stay. -/
def makeAlong (fs : FileSystem) : Place → List Text → FileSystem × Option FileError
  | _, [] => (fs, none)
  | dir, name :: rest =>
    if isStill name then makeAlong fs dir rest
    else if name = Path.up then makeAlong fs dir.dropLast rest
    else if tooLong name then (fs, some .nameTooLong)
    else
      let p := dir ++ [name]
      match fs.get? p with
      | some .directory => makeAlong fs p rest
      | some (.file ..) => (fs, some (if rest.all isStill then .occupied else .notDirectory))
      | none =>
        if fs.denied.contains dir then (fs, some .denied)
        else makeAlong (fs.set p .directory) p rest

/-- A directory made together with the ones above it; one that is there already is fine. -/
def makeDirectories (fs : FileSystem) (cwd : Place) (path : Text) : FileSystem × Option FileError :=
  if path.contains '\x00' then (fs, some .unusablePath)
  else if maxPath < (Utf8.encode path).length then (fs, some .nameTooLong)
  else fs.makeAlong (startOf cwd path) (Text.splitOn ['/'] path)

/-- An entry given another name.  A file may take a file's place, and a directory an empty
directory's.  A directory that is denied stays in the directory that it is in. -/
def rename (fs : FileSystem) (cwd : Place) (source target : Text) :
    Except FileError FileSystem := do
  let (p, n) ← fs.find cwd source
  let q ← fs.resolve cwd target
  if p = q then .ok fs
  else if p.isPrefixOf q then .error .invalid
  else if fs.denied.contains p.dropLast || fs.denied.contains q.dropLast then .error .denied
  else
    match n, fs.get? q with
    | .file .., some .directory => .error .isDirectory
    | .file .., _ => .ok (fs.relocate p q)
    | .directory, some (.file ..) => .error .notDirectory
    | .directory, occupant =>
      if fs.denied.contains p && p.dropLast != q.dropLast then .error .denied
      else if occupant.isSome && fs.occupied q then .error .notEmpty
      else .ok (fs.relocate p q)

/-! ## Moving by copies -/

/-- A file copied to a path, with what may be done with it. -/
def copyFile (fs : FileSystem) (cwd : Place) (source target : Text) :
    Except FileError FileSystem := do
  match ← fs.find cwd source with
  | (_, .directory) => .error .isDirectory
  | (_, .file content mode) =>
    if mode.readable then
      let q ← fs.resolve cwd target
      let fs ← fs.write cwd target content
      .ok (fs.set q (.file content mode))
    else .error .denied

/-- The files at and below a place that cannot be read, by the names that lead to them from
there. -/
def unreadable (fs : FileSystem) (p : Place) : List Place :=
  (fs.entries.filter fun e => p.isPrefixOf e.1 && !e.2.copyable).map fun e => e.1.drop p.length

/-- A path with further names. -/
def pathBelow (path : Text) (names : List Text) : Text := names.foldl Path.Posix.join path

/-- A directory copied with all that is in it to a path where nothing stands.  What cannot be read
is left out. -/
def copyTree (fs : FileSystem) (cwd : Place) (source target : Text) :
    FileSystem × Option FileError :=
  match fs.find cwd source with
  | .error e => (fs, some e)
  | .ok (p, _) =>
    match fs.makeDirectories cwd (Path.Posix.parent target) with
    | (fs, some e) => (fs, some e)
    | (fs, none) =>
      match fs.makeDirectory cwd target, fs.resolve cwd target with
      | .error e, _ | .ok _, .error e => (fs, some e)
      | .ok _, .ok q =>
        let missing :=
          (fs.unreadable p).map fun names => (pathBelow source names, pathBelow target names)
        (fs.graft p q, if missing.isEmpty then none else some (.incomplete missing))

/-- An entry removed with all that is below it, unless the directory that it is in is denied. -/
def drop (fs : FileSystem) (p : Place) : FileSystem × Option FileError :=
  if fs.denied.contains p.dropLast then (fs, some .denied) else (fs.erase p, none)

/-- A directory emptied entry by entry, until one cannot be removed.  The depth bounds how far down
this goes. -/
def empty : Nat → FileSystem → Place → FileSystem × Option FileError
  | 0, fs, _ => (fs, none)
  | depth + 1, fs, p =>
    (fs.names p).foldl (fun (fs, failed) name =>
      match failed with
      | some e => (fs, some e)
      | none =>
        match fs.get? (p ++ [name]) with
        | some .directory =>
          match empty depth fs (p ++ [name]) with
          | (fs, some e) => (fs, some e)
          | (fs, none) => fs.drop (p ++ [name])
        | _ => fs.drop (p ++ [name])) (fs, none)

/-- A directory removed with all that is in it, entry by entry. -/
def removeTree (fs : FileSystem) (cwd : Place) (path : Text) : FileSystem × Option FileError :=
  match fs.find cwd path with
  | .error e => (fs, some e)
  | .ok (p, _) =>
    match empty fs.entries.length fs p with
    | (fs, some e) => (fs, some e)
    | (fs, none) => fs.drop p

/-- A file copied and then removed. -/
def moveFile (fs : FileSystem) (cwd : Place) (source target : Text) :
    FileSystem × Option FileError :=
  match fs.copyFile cwd source target with
  | .error e => (fs, some e)
  | .ok fs =>
    match fs.remove cwd source with
    | .error e => (fs, some e)
    | .ok fs => (fs, none)

/-- A directory copied with all that is in it and then removed. -/
def moveTree (fs : FileSystem) (cwd : Place) (source target : Text) :
    FileSystem × Option FileError :=
  match fs.copyTree cwd source target with
  | (fs, some e) => (fs, some e)
  | (fs, none) => fs.removeTree cwd source

/-- Whether both paths lead to one entry. -/
def sameEntry (fs : FileSystem) (cwd : Place) (source target : Text) : Bool :=
  match fs.find cwd source, fs.find cwd target with
  | .ok (p, _), .ok (q, _) => p == q
  | _, _ => false

/-- Whether a path is, by its text, one at or below another. -/
def isWithin (cwd : Place) (source target : Text) : Bool :=
  let whole (path : Text) := Path.Posix.absolute ('/' :: Text.join ['/'] cwd) path
  Text.startsWith (Path.Posix.join (whole target) []) (Path.Posix.join (whole source) [])

/-- An entry moved to a path where no directory stands: given that name, or else copied and
removed. -/
def bring (fs : FileSystem) (cwd : Place) (source goal target : Text) :
    FileSystem × Option FileError :=
  match fs.rename cwd source goal with
  | .ok fs => (fs, none)
  | .error e =>
    if !e.fromSystem then (fs, some e)
    else if !fs.isDirectory cwd source then fs.moveFile cwd source goal
    else if isWithin cwd source target then (fs, some (.intoItself source target))
    else fs.moveTree cwd source goal

/-- The path in a directory that something is moved to. -/
def enteringPath (source target : Text) : Text :=
  Path.Posix.join target (Path.Posix.basename (Text.dropEndWhile (· == '/') source))

/-- An entry moved to a path, or, if a directory stands there, into that directory. -/
def move (fs : FileSystem) (cwd : Place) (source target : Text) : FileSystem × Option FileError :=
  if fs.isDirectory cwd target && !fs.sameEntry cwd source target then
    let inside := enteringPath source target
    if fs.isThere cwd inside then (fs, some (.taken inside)) else fs.bring cwd source inside target
  else fs.bring cwd source target target

end ContractCheck.FileSystem
