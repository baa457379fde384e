import ContractCheck.Path.Posix

/-! # Parallel directory trees

A project keeps its contracts in one directory.  Staged copies live in a second one of the same
shape, with a marker in front of their names, and build outputs live in a third.  A layout names the
three directories and the marker, and maps places between the trees.  Paths may use either kind of
slash.
-/
namespace ContractCheck

/-- The directories of a project and the marker of staged copies. -/
structure Layout where
  contracts : Text := "contracts".toList
  temp : Text := ".temp".toList
  build : Text := "build".toList
  marker : Text := ['~']
deriving DecidableEq

namespace Layout

/-- Extension of compiled bytecode. -/
def bytecodeExt : Text := ".tvc".toList

/-- Extension of a contract's interface description. -/
def interfaceExt : Text := ".abi.json".toList

/-- Extension of bytecode in its transport form. -/
def transportExt : Text := ".base64".toList

/-- Extension of the code the compiler hands to the linker. -/
def codeExt : Text := ".code".toList

/-- Either kind of slash. -/
def isSlash (c : Char) : Bool := c == '/' || c == '\\'

/-- A character that an extension cannot hold. -/
def endsExtension (c : Char) : Bool := isSlash c || c == '.'

/-- The file name with its last extension replaced; one without an extension gets it added.  A dot
with nothing behind it starts no extension. -/
def replaceExtension (name ext : Text) : Text :=
  let tail := (name.reverse.takeWhile fun c => !endsExtension c).reverse
  match name.reverse.dropWhile fun c => !endsExtension c with
  | '.' :: stem => if tail.isEmpty then name ++ ext else stem.reverse ++ ext
  | _ => name ++ ext

/-- The directory and the name of a path, cut at its last slash of either kind. -/
def splitPath (path : Text) : Text × Text := (Text.cutLastWhere isSlash path).getD ([], path)

/-- The text with its first occurrence of `old` made `new`. -/
def replaceFirst (old new : Text) : Text → Text
  | [] => if old.isEmpty then new else []
  | c :: r =>
    if Text.startsWith (c :: r) old then new ++ (c :: r).drop old.length
    else c :: replaceFirst old new r

/-- The text with `old` at its end made `new`; a line feed may follow it. -/
def replaceLast (old new : Text) : Text → Text
  | [] => if old.isEmpty then new else []
  | c :: r =>
    if Text.startsWith (c :: r) old then
      match (c :: r).drop old.length with
      | [] => new
      | ['\n'] => new ++ ['\n']
      | _ => c :: replaceLast old new r
    else c :: replaceLast old new r

/-- The directory with the segment `source` made `target`, for one kind of slash: its first
occurrence between two slashes and the one at the end. -/
def swapBetween (sep : Char) (source target directory : Text) : Text :=
  replaceLast (sep :: source) (sep :: target)
    (replaceFirst (sep :: source ++ [sep]) (sep :: target ++ [sep]) directory)

/-- The directory with the segment `source` made `target`, for both kinds of slash. -/
def swapSegment (directory source target : Text) : Text :=
  swapBetween '\\' source target (swapBetween '/' source target directory)

/-- The staging directory that stands for a contracts directory. -/
def toStagingDir (l : Layout) (directory : Text) : Text := swapSegment directory l.contracts l.temp

/-- The build directory that stands for a contracts directory. -/
def toBuildDir (l : Layout) (directory : Text) : Text := swapSegment directory l.contracts l.build

/-- The contracts directory that a staging directory stands for. -/
def fromStagingDir (l : Layout) (directory : Text) : Text :=
  swapSegment directory l.temp l.contracts

/-- Whether a file name is that of a staged copy. -/
def isTransient (l : Layout) (name : Text) : Bool := Text.startsWith name l.marker

/-- The file name without the marker, if it has it. -/
def stripMarker (l : Layout) (name : Text) : Text :=
  if l.isTransient name then name.drop l.marker.length else name

/-- Where the staged copy of a file is written. -/
def stagedPath (l : Layout) (path : Text) : Text :=
  let (directory, name) := splitPath path
  Path.Posix.join (l.toStagingDir directory) (l.marker ++ name)

/-- Where the build output of a file with this extension is kept. -/
def buildPath (l : Layout) (path ext : Text) : Text :=
  let (directory, name) := splitPath path
  Path.Posix.join (l.toBuildDir directory) (replaceExtension name ext)

end Layout
end ContractCheck
