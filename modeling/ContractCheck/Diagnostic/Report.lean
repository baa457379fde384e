import ContractCheck.Diagnostic.Basic
import ContractCheck.Diagnostic.Location
import ContractCheck.Layout
import ContractCheck.Path.Windows

/-! # Compiler reports

The compiler prints one block per problem and an empty line between blocks:

```text
Error: Undeclared identifier.
  --> ~Token.sol:10:5:
   |
10 |     foo();
   |     ^^^^
```

A report is cut into blocks and each block is read on its own, so a block that follows no rule is
skipped and changes nothing about the others.  The platform that the compiler runs on decides how
lines and blocks are separated and how paths are resolved.
-/
namespace ContractCheck

/-- The platform that the compiler runs on. -/
inductive Platform where
  | posix
  | windows
deriving DecidableEq

namespace Platform

/-- The platform with a host's name. -/
def ofHost (name : Text) : Platform := if name = "win32".toList then .windows else .posix

/-- What ends a line. -/
def lineBreak : Platform → Text
  | .posix => ['\n']
  | .windows => ['\r', '\n']

/-- What separates two blocks. -/
def blockBreak : Platform → Text
  | .posix => ['\n', '\n']
  | .windows => ['\r', '\n', '\r', '\n']

/-- The working directory in the platform's spelling. -/
def spell (p : Platform) (cwd : Text) : Text :=
  match p with
  | .posix => cwd
  | .windows => Path.Windows.unify cwd

/-- A file in a directory, as a resolved path. -/
def resolve (p : Platform) (cwd directory name : Text) : Text :=
  match p with
  | .posix => Path.Posix.absolute cwd (Path.Posix.join directory name)
  | .windows => Path.Windows.absolute (p.spell cwd) (Path.Windows.join directory name)

end Platform

/-- How reports are read: the platform, the project's layout, and the working directory that
relative paths are read from. -/
structure ReportReader where
  platform : Platform := .posix
  layout : Layout := {}
  cwd : Text

namespace ReportReader

variable (r : ReportReader)

/-- The fewest lines a block has. -/
def minLines : Nat := 5

/-- The file that a location refers to: its name without the marker, and its path in the contracts
tree.  A file in the working directory keeps its bare name. -/
def sourceOf (file : Text) : Text × Text :=
  let (directory, name) := Layout.splitPath file
  let name := r.layout.stripMarker (Text.trim name)
  let directory := r.layout.fromStagingDir (Text.trim directory)
  if directory = [] ∨ directory = Path.here then (name, name)
  else (name, r.platform.resolve r.cwd directory name)

/-- The severity and the message of a header: what stands before and after its first colon. -/
def readHeader (header : Text) : Except Malformed (Text × Text) :=
  match Text.cutFirst ':' header with
  | none => .error (.noSeverity header)
  | some (severity, message) =>
    if (Text.trim severity).isEmpty then .error (.noSeverity header)
    else .ok (Text.trim severity, Text.trim message)

/-- The diagnostic of a block with a header, a location, and an underlining line. -/
def readBlock (header location underline : Text) : Except Malformed Diagnostic :=
  match readHeader header with
  | .error e => .error e
  | .ok (severity, message) =>
    match Location.read location with
    | .error e => .error e
    | .ok l =>
      let (file, path) := r.sourceOf l.file
      .ok { severity, message, file, path, line := l.line, column := l.column,
            length := underline.count '^' }

/-- A block's lines, without line breaks in front of the first. -/
def linesOf (block : Text) : List Text :=
  Text.splitOn r.platform.lineBreak (block.dropWhile fun c => c == '\r' || c == '\n')

/-- What a block holds; one with too few lines holds nothing and is no diagnostic at all. -/
def readLines? : List Text → Option (Except Malformed Diagnostic)
  | header :: location :: _ :: _ :: underline :: _ => some (r.readBlock header location underline)
  | _ => none

/-- What the blocks of one piece of output hold, in order. -/
def blocks (chunk : Text) : List (Except Malformed Diagnostic) :=
  (Text.splitOn r.platform.blockBreak chunk).filterMap fun b => r.readLines? (r.linesOf b)

/-- What the blocks of several pieces of output hold; no block goes from one piece to the next. -/
def allBlocks (chunks : List Text) : List (Except Malformed Diagnostic) := chunks.flatMap r.blocks

/-- The diagnostics of several pieces of output, in order. -/
def read (chunks : List Text) : List Diagnostic :=
  (r.allBlocks chunks).filterMap fun b => b.toOption

/-- Why blocks were skipped, in order. -/
def skipped (chunks : List Text) : List Malformed :=
  (r.allBlocks chunks).filterMap fun b => match b with
    | .error e => some e
    | .ok _ => none

theorem read_append (xs ys : List Text) : r.read (xs ++ ys) = r.read xs ++ r.read ys := by
  simp [read, allBlocks]

end ReportReader
end ContractCheck
