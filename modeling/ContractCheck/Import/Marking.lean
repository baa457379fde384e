import ContractCheck.Import.Statement
import ContractCheck.Layout

/-! # Marking imports

A staged copy imports the staged copies of its own project, so the module name in each of its import
statements gets the marker in front.  Imports that go through the directory of a dependency stay as
they are, and so does every character outside the module names.

A path is cut into a directory, a module name and an extension.  The directory ends at the last
slash that is followed by a name with a dot; a path with no such name is not marked.
-/
namespace ContractCheck.Import

/-- The directory that package imports go through unless configured otherwise. -/
def nodeModules : Text := "node_modules".toList

/-- The directories whose imports are never marked, by default. -/
def defaultDependencies : List Text := [nodeModules]

/-- The segments of an import path, for either kind of slash. -/
def segments : Text → List Text
  | [] => [[]]
  | c :: r => if Layout.isSlash c then [] :: segments r else Text.consFirst c (segments r)

/-- Whether a directory has a dependency among its segments. -/
def isDependency (directory : Text) (dependencies : List Text) : Bool :=
  dependencies.any fun d => (segments directory).contains d

/-- The module name at the start of a path, if a dot follows it, and the rest from that dot on. -/
def moduleName? (path : Text) : Option (Text × Text) :=
  let (name, rest) := path.span fun c => !(Layout.endsExtension c)
  match rest with
  | '.' :: r => some (name, '.' :: r)
  | _ => none

/-- A path cut into its directory, module name and extension. -/
def cutModule? : Text → Option (Text × Text × Text)
  | [] => none
  | c :: r =>
    match cutBehindSlash? (c :: r) with
    | some p => some p
    | none => (moduleName? (c :: r)).map fun p => ([], p.1, p.2)
where
  /-- The cut at the last slash that a name with a dot follows. -/
  cutBehindSlash? : Text → Option (Text × Text × Text)
    | [] => none
    | c :: r =>
      match cutBehindSlash? r with
      | some (d, n, e) => some (c :: d, n, e)
      | none => if Layout.isSlash c then (moduleName? r).map fun p => ([c], p.1, p.2) else none

/-- The path with the marker in front of its module name, unless it goes through a dependency or the
name is empty or has the marker already. -/
def markPath (marker : Text) (dependencies : List Text) (directory name ext : Text) : Text :=
  if isDependency directory dependencies || name.isEmpty || Text.startsWith name marker then
    directory ++ name ++ ext
  else directory ++ marker ++ name ++ ext

/-- The marked form of a statement behind its keyword, and what follows the statement.  The closing
quote must be the opening one. -/
def markAt? (marker : Text) (dependencies : List Text) (t : Text) : Option (Text × Text) :=
  match opening? t with
  | none => none
  | some o =>
    match o.rest with
    | [] => none
    | close :: rest =>
      if close = o.quote then
        match cutModule? o.path with
        | none => none
        | some (directory, name, ext) =>
          some (o.clause ++ o.quote :: markPath marker dependencies directory name ext ++ [close],
            rest)
      else none

/-- The marked form of a text whose next `skip` characters belong to a statement already marked. -/
def markFrom (marker : Text) (dependencies : List Text) : Nat → Text → Text
  | _, [] => []
  | skip + 1, _ :: r => markFrom marker dependencies skip r
  | 0, c :: r =>
    if Text.startsWith (c :: r) keyword then
      match markAt? marker dependencies ((c :: r).drop keyword.length) with
      | some (marked, rest) =>
        keyword ++ marked ++ markFrom marker dependencies (r.length - rest.length) r
      | none => c :: markFrom marker dependencies 0 r
    else c :: markFrom marker dependencies 0 r

/-- The source text with the marker in front of the module names of its own project. -/
def mark (marker : Text) (dependencies : List Text) (content : Text) : Text :=
  markFrom marker dependencies 0 content

end ContractCheck.Import
