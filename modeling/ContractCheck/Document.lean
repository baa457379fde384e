import ContractCheck.Record.Accept
import ContractCheck.Path.Posix

/-! # Documents, sources and outputs

An open document is a snapshot of its text.  A compile job holds every source that one check needs,
by path and in order.  Staging a source gives a staged file, and promoting what the tools made of it
gives an artifact.  All of these are records that never change once made.
-/
namespace ContractCheck

/-- A snapshot of an open document. -/
structure Document where
  uri : Text
  path : Text
  text : Text
  version : Option Int := none
deriving DecidableEq

namespace Document

/-- The name of the document's file. -/
def basename (d : Document) : Text := Path.Posix.leaf d.path

/-- Reads a snapshot. -/
def read (v : Value) : Checked Document :=
  v.record fun fs =>
    Document.mk
      <$> fs.required "uri" Accept.nonEmpty
      <*> fs.required "path" Accept.nonEmpty
      <*> fs.required "text" Accept.text
      <*> fs.optional "version" none (Accept.orNull Accept.integer)
      <* fs.only ["uri", "path", "text", "version"]

/-- The snapshot as a table. -/
def toFields (d : Document) : Fields :=
  [("uri".toList, .text d.uri), ("path".toList, .text d.path), ("text".toList, .text d.text),
   ("version".toList, match d.version with | some n => .int n | none => .null)]

end Document

/-- A source that a check needs. -/
structure Source where
  path : Text
  content : Text
deriving DecidableEq

namespace Source

/-- Reads a source. -/
def read (v : Value) : Checked Source :=
  v.record fun fs =>
    Source.mk
      <$> fs.required "file_path" Accept.nonEmpty
      <*> fs.required "content" Accept.text
      <* fs.only ["file_path", "content"]

/-- The source as a table. -/
def toFields (s : Source) : Fields :=
  [("file_path".toList, .text s.path), ("content".toList, .text s.content)]

end Source

/-- All sources of one check, by path, in the order in which they are compiled. -/
structure Job where
  sources : List (Text × Source) := []
deriving DecidableEq

namespace Job

/-- The job of a document without imports. -/
def single (path content : Text) : Job := { sources := [(path, { path, content })] }

/-- The job with a source, in the place of an earlier one with its path. -/
def put (j : Job) (s : Source) : Job :=
  if (j.sources.lookup s.path).isSome then
    { sources := j.sources.map fun e => if e.1 = s.path then (s.path, s) else e }
  else { sources := j.sources ++ [(s.path, s)] }

/-- A job of sources in order. -/
def ofSources (ss : List Source) : Job := ss.foldl put {}

/-- The sources in order. -/
def toSources (j : Job) : List Source := j.sources.map Prod.snd

/-- Whether the job has a source with this path. -/
def has (j : Job) (path : Text) : Bool := (j.sources.lookup path).isSome

/-- The number of sources. -/
def size (j : Job) : Nat := j.sources.length

/-- Reads the sources one after another. -/
def readSources : Fields → Checked (List (Text × Source))
  | [] => .valid []
  | (k, v) :: r =>
    (fun s rest => (k, s) :: rest) <$> (Source.read v).behind k <*> readSources r

/-- Reads a job. -/
def read (v : Value) : Checked Job :=
  v.record fun fs =>
    Job.mk
      <$> fs.optional "sources" [] (fun v => (Accept.table v).andThen readSources)
      <* fs.only ["sources"]

/-- The job as a table. -/
def toFields (j : Job) : Fields :=
  [("sources".toList, .table (j.sources.map fun s => (s.1, .table s.2.toFields)))]

end Job

/-- A source and the path of its staged copy. -/
structure StagedFile where
  source : Text
  staged : Text
deriving DecidableEq

namespace StagedFile

/-- Reads a staged file. -/
def read (v : Value) : Checked StagedFile :=
  v.record fun fs =>
    StagedFile.mk
      <$> fs.required "source_path" Accept.text
      <*> fs.required "staged_path" Accept.text
      <* fs.only ["source_path", "staged_path"]

/-- The staged file as a table. -/
def toFields (s : StagedFile) : Fields :=
  [("source_path".toList, .text s.source), ("staged_path".toList, .text s.staged)]

end StagedFile

/-- The build outputs of one source; a path is given only for an output that was made. -/
structure Artifact where
  bytecode : Option Text := none
  interface : Option Text := none
  transport : Option Text := none
deriving DecidableEq

namespace Artifact

/-- Whether anything was promoted. -/
def promoted (a : Artifact) : Bool := a.bytecode.isSome || a.interface.isSome

/-- Reads an artifact. -/
def read (v : Value) : Checked Artifact :=
  v.record fun fs =>
    Artifact.mk
      <$> fs.optional "bytecode_path" none (Accept.orNull Accept.text)
      <*> fs.optional "abi_path" none (Accept.orNull Accept.text)
      <*> fs.optional "base64_path" none (Accept.orNull Accept.text)
      <* fs.only ["bytecode_path", "abi_path", "base64_path"]

/-- A path, or null. -/
def pathValue : Option Text → Value
  | some p => .text p
  | none => .null

/-- The artifact as a table. -/
def toFields (a : Artifact) : Fields :=
  [("bytecode_path".toList, pathValue a.bytecode), ("abi_path".toList, pathValue a.interface),
   ("base64_path".toList, pathValue a.transport)]

end Artifact

/-- The state of one tool of the toolchain. -/
structure ComponentInfo where
  family : Text
  name : Text
  executable : Bool
  path : Text
  installed : Bool
  version : Option Text := none
deriving DecidableEq

namespace ComponentInfo

/-- Reads the state of a tool. -/
def read (v : Value) : Checked ComponentInfo :=
  v.record fun fs =>
    ComponentInfo.mk
      <$> fs.required "namespace" Accept.nonEmpty
      <*> fs.required "name" Accept.nonEmpty
      <*> fs.required "is_executable" Accept.boolean
      <*> fs.required "path" Accept.text
      <*> fs.required "installed" Accept.boolean
      <*> fs.optional "version" none (Accept.orNull Accept.text)
      <* fs.only ["namespace", "name", "is_executable", "path", "installed", "version"]

/-- The state of a tool as a table. -/
def toFields (c : ComponentInfo) : Fields :=
  [("namespace".toList, .text c.family), ("name".toList, .text c.name),
   ("is_executable".toList, .bool c.executable), ("path".toList, .text c.path),
   ("installed".toList, .bool c.installed),
   ("version".toList, Artifact.pathValue c.version)]

end ComponentInfo
end ContractCheck
