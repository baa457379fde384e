import ContractCheck.Host.Logging
import ContractCheck.Import.Statement
import ContractCheck.Import.Marking
import ContractCheck.Document

/-! # The sources that a document needs

The job of a document holds the document and every file that it imports, directly or through others,
each once and in the order in which they are found.  A relative import is looked up beside the file
that has it; any other in the project's dependency directory, then among the node modules, then
below the project's root.  An import that is not found, or cannot be read, is left out.

A path that is longer than a file system takes leads to no file, so there are only finitely many
paths to go through, and `rounds` is more than their number.
-/
namespace ContractCheck.Import

/-- Where a project's imports are looked up. -/
structure Project where
  root : Text
  dependencies : Text := "lib".toList
  dependencyContracts : Text := "src".toList

namespace Project

/-- The name that import resolution logs under. -/
def owner : String := "ImportResolver"

variable (project : Project)

/-- A path built from parts, each read from the one before. -/
def joinAll (first : Text) (rest : List Text) : Text := rest.foldl Path.Posix.join first

/-- The paths that an import may mean, the first one that leads to a file counts. -/
def candidates (importer target : Text) : List Text :=
  if Text.startsWith target Path.here then
    [Path.Posix.normalise (Path.Posix.join (Path.Posix.dirname importer) target)]
  else
    let unified := target.map fun c => if c = '\\' then '/' else c
    let package := match Text.cutFirst '/' unified with
      | some (name, c :: rest) =>
        [joinAll project.root [project.dependencies, name, project.dependencyContracts, c :: rest]]
      | _ => []
    (package ++ [joinAll project.root [project.dependencies, target],
      joinAll project.root [nodeModules, target], joinAll project.root [target]]).map
      Path.Posix.normalise

/-- The file that an import means. -/
def locate? (fs : FileSystem) (cwd : Place) (importer target : Text) : Option Text :=
  (project.candidates importer target).find? (fs.isFile cwd)

/-- Reads the files that imports of a source mean, leaving out those that are in the job already. -/
def readImports (job : Job) (importer : Text) : List Text → Action (List Source)
  | [] => pure []
  | target :: rest => do
    let h ← get
    match project.locate? h.files h.cwd importer target with
    | none =>
      Log.debug owner ("Unresolved import ".toList ++ Text.quote target ++
        " in ".toList ++ importer)
      readImports job importer rest
    | some path =>
      if job.has path then readImports job importer rest
      else
        let read ← Action.orSystem (some <$> Action.readText path) fun e => do
          Log.debug owner ("Skipping unreadable import ".toList ++ path ++ ": ".toList ++ e.message)
          pure none
        let more ← readImports job importer rest
        pure ((read.map fun content => { path, content }).toList ++ more)

/-- Takes up sources that wait, with what they import, until none is left. -/
def collect : Nat → List Source → Job → Action Job
  | 0, _, job => pure job
  | n + 1, waiting, job =>
    match waiting.dropWhile fun s => job.has s.path with
    | [] => pure job
    | s :: rest => do
      let job := { sources := job.sources ++ [(s.path, s)] }
      let found ← project.readImports job s.path (find s.content)
      collect n (rest ++ found) job

/-- More than the number of texts that can be paths. -/
def rounds : Nat := Nat.pow (0x110000 + 1) (FileSystem.maxPath + 1) + 1

/-- The job of a document. -/
def resolve (path text : Text) : Action Job := do
  let path := Path.Posix.normalise path
  let job ← project.collect rounds [{ path, content := text }] {}
  Log.debug owner ("Resolved ".toList ++ Text.ofNat job.size ++ " source(s)".toList)
    [("file".toList, .text path)]
  pure job

end Project
end ContractCheck.Import
