import ContractCheck.Host.Logging
import ContractCheck.Import.Marking
import ContractCheck.Document
import ContractCheck.Layout
import ContractCheck.Text.Base64
import ContractCheck.Settings.Sections

/-! # Staging

Before a check, every source of a job is written to the temporary tree under a marked name, with its
imports pointing at the other marked names.  After a save or a close, the outputs that the tools
made of a staged source are promoted into the build tree, with the bytecode also in base64, and the
staged source is removed.

A failing file operation is logged and passed over: a source that cannot be written is not staged,
and an output that cannot be moved is not part of the artifact.
-/
namespace ContractCheck

/-- Where staged copies go, and the directories whose imports are left alone. -/
structure Staging where
  layout : Layout := {}
  dependencies : List Text := Import.defaultDependencies

namespace Staging

/-- The name that staging logs under. -/
def owner : String := "StagingService"

/-- Staging by the settings: the project's dependency directory counts as one. -/
def ofSettings (layout : Layout) (validation : ValidationSettings) : Staging :=
  let d := validation.dependencies
  { layout
    dependencies := Import.defaultDependencies ++
      (if d.isEmpty || Import.defaultDependencies.contains d then [] else [d]) }

variable (s : Staging)

/-- The content of the staged copy of a source. -/
def stagedContent (source : Source) : Text :=
  Import.mark s.layout.marker s.dependencies source.content

/-- Writes the staged copy of a source; whether it worked. -/
def writeCopy (source : Source) : Action Bool :=
  let staged := s.layout.stagedPath source.path
  Action.orSystem
    (do
      Action.makeDirectories (Path.Posix.parent staged)
      Action.writeText (Path.Posix.tidy staged) (s.stagedContent source)
      pure true)
    fun e => do
      Log.warning owner ("Failed to stage ".toList ++ source.path ++ " at ".toList ++ staged ++
        ": ".toList ++ e.message)
      pure false

/-- Stages a source; what was staged.  A source that is itself a staged copy has none. -/
def stageSource (source : Source) : Action (Option StagedFile) := do
  if s.layout.isTransient (Layout.splitPath source.path).2 then
    Log.debug owner ("Skipping transient source ".toList ++ source.path)
    pure none
  else
    let staged := s.layout.stagedPath source.path
    if ← s.writeCopy source then
      Log.debug owner ("Staged ".toList ++ source.path ++ " -> ".toList ++ staged)
      pure (some { source := source.path, staged })
    else pure none

/-- Writes the staged copies of sources in order. -/
def stageSources : List Source → Action (List StagedFile)
  | [] => pure []
  | source :: rest => do
    let one ← s.stageSource source
    let more ← stageSources rest
    pure (one.toList ++ more)

/-- Writes the staged copies of all sources of a job. -/
def stage (job : Job) : Action (List StagedFile) := s.stageSources job.toSources

/-- Writes the base64 form of a bytecode file next to it. -/
def writeTransport (bytecode : Text) : Action (Option Text) :=
  let target := Layout.replaceExtension bytecode Layout.transportExt
  Action.orSystem
    (do
      let content ← Action.readFile (Path.Posix.tidy bytecode)
      Action.writeText (Path.Posix.tidy target) (Text.Base64.encode content)
      pure (some target))
    fun e => do
      Log.warning owner ("Failed to write base64 artifact for ".toList ++ bytecode ++ ": ".toList ++
        e.message)
      pure none

/-- Moves an output into the build tree; whether it worked. -/
def move (source target : Text) : Action Bool := do
  let moved ← Action.orSystem
    (do
      Action.makeDirectories (Path.Posix.parent target)
      Action.attempt (fun fs cwd p => fs.move cwd p target) source
      pure true)
    fun e => do
      Log.warning owner ("Failed to promote ".toList ++ source ++ " to ".toList ++ target ++
        ": ".toList ++ e.message)
      pure false
  if moved then Log.debug owner ("Promoted ".toList ++ source ++ " -> ".toList ++ target)
  pure moved

/-- Removes a staged source. -/
def removeStaged (path : Text) : Action Unit :=
  Action.orSystem
    (do
      Action.change FileSystem.remove path
      Log.debug owner ("Removed staged source ".toList ++ path))
    fun e => Log.warning owner ("Failed to remove staged source ".toList ++ path ++ ": ".toList ++
      e.message)

/-- Moves an output of a source into the build tree if it is there; where it is then. -/
def promoteOutput (path ext : Text) : Action (Option Text) := do
  let output := Layout.replaceExtension (s.layout.stagedPath path) ext
  let target := s.layout.buildPath path ext
  if ← Action.look FileSystem.isThere output then
    if ← move output target then pure (some target) else pure none
  else pure none

/-- Moves the outputs of a source into the build tree and removes its staged copy. -/
def promote (path : Text) : Action Artifact := do
  let bytecode ← s.promoteOutput path Layout.bytecodeExt
  let transport ← match bytecode with
    | some target => writeTransport target
    | none => pure none
  let interface ← s.promoteOutput path Layout.interfaceExt
  let staged := s.layout.stagedPath path
  if ← Action.look FileSystem.isThere staged then removeStaged staged
  pure { bytecode, interface, transport }

end Staging
end ContractCheck
