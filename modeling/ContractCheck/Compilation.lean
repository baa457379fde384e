import ContractCheck.Staging
import ContractCheck.Import.Resolver
import ContractCheck.Toolchain.Basic
import ContractCheck.Diagnostic.Report
import ContractCheck.Diagnostic.Record

/-! # Compilation

A job is compiled source by source: the source is staged, the compiler and the linker run on the
staged copy, and what they wrote is read for diagnostics.  A tool that fails has said so in what it
wrote, so its failure is only logged.  After a successful link the contract that the linker made
takes its name beside the staged copy, and the compiler's code file is removed.
-/
namespace ContractCheck

/-- What compiles: the toolchain, staging, the reader of what the tools write, and how a document's
imports are found. -/
structure Compilation where
  toolchain : Toolchain
  staging : Staging := {}
  platform : Platform := .posix
  layout : Layout := {}
  resolvesImports : Bool := true
  root : Option Text := none

namespace Compilation

/-- The name that compilation logs under. -/
def owner : String := "CompilationDriver"

/-- The name that the reader of a platform logs under. -/
def readerOwner : Platform → String
  | .posix => "PosixDiagnosticParser"
  | .windows => "WindowsDiagnosticParser"

/-- The extensions of sources. -/
def sourceExtensions : List Text := [".sol".toList, ".tsol".toList]

/-- The compilation that settings describe. -/
def ofSettings (layout : Layout) (validation : ValidationSettings) (toolchain : Toolchain)
    (root : Option Text) : Compilation :=
  { toolchain, staging := Staging.ofSettings layout validation, layout, root }

/-- What the linker says before the name of the file that it made. -/
def savedMark : Text := "Saved contract to file ".toList

/-- The file that the linker says it made: the rest of the line after the first such words. -/
def savedFile? : Text → Option Text
  | [] => none
  | c :: r =>
    if Text.startsWith (c :: r) savedMark then
      some (Text.trim (((c :: r).drop savedMark.length).takeWhile (· != '\n')))
    else savedFile? r

variable (c : Compilation)

/-- An activity whose toolchain failures, and also system faults if so asked, are only logged. -/
def orLogged (act : Action Unit) (withSystem : Bool) (lead : String) (file : Text) : Action Unit :=
  tryCatch act fun e =>
    let logged := Log.debug owner (lead.toList ++ e.message) [("file".toList, .text file)]
    match e with
    | .failure f => if f.kind.isA .toolchain then logged else throw e
    | e => if withSystem && e.fromSystem then logged else throw e

/-- The directory that the tools run in for a file. -/
def directoryOf (file : Text) : Text :=
  let parent := Path.Posix.dirname file
  if parent.isEmpty then Path.here else parent

/-- The directory that the outputs of a file go to, as an absolute path. -/
def targetOf (h : Host) (file : Text) (outputDirectory : Option Text) : Text :=
  Path.Posix.absolute h.directory (match outputDirectory with
    | some (d :: ds) => d :: ds
    | _ => directoryOf file)

/-- The path of an output of a file. -/
def outputOf (file target ext : Text) : Text :=
  Path.Posix.join target (Layout.replaceExtension (Path.Posix.basename file) ext)

/-- Links the code that the compiler made, and puts the contract in its place. -/
def link (file target : Text) : Action Unit := do
  let code := outputOf file target Layout.codeExt
  let out ← c.toolchain.linker.run .keeping (directoryOf file)
    ["compile".toList, code, "--lib".toList, c.toolchain.stdlib.path]
  match savedFile? out with
  | none => Log.debug owner "Linker did not report a contract".toList [("file".toList, .text file)]
  | some name =>
    Action.change (fun fs cwd p => fs.rename cwd p (outputOf file target Layout.bytecodeExt))
      (Path.Posix.join (directoryOf file) name)
    Action.change FileSystem.remove code

/-- Runs the compiler and the linker on a file. -/
def runTools (file target : Text) : Action Unit := do
  orLogged
    (do let _ ← c.toolchain.compiler.run .keeping (directoryOf file)
          ["-o".toList, target, Path.Posix.basename file])
    false "Compiler failed: " file
  orLogged (c.link file target) true "Linking failed: " file

/-- Compiles and links one file; what the tools wrote.  A file without the extension of a source is
left alone. -/
def run (file : Text) (outputDirectory : Option Text) : Action (List Text) := do
  if !sourceExtensions.contains (Path.Posix.extension (Path.Posix.basename file)) then
    Log.info owner "Not compiling: unsupported extension".toList [("file".toList, .text file)]
    pure []
  else
    let (result, blocks) ← Action.transcribed do
      c.toolchain.ensure .keeping
      c.runTools file (targetOf (← get) file outputDirectory)
    match result with
    | .ok _ => pure blocks
    | .error e => throw e

/-- Stages a source and compiles what was staged; what the tools wrote. -/
def runSource (source : Source) : Action (List Text) := do
  match ← c.staging.stageSource source with
  | some staged => c.run staged.staged none
  | none => pure []

/-- Stages and compiles sources one after another; what the tools wrote. -/
def runSources : List Source → Action (List Text)
  | [] => pure []
  | source :: rest => do
    let blocks ← c.runSource source
    let more ← runSources rest
    pure (blocks ++ more)

/-- The reader of what the tools write. -/
def reader (h : Host) : ReportReader :=
  { platform := c.platform, layout := c.layout, cwd := h.directory }

/-- Logs the blocks that could not be read. -/
def logSkipped : List Malformed → Action Unit
  | [] => pure ()
  | m :: ms => do
    Log.debug (readerOwner c.platform) ("Skipping malformed diagnostic block: ".toList ++ m.message)
    logSkipped ms

/-- Stages and compiles a job; the diagnostics of all its sources. -/
def compile (job : Job) : Action (List Diagnostic) := do
  let output ← c.runSources job.toSources
  let r := c.reader (← get)
  c.logSkipped (r.skipped output)
  let ds := r.read output
  Log.debug owner ("Compiled ".toList ++ Text.ofNat job.size ++ " source(s): ".toList ++
    Text.ofNat ds.length ++ " diagnostic(s)".toList)
  pure ds

/-- The job of a document: with its imports, if the project's root is known. -/
def jobOf (path text : Text) (project : Option Import.Project) : Action Job :=
  match project with
  | some p => if c.resolvesImports then p.resolve path text else pure (Job.single path text)
  | none => pure (Job.single path text)

/-- The project that a document's imports are looked up in. -/
def projectOf (root : Option Text) (dependencies dependencyContracts : Text) :
    Option Import.Project :=
  let root := match root with
    | some (d :: ds) => some (d :: ds)
    | _ => c.root
  match root with
  | some (d :: ds) => some { root := d :: ds, dependencies, dependencyContracts }
  | _ => none

/-- Compiles a document together with what it imports. -/
def compileDocument (path text : Text) (project : Option Import.Project) :
    Action (List CompilerError) := do
  let job ← c.jobOf path text project
  let ds ← c.compile job
  pure (ds.map Diagnostic.toCompilerError)

end Compilation
end ContractCheck
