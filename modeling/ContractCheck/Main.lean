import ContractCheck.CommandLine.Commands
import ContractCheck.FileSystem.Tree
import ContractCheck.Shell.Tools

/-!
The program: it reads the project's files into a file system, runs the command, and writes what
changed.

What it reads is the tree below the working directory, the user's own directory of tools, the
configuration files of the directories above, and the linters on the search path.  Files that begin
like scripts count as programs.
-/
namespace ContractCheck.Main

/-- The path of a place. -/
def pathOf (p : Place) : String := String.ofList ('/' :: Text.join ['/'] p)

/-- The place of a path. -/
def placeOf (path : String) : Place := Path.Posix.names path.toList

/-- A file that was read. -/
def nodeOf (content : ByteArray) : Node :=
  let bytes := content.toList
  .file bytes { executable := bytes.take 2 == Utf8.encode "#!".toList }

/-- The file system with a file as it is on disk, if it is there. -/
def readOne (fs : FileSystem) (p : Place) : IO FileSystem := do
  try
    let content ← IO.FS.readBinFile (pathOf p)
    pure (fs.plant p (nodeOf content))
  catch _ => pure fs

/-- The file system with everything at and below a directory as it is on disk. -/
partial def readTree (fs : FileSystem) (p : Place) : IO FileSystem := do
  try
    let directory ← IO.FS.realPath (pathOf p)
    if ← directory.isDir then
      let mut fs := fs.plant p .directory
      for e in ← directory.readDir do
        fs ← readTree fs (p ++ [e.fileName.toList])
      pure fs
    else readOne fs p
  catch _ => pure fs

/-- The variables that settings may come from. -/
def variableNames : List String :=
  let upper := fun (t : Text) => String.ofList (t.map Char.toUpper)
  let sections := (Config.toFields {}).flatMap fun s =>
    upper s.1 :: (fieldsOf s.2).map fun f => upper s.1 ++ "__" ++ upper f.1
  ["HOME", "PATH"] ++ sections.map ("SOLCHECK_" ++ ·)
where
  /-- The fields of a section. -/
  fieldsOf : Value → Fields
    | .table fs => fs
    | _ => []

/-- The environment of the program. -/
def readEnvironment : IO Environment :=
  variableNames.foldlM (fun e name => do
    match ← IO.getEnv name with
    | some value => pure (e.set name.toList value.toList)
    | none => pure e) []

/-- The host that the program runs on. -/
def readHost : IO Host := do
  let environment ← readEnvironment
  let directory ← IO.currentDir
  let cwd := placeOf directory.toString
  let home := placeOf (String.ofList ((environment.lookup "HOME".toList).getD ['/']))
  let mut files ← readTree .blank cwd
  files ← readTree files (home ++ [".solcheck".toList])
  for k in List.range cwd.length do
    files ← readOne files (cwd.take k ++ ["pyproject.toml".toList])
    files ← readOne files (cwd.take k ++ [".solcheck".toList, "config.toml".toList])
  for directory in Text.splitOn [':'] ((environment.lookup "PATH".toList).getD []) do
    for linter in CommandLine.linterWords do
      files ← readOne files (placeOf (String.ofList directory) ++ [linter])
  let time ← IO.monoMsNow
  let number ← IO.rand 10000000 99999999
  let clock := Text.ofNat time
  pure { files, cwd, environment, tools := Shell.tools, clock, unique := Text.ofNat number }

/-- Writes one change to disk. -/
def writeChange (change : Place × Option Node) : IO Unit := do
  let path := pathOf change.1
  match change.2 with
  | some .directory => IO.FS.createDirAll path
  | some (.file content mode) =>
    IO.FS.createDirAll (pathOf change.1.dropLast)
    IO.FS.writeBinFile path (ByteArray.mk content.toArray)
    if mode.executable then
      let all : IO.AccessRight := { read := true, write := true, execution := true }
      let others : IO.AccessRight := { read := true, execution := true }
      IO.setAccessRights path { user := all, group := others, other := others }
  | none =>
    let place ← IO.FS.realPath path
    if ← place.isDir then IO.FS.removeDirAll path else IO.FS.removeFile path

end ContractCheck.Main

open ContractCheck in
/-- Runs a command and ends with its status. -/
def main (args : List String) : IO UInt32 := do
  let host ← ContractCheck.Main.readHost
  let (result, after) := (CommandLine.run (args.map String.toList)).perform host
  for change in host.files.changes after.files [] do
    try ContractCheck.Main.writeChange change catch _ => pure ()
  (← IO.getStdout).putStr (String.ofList after.printed)
  (← IO.getStderr).putStr (String.ofList after.complaints)
  match result with
  | .ok status => pure status.toUInt32
  | .error e =>
    (← IO.getStderr).putStrLn (String.ofList e.message)
    pure 1
