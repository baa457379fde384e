import ContractCheck.Shell.Interpreter

/-! # Shell scripts as tools

A tool is a file that may be run and that begins by naming a shell.  A program with a slash in its
name is read from the directory that the tool runs in; any other is looked up along the search path,
and the first one that can be started counts.  Anything else is no program.
-/
namespace ContractCheck.Shell

/-- The budget of one run of a script. -/
def runBudget : Nat := 200000

/-- Whether a file begins by naming its interpreter. -/
def namesInterpreter (content : Bytes) : Bool :=
  match content with
  | 35 :: 33 :: r => (r.takeWhile (· != 10)).any fun b => b != 32 && b != 9
  | _ => false

/-- The script that a path leads to, or why it cannot be started. -/
def load (fs : FileSystem) (cwd : Place) (path : Text) :
    Except FileError (Bytes × Text × Bool) := do
  match ← fs.find cwd path with
  | (_, .directory) => .error .denied
  | (_, .file content mode) =>
    if !mode.executable then .error .denied
    else
      match shellScript? content with
      | some (t, strict) => .ok (content, t, strict)
      | none => .error (if namesInterpreter content then .missing else .notProgram)

/-- The files that a program's name may mean. -/
def programPaths (environment : Environment) (program : Text) : List Text :=
  if program.contains '/' then [program]
  else (Text.splitOn [':'] ((environment.lookup "PATH".toList).getD [])).map fun d =>
    if d.isEmpty then program else Path.Posix.join d program

/-- The first program that can be started.  Otherwise the last error that is not only about a
missing file is the reason. -/
def firstProgram (fs : FileSystem) (cwd : Place) (reason : FileError) :
    List Text → Except FileError (Text × Text × Bool)
  | [] => .error reason
  | path :: rest =>
    match load fs cwd path with
    | .ok (_, t, strict) => .ok (path, t, strict)
    | .error e =>
      firstProgram fs cwd (if e = .missing ∨ e = .notDirectory then reason else e) rest

/-- How a script ended. -/
def finished (m : Machine) : Finished :=
  { status := match m.flow with
      | .left status => status
      | _ => m.status
    output := m.output
    errors := m.errors }

/-- Runs shell scripts and nothing else. -/
def tools : Tools := fun cwd environment invocation fs =>
  let ready : Except FileError (Place × Text × Text × Bool) := do
    if invocation.arguments.any (·.contains '\x00') then .error .unusablePath
    else
      match ← fs.find cwd invocation.directory with
      | (_, .file ..) => .error .notDirectory
      | (place, .directory) =>
        let single := programPaths environment invocation.program
        let (path, t, strict) ← match single with
          | [path] =>
            match load fs place path with
            | .ok (_, t, strict) => .ok (path, t, strict)
            | .error e => .error e
          | paths => firstProgram fs place .missing paths
        .ok (place, path, t, strict)
  match ready with
  | .error e => (.error e, fs)
  | .ok (place, path, t, strict) =>
    let m := runText runBudget t
      { files := fs, cwd := place, bindings := environment, exported := environment.map Prod.fst
        name := path, arguments := invocation.arguments, script := t, input := invocation.input
        strict }
    (.ok (finished m), m.files)

end ContractCheck.Shell
