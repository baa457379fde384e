import ContractCheck.Host.Basic
import ContractCheck.Shell.Syntax
import ContractCheck.Shell.Pattern

/-! # The state of a running script

A script has the files, a working directory, variables and arguments, the status of its last
command, its input, and streams by number.  A stream leads to the output or the errors that are
collected, to a file, or nowhere.
-/
namespace ContractCheck.Shell

/-- Where a stream leads. -/
inductive Stream where
  | output
  | errors
  | nowhere
  | file (place : Place)
deriving DecidableEq

/-- Whether a script goes on. -/
inductive Flow where
  | on
  | left (status : Int)
  | breaking (levels : Nat)
  | continuing (levels : Nat)
deriving DecidableEq

/-- The state of a running script. -/
structure Machine where
  files : FileSystem
  cwd : Place
  bindings : Environment := []
  exported : List Text := []
  name : Text := []
  arguments : List Text := []
  script : Text := []
  status : Nat := 0
  streams : List (Nat × Stream) := [(1, .output), (2, .errors)]
  input : Bytes := []
  output : Bytes := []
  errors : Bytes := []
  flow : Flow := .on
  /-- Whether the script ends when a command fails. -/
  strict : Bool := false
  /-- Whether the commands that run are a test. -/
  testing : Bool := false

namespace Machine

variable (m : Machine)

/-- Bytes written to a stream. -/
def write (stream : Nat) (bytes : Bytes) : Machine :=
  match m.streams.lookup stream with
  | some .output => { m with output := m.output ++ bytes }
  | some .errors => { m with errors := m.errors ++ bytes }
  | some (.file p) =>
    match m.files.get? p with
    | some (.file content mode) =>
      { m with files := m.files.set p (.file (content ++ bytes) mode) }
    | _ => m
  | _ => m

/-- A text written to a stream. -/
def say (stream : Nat) (t : Text) : Machine := m.write stream (Utf8.encode t)

/-- The state with a status. -/
def withStatus (status : Nat) : Machine := { m with status }

/-- The state with a variable. -/
def assign (name value : Text) : Machine :=
  if (m.bindings.lookup name).isSome then
    { m with bindings := m.bindings.map fun v => if v.1 = name then (name, value) else v }
  else { m with bindings := m.bindings ++ [(name, value)] }

/-- The line where the script has a given number of characters left. -/
def lineAt (left : Nat) : Nat := ((m.script.take (m.script.length - left)).count '\n') + 1

/-- A complaint about a line of the script. -/
def complain (left : Nat) (what : Text) : Machine :=
  m.say 2 (m.name ++ ": ".toList ++ Text.ofNat (m.lineAt left) ++ ": ".toList ++ what ++ ['\n'])

/-- What the shell says about a file error. -/
def reason (creating : Bool) : FileError → Text
  | .missing => if creating then "Directory nonexistent".toList else "No such file".toList
  | e => e.code.2

/-- The number that a script knows itself by. -/
def identity : Text := "4242".toList

/-- The value of a parameter; all arguments are more than one value. -/
def parameter (name : Text) : List Text :=
  match name with
  | ['@'] => m.arguments
  | ['*'] => m.arguments
  | ['#'] => [Text.ofNat m.arguments.length]
  | ['?'] => [Text.ofNat m.status]
  | ['$'] => [identity]
  | ['-'] => [[]]
  | ['!'] => [[]]
  | ['0'] => [m.name]
  | c :: r =>
    if (c :: r).all Char.isDigit then
      match m.arguments[((c :: r).foldl (fun k d => 10 * k + (d.toNat - 48)) 0) - 1]? with
      | some a => [a]
      | none => []
    else (m.bindings.lookup (c :: r)).toList
  | [] => []

/-- Opens a redirection to an expanded target; what went wrong otherwise. -/
def open_ (stream : Nat) (kind : RedirectKind) (target : Text) : Except Text Machine :=
  let leading (s : Stream) : Machine :=
    { m with streams := (stream, s) :: m.streams.filter fun e => e.1 != stream }
  match kind with
  | .here => .ok { m with input := Utf8.encode target }
  | .read =>
    if target = "/dev/null".toList then .ok { m with input := [] }
    else match m.files.read m.cwd target with
      | .ok bytes => .ok { m with input := bytes }
      | .error e => .error ("cannot open ".toList ++ target ++ ": ".toList ++ reason false e)
  | .duplicate =>
    match m.streams.lookup (target.foldl (fun k d => 10 * k + (d.toNat - 48)) 0) with
    | some s => .ok (leading s)
    | none => .ok (leading .nowhere)
  | kind =>
    if target = "/dev/null".toList then .ok (leading .nowhere)
    else if target = "/dev/stdout".toList then
      .ok (leading ((m.streams.lookup 1).getD .nowhere))
    else if target = "/dev/stderr".toList then
      .ok (leading ((m.streams.lookup 2).getD .nowhere))
    else
      match m.files.update m.cwd target (if kind = .append then id else fun _ => []) with
      | .error e => .error ("cannot create ".toList ++ target ++ ": ".toList ++ reason true e)
      | .ok fs =>
        match fs.resolve m.cwd target with
        | .ok p => .ok { leading (.file p) with files := fs }
        | .error e => .error ("cannot create ".toList ++ target ++ ": ".toList ++ reason true e)

/-- Opens redirections one after another. -/
def openAll : List (Nat × RedirectKind × Text) → Machine → Except Text Machine
  | [], m => .ok m
  | (stream, kind, target) :: r, m => do
    let m ← m.open_ stream kind target
    openAll r m

/-- The state after a command with redirections, the streams from before it in place again. -/
def closeTo (before : Machine) (redirects : List (Nat × RedirectKind × Text)) : Machine :=
  { m with
    streams := before.streams
    input :=
      if redirects.any fun r => r.2.1 = .read ∨ r.2.1 = .here then before.input else m.input }

/-- The state after commands that ran apart: files, what was written and what was read stay, all
else is as before. -/
def rejoin (before : Machine) : Machine :=
  match m.flow with
  | .left status =>
    { before with
      files := m.files, output := m.output, errors := m.errors, input := m.input
      status := (status % 256).toNat
      flow := if status < 0 then .left status else before.flow }
  | _ =>
    { before with
      files := m.files, output := m.output, errors := m.errors, input := m.input
      status := m.status }

end Machine
end ContractCheck.Shell
