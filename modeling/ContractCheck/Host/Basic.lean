import ContractCheck.FileSystem.Access
import ContractCheck.Log.Record
import ContractCheck.Diagnostic.Record
import ContractCheck.Text.Lines

/-! # Hosts

A host is what an activity can see and change: the file system, the working directory, the
environment, the tools that can be run, the network, the log, and what was printed.  A tool is run
on an invocation and a file system; it ends with a status and its output, or it cannot be started,
and either way it may have changed files.  What tools do and what the network answers is a part of
the host, so statements about an activity are statements about every behaviour of them.

An activity changes the host and gives a value or a fault; what it changed before a fault stays.
-/
namespace ContractCheck

/-- A tool to be run: its file or name, its arguments, the directory it runs in, and its input. -/
structure Invocation where
  program : Text
  arguments : List Text
  directory : Text
  input : Bytes := []

/-- How a run of a tool ended: its status, negative for a signal, and what it wrote. -/
structure Finished where
  status : Int
  output : Bytes
  errors : Bytes

/-- The values of variables by their names. -/
abbrev Environment := List (Text × Text)

/-- The environment with a variable. -/
def Environment.set (e : Environment) (name value : Text) : Environment :=
  if (e.lookup name).isSome then e.map fun v => if v.1 = name then (name, value) else v
  else e ++ [(name, value)]

/-- The environment without a variable. -/
def Environment.unset (e : Environment) (name : Text) : Environment := e.filter fun v => v.1 != name

/-- What running a tool does from a working directory and in an environment. -/
abbrev Tools :=
  Place → Environment → Invocation → FileSystem → Except FileError Finished × FileSystem

/-- No tool can be started. -/
def Tools.absent : Tools := fun _ _ _ fs => (.error .missing, fs)

/-- What comes of asking for the data at an address. -/
inductive Answer where
  | data (bytes : Bytes)
  /-- Nobody is there, or nobody who has it. -/
  | unreachable
  /-- The answer breaks the protocol, or the address asks for something that the protocol cannot
  say. -/
  | garbled
  /-- The address cannot be sent. -/
  | refused

/-- What there is around a host: who answers for which address, and which names are those of the
host. -/
structure Network where
  answer : Text → Answer := fun _ => .unreachable
  own : Text → Bool :=
    fun name => ["localhost".toList, "127.0.0.1".toList].contains (Text.lower name)

/-- A run of a tool: what was run, and the files as they were when it began. -/
structure ToolRun where
  invocation : Invocation
  files : FileSystem

/-- What an activity can see and change. -/
structure Host where
  files : FileSystem := {}
  cwd : Place := []
  environment : Environment := []
  tools : Tools := Tools.absent
  network : Network := {}
  /-- The bytes of a text in the encoding of the locale, in which settings are written, if it has
  all the characters. -/
  locale : Text → Option Bytes := fun t => some (Utf8.encode t)
  /-- The runs of tools so far, in order. -/
  runs : List ToolRun := []
  log : Log.Sink := .nowhere
  /-- What the tools have written since it was last looked at, in order. -/
  transcript : List Text := []
  printed : Text := []
  complaints : Text := []
  /-- The time as log lines show it. -/
  clock : Text := []
  /-- The part of a name that tells a temporary file from all others. -/
  unique : Text := []

/-- Why an activity fails. -/
inductive Fault where
  /-- A file operation failed on a path. -/
  | file (error : FileError) (path : Text)
  /-- The library reports a failure. -/
  | failure (f : Failure)
  /-- A record is not valid. -/
  | invalid (issues : List Issue)
  /-- Bytes are not text. -/
  | notText
  /-- A value has a shape that cannot be used in its place. -/
  | wrongShape (what : Text)
  /-- A value has no part of the name that is asked for. -/
  | noSuchPart (what : Text)
  /-- A value of the right shape cannot be used. -/
  | badValue (what : Text)
  /-- A number has no end. -/
  | endless
  /-- The environment holds a text that is not the value it should be. -/
  | unreadableSetting
  /-- Data at an address cannot be fetched. -/
  | unreachable
  /-- An answer breaks the protocol. -/
  | garbled
  /-- A string has no bytes in the encoding of a file. -/
  | unencodable
  /-- Compressed data breaks its format. -/
  | corrupt
  /-- A path begins in the directory of an unknown user. -/
  | noHome

/-- Whether the system gave the fault, about a file or the network. -/
def Fault.fromSystem : Fault → Bool
  | .file e _ => e.fromSystem
  | .unreachable => true
  | _ => false

/-- The fault in words. -/
def Fault.message : Fault → Text
  | .file e path => e.message path
  | .failure f => f.text
  | .invalid issues => Text.ofNat issues.length ++ " validation error(s)".toList
  | .notText => "'utf-8' codec can't decode".toList
  | .wrongShape what => what
  | .noSuchPart what => what
  | .badValue what => what
  | .endless => "cannot convert float infinity to integer".toList
  | .unreadableSetting => "error parsing value from the environment".toList
  | .unreachable => "<urlopen error>".toList
  | .garbled => "the answer breaks the protocol".toList
  | .unencodable => "the string cannot be encoded".toList
  | .corrupt => "Error -3 while decompressing data".toList
  | .noHome => "Could not determine home directory.".toList

/-- Something done on a host. -/
abbrev Action (α : Type) := ExceptT Fault (StateM Host) α

namespace Host

/-- The working directory as a path. -/
def directory (h : Host) : Text := '/' :: Text.join ['/'] h.cwd

/-- The value of a variable. -/
def lookUp? (h : Host) (name : Text) : Option Text := h.environment.lookup name

/-- The user's own directory. -/
def home (h : Host) : Text := (h.lookUp? "HOME".toList).getD ['/']

/-- A path with a leading `~` replaced by the user's own directory; `none` if it names another
user. -/
def expandHome? (h : Host) (path : Text) : Option Text :=
  if Path.Posix.isAbsolute path then some (Path.Posix.tidy path)
  else match Path.Posix.names path with
    | ['~'] :: rest => some (Path.Posix.withNames h.home (Path.Posix.names h.home ++ rest))
    | ('~' :: _) :: _ => none
    | _ => some (Path.Posix.tidy path)

end Host

namespace Action

/-- The outcome of an activity, and the host after it. -/
def perform {α : Type} (act : Action α) (h : Host) : Except Fault α × Host := act.run h

/-- A look at the file system. -/
def look {α : Type} (f : FileSystem → Place → Text → α) (path : Text) : Action α := do
  let h ← get
  pure (f h.files h.cwd path)

/-- What the file system answers about a path, or its error. -/
def ask {α : Type} (f : FileSystem → Place → Text → Except FileError α) (path : Text) :
    Action α := do
  let h ← get
  match f h.files h.cwd path with
  | .ok a => pure a
  | .error e => throw (.file e path)

/-- A change to the file system. -/
def change (f : FileSystem → Place → Text → Except FileError FileSystem) (path : Text) :
    Action Unit := do
  let fs ← ask f path
  modify fun h => { h with files := fs }

/-- An activity whose faults from the file system are handled. -/
def orSystem {α : Type} (act : Action α) (handle : Fault → Action α) : Action α :=
  tryCatch act fun e => if e.fromSystem then handle e else throw e

/-- The bytes of a file. -/
def readFile (path : Text) : Action Bytes := ask FileSystem.read path

/-- The text of a file, with line breaks made one kind. -/
def readText (path : Text) : Action Text := do
  let bytes ← readFile path
  match Utf8.read? bytes with
  | some t => pure (Text.unifyBreaks t)
  | none => throw .notText

/-- A file written anew. -/
def writeFile (path : Text) (content : Bytes) : Action Unit :=
  change (fun fs cwd p => fs.write cwd p content) path

/-- A file written anew with a text. -/
def writeText (path : Text) (t : Text) : Action Unit := writeFile path (Utf8.encode t)

/-- A change to the file system in several steps.  What was done before a step that fails stays. -/
def attempt (f : FileSystem → Place → Text → FileSystem × Option FileError) (path : Text) :
    Action Unit := do
  let h ← get
  let (fs, e) := f h.files h.cwd path
  set { h with files := fs }
  match e with
  | none => pure ()
  | some e => throw (.file e path)

/-- A directory made together with the ones above it. -/
def makeDirectories (path : Text) : Action Unit := attempt FileSystem.makeDirectories path

/-- Runs a tool in the working directory and the environment; how it ended. -/
def runTool (invocation : Invocation) : Action (Except FileError Finished) := do
  let h ← get
  let (outcome, files) := h.tools h.cwd h.environment invocation h.files
  let run : ToolRun := { invocation, files := h.files }
  set { h with files, runs := h.runs ++ [run] }
  pure outcome

/-- Text for the standard output. -/
def print (t : Text) : Action Unit := modify fun h => { h with printed := h.printed ++ t }

/-- Text for the standard error output. -/
def complain (t : Text) : Action Unit := modify fun h => { h with complaints := h.complaints ++ t }

/-- An activity and what the tools wrote during it. -/
def transcribed {α : Type} (act : Action α) : Action (Except Fault α × List Text) := do
  let before := (← get).transcript
  modify fun h => { h with transcript := [] }
  let result ← tryCatch (Except.ok <$> act) fun e => pure (.error e)
  let blocks := (← get).transcript
  modify fun h => { h with transcript := before }
  pure (result, blocks)

end Action
end ContractCheck
