import ContractCheck.CommandLine.Usage
import ContractCheck.Check
import ContractCheck.Lint.Registry
import ContractCheck.Settings.Edit
import ContractCheck.Console.Table
import ContractCheck.Console.Listing
import ContractCheck.Path.Address

/-! # Running commands

A command is found by its words, its settings are loaded from the working directory, and then its
own arguments are read.  It ends with a status: 0 if all is well, 1 if it failed or found errors, 2
if its arguments cannot be used.  Help is given before any argument is looked at.
-/
namespace ContractCheck.CommandLine

/-- Prints a line. -/
def say (t : Text) : Action Unit := Action.print (t ++ ['\n'])

/-- Ends with a failure. -/
def fail (message : Text) : Action Nat := do
  Action.complain ("Error: ".toList ++ message ++ ['\n'])
  pure 1

/-- Ends because the arguments cannot be used. -/
def misuse (u : Usage) (m : Misuse) : Action Nat := do
  Action.complain (u.complaint m)
  pure 2

/-- Gives help. -/
def giveHelp (u : Usage) : Action Nat := do
  Action.print u.help
  pure 0

/-- Opens the log that the settings ask for. -/
def openLog (loaded : Settings.Loaded) : Action Unit :=
  modify fun h => { h with log := .planned loaded.config.logging }

/-- A path made absolute. -/
def resolved (h : Host) (path : Text) : Text :=
  match Path.Posix.absolute h.directory path with
  | '/' :: '/' :: p => '/' :: p
  | p => p

/-- What stands at a path that was given as an argument, if anything does. -/
def standing (path : Text) : Action (Option Node) := do
  let h ← get
  match h.files.find h.cwd path with
  | .ok (_, n) => pure (some n)
  | .error .unusablePath => throw (.file .unusablePath path)
  | .error _ => pure none

/-- A misuse that is about a path. -/
def aboutPath (name path : Text) (what : String) : Misuse :=
  .badValue name ("'".toList ++ path ++ "' ".toList ++ what.toList)

/-- The misuse of a path that should lead to a file, which may be missing unless it is needed. -/
def fileMisuse? (name path : Text) (needed : Bool) : Action (Option Misuse) := do
  match ← standing path with
  | some .directory => pure (some (aboutPath name path "is a directory."))
  | some (.file ..) => pure none
  | none => pure (if needed then some (aboutPath name path "does not exist.") else none)

/-- The misuse of a path that should lead to a directory. -/
def directoryMisuse? (name path : Text) : Action (Option Misuse) := do
  match ← standing path with
  | some .directory => pure none
  | some (.file ..) => pure (some (aboutPath name path "is a file."))
  | none => pure (some (aboutPath name path "does not exist."))

/-! ## Checking and promoting -/

/-- The validation settings with what the options ask for instead. -/
def overridden (v : ValidationSettings) (a : Arguments) : ValidationSettings :=
  let v := if a.has "--no-compile" then { v with asYouType := false } else v
  match a.value? "--linter" with
  | some word => { v with linter := LinterName.ofLabel? word }
  | none => v

/-- Whether a diagnostic is an error. -/
def isError (d : EditorDiagnostic) : Bool := d.severity = .error

/-- Prints what was found in a file, and how much. -/
def showFound (file : Text) (ds : List EditorDiagnostic) : Action Nat := do
  let errors := ds.countP isError
  for line in Console.listing false file ds do say line
  say (Text.ofNat errors ++ " error(s), ".toList ++ Text.ofNat (ds.length - errors) ++
    " other diagnostic(s)".toList)
  pure (if errors = 0 then 0 else 1)

/-- The linter that settings ask for, handed its rules. -/
def linterFor (v : ValidationSettings) (root : Option Text) : Option Linter :=
  v.linter.map fun name => { name, root, rules := v.linterRules }

/-- Checks a file. -/
def check (loaded : Settings.Loaded) (a : Arguments) (file : Text) : Action Nat := do
  openLog loaded
  let settings := overridden loaded.config.validation a
  let path := resolved (← get) file
  let shown := Path.Posix.tidy file
  match ← tryCatch (Except.ok <$> Action.readText path) (fun e => pure (.error e)) with
  | .error e =>
    if e.fromSystem || e matches .notText then
      fail ("Cannot read ".toList ++ shown ++ ": ".toList ++ e.message)
    else throw e
  | .ok text =>
    let root := (a.value? "--root").map (resolved (← get))
    let toolchain ← Toolchain.ofSettings loaded.config.toolchain
    let compilation :=
      Compilation.ofSettings loaded.config.layout loaded.config.validation toolchain root
    let checker : Check := { compilation, settings, linter := linterFor settings root, root }
    showFound shown (← checker.run { uri := Path.address path, path, text })

/-- Promotes the outputs of a file. -/
def promote (loaded : Settings.Loaded) (file : Text) : Action Nat := do
  openLog loaded
  let staging := Staging.ofSettings loaded.config.layout loaded.config.validation
  let artifact ← staging.promote (resolved (← get) file)
  if artifact.promoted then
    for (label, path) in [("Bytecode: ", artifact.bytecode), ("Base64: ", artifact.transport),
        ("ABI: ", artifact.interface)] do
      match path with
      | some (c :: cs) => say (label.toList ++ c :: cs)
      | _ => pure ()
  else say "Nothing to promote.".toList
  pure 0

/-! ## Settings -/

/-- A value as settings are shown. -/
def shownValue : Value → Text
  | .null => "(not set)".toList
  | v => v.plain

/-- The value that a key has. -/
def valueOf (loaded : Settings.Loaded) (key : Text) : Value :=
  (Value.getKey key (.table loaded.config.toFields)).getD .null

/-- The lines of a key in the list of settings; the first key of a section stands below its name. -/
def keyLines (loaded : Settings.Loaded) (before : Option Text) (k : Settings.Key) : List Text :=
  let part := fun (name : Text) => name.takeWhile (· != '.')
  let value := valueOf loaded k.name
  (if before.map part = some (part k.name) then [] else ['[' :: part k.name ++ [']']]) ++
    ["  ".toList ++ k.name ++ " = ".toList ++ shownValue value ++
      (if value.agrees k.default then [] else "  (changed)".toList),
     "      ".toList ++ k.description]

/-- Lists all settings. -/
def configList (loaded : Settings.Loaded) : Action Nat := do
  let befores := none :: Settings.keys.map fun k => some k.name
  for (before, k) in befores.zip Settings.keys do
    for line in keyLines loaded before k do say line
  say []
  let file := match loaded.file with
    | some (c :: cs) => c :: cs
    | _ => "(none, using defaults)".toList
  say ("Config file: ".toList ++ file)
  pure 0

/-- Shows one setting. -/
def configGet (loaded : Settings.Loaded) (key : Text) : Action Nat := do
  match Settings.key? key with
  | none => fail ("Unknown config key: ".toList ++ key)
  | some _ =>
    say (key ++ ": ".toList ++ shownValue (valueOf loaded key))
    pure 0

/-- Changes one setting. -/
def configSet (key value : Text) : Action Nat := do
  let h ← get
  match ← tryCatch (Except.ok <$> Settings.assign key value (some h.directory))
    (fun e => pure (.error e)) with
  | .error (.failure f) =>
    if f.kind.isA .configurationValue then fail f.text else throw (.failure f)
  | .error e => throw e
  | .ok (path, v) =>
    say ("Set ".toList ++ key ++ " = ".toList ++ v.plain)
    say ("Saved to ".toList ++ path)
    pure 0

/-! ## Tools -/

/-- Installs the tools. -/
def install (loaded : Settings.Loaded) : Action Nat := do
  openLog loaded
  let tools ← Toolchain.ofSettings loaded.config.toolchain
  match ← tryCatch (Except.ok <$> tools.ensure .echoing) (fun e => pure (.error e)) with
  | .error (.failure f) => if f.kind.isA .toolchain then fail f.text else throw (.failure f)
  | .error e => throw e
  | .ok () =>
    say "Toolchain is installed.".toList
    pure 0

/-- The row of a tool in the table of tools. -/
def infoRow (c : Component) : Action (List Text) := do
  let i ← c.info
  pure [i.name, match i.version with
      | some (c :: cs) => c :: cs
      | _ => ['-'],
    if i.installed then "yes".toList else "no".toList, i.path]

/-- Shows the tools. -/
def info (loaded : Settings.Loaded) : Action Nat := do
  openLog loaded
  let tools ← Toolchain.ofSettings loaded.config.toolchain
  let rows ← tools.wanted.mapM fun w => infoRow w.1
  let headers := ["Component".toList, "Version".toList, "Installed".toList, "Path".toList]
  for line in (Console.table false headers rows).lines do say line
  pure 0

/-! ## From arguments to commands -/

/-- Reads the arguments of a command that has none below it, and runs it. -/
def withArguments (u : Usage) (args : List Text) (act : Arguments → Action Nat) : Action Nat :=
  match Arguments.read u.allChoices false args with
  | .error m => misuse u m
  | .ok a =>
    if a.has "--help" then giveHelp u
    else if h : a.operands.length < u.operands.length then
      misuse u (.operandMissing u.operands[a.operands.length])
    else
      match a.operands.drop u.operands.length with
      | extra :: _ => misuse u (.surplus extra)
      | [] => act a

/-- Runs a command if nothing speaks against its arguments. -/
def unlessMisused (u : Usage) (found : Option Misuse) (act : Action Nat) : Action Nat :=
  match found with
  | some m => misuse u m
  | none => act

/-- The misuse of the options of a check. -/
def checkMisuse? (a : Arguments) : Action (Option Misuse) := do
  let file ← fileMisuse? "FILE".toList (a.operands.headD []) true
  let root ← match a.value? "--root" with
    | some path => directoryMisuse? "--root".toList path
    | none => pure none
  let linter := match a.value? "--linter" with
    | some word =>
      if linterWords.contains word then none
      else some (.badValue "--linter".toList ("'".toList ++ word ++ "' is not one of ".toList ++
        Text.join ", ".toList linterWords))
    | none => none
  pure (file.or (root.or linter))

/-- The commands below a group. -/
def groupCommands (loaded : Settings.Loaded) :
    List (Usage × List (Usage × (Arguments → Action Nat))) :=
  [(configUsage,
     [(configListUsage, fun _ => configList loaded),
      (configGetUsage, fun a => configGet loaded (a.operands.headD [])),
      (configSetUsage, fun a => configSet (a.operands.headD []) (a.operands.getD 1 []))]),
   (toolchainUsage,
     [(installUsage, fun _ => install loaded), (infoUsage, fun _ => info loaded)])]

/-- The commands right below the program. -/
def plainCommands (loaded : Settings.Loaded) : List (Usage × (Arguments → Action Nat)) :=
  [(checkUsage, fun a => do
     unlessMisused checkUsage (← checkMisuse? a) (check loaded a (a.operands.headD []))),
   (promoteUsage, fun a => do
     let file := a.operands.headD []
     unlessMisused promoteUsage (← fileMisuse? "FILE".toList file false) (promote loaded file))]

/-- Finds a command by its name. -/
def named {α : Type} (name : Text) (commands : List (Usage × α)) : Option (Usage × α) :=
  commands.find? fun c => c.1.entry.1 = name

/-- Runs the command below a group that the arguments name. -/
def runGroup (u : Usage) (commands : List (Usage × (Arguments → Action Nat))) (args : List Text) :
    Action Nat :=
  match Arguments.read u.allChoices true args with
  | .error m => misuse u m
  | .ok a =>
    if a.has "--help" then giveHelp u
    else
      match a.operands with
      | [] => giveHelp u
      | name :: rest =>
        match named name commands with
        | none => misuse u (.unknownCommand name)
        | some (below, act) => withArguments below rest act

/-- The failure for a configuration file that cannot be used. -/
def fileFailure (loaded : Settings.Loaded) (error : Value) : Failure :=
  .of .configurationFile error.plain
    (match loaded.file with
      | some (c :: cs) => [("file_path".toList, .text (c :: cs))]
      | _ => [])

/-- Loads the settings and runs a command of the program. -/
def runCommand (name : Text) (rest : List Text) : Action Nat := do
  let loaded ← Settings.load none (some (← get).directory)
  match loaded.error.filter Value.given with
  | some e => fail (fileFailure loaded e).text
  | none =>
    match named name (groupCommands loaded), named name (plainCommands loaded) with
    | some (u, commands), _ => runGroup u commands rest
    | none, some (u, act) => withArguments u rest act
    | none, none => misuse programUsage (.unknownCommand name)

/-- Runs the program and gives its status. -/
def run (args : List Text) : Action Nat :=
  match Arguments.read programUsage.allChoices true args with
  | .error m => misuse programUsage m
  | .ok a =>
    match a.options with
    | (option, _) :: _ =>
      if option = helpChoice.name then giveHelp programUsage
      else do
        say (programName ++ ", version ".toList ++ programVersion)
        pure 0
    | [] =>
      match a.operands with
      | [] => giveHelp programUsage
      | name :: rest =>
        if programUsage.below.any fun c => c.1 = name then runCommand name rest
        else misuse programUsage (.unknownCommand name)

end ContractCheck.CommandLine
