import ContractCheck.Lint.Report
import ContractCheck.Host.Logging
import ContractCheck.Json.Writer

/-! # Linters

A linter is a program that reads a document's text and prints a report.  The rules that are set in
the editor are written to a file for the run, which is removed afterwards whatever happens.
-/
namespace ContractCheck

/-- A linter with the directory that it runs in and the rules that are set. -/
structure Linter where
  name : LinterName
  root : Option Text := none
  rules : Fields := []

namespace Linter

/-- The name that a linter logs under. -/
def ownerOf : LinterName → String
  | .solhint => "SolhintLinter"
  | .solium => "SoliumLinter"

variable (l : Linter)

/-- The linter with other rules. -/
def withRules (rules : Fields) : Linter := { l with rules }

/-- The command for a document, with the rule file if there is one. -/
def command (path : Text) (ruleFile : Option Text) : List Text :=
  let further := match ruleFile with
    | some (c :: cs) => ["--config".toList, c :: cs]
    | _ => []
  (match l.name with
    | .solhint =>
      ["solhint".toList, "stdin".toList, "--filename".toList, path, "--formatter".toList,
        "json".toList]
    | .solium => ["solium".toList, "--stdin".toList, "--reporter".toList, "gcc".toList]) ++ further

/-- The contents of the rule file. -/
def ruleDocument : Fields :=
  match l.name with
  | .solhint => [("rules".toList, .table l.rules)]
  | .solium =>
    [("extends".toList, .text "solium:recommended".toList), ("rules".toList, .table l.rules)]

/-- Reads a report. -/
def readReport (output : Text) : Except Fault (List EditorDiagnostic) :=
  match l.name with
  | .solhint => Lint.readEntries output
  | .solium => Lint.readFindings output

/-- The path of the rule file of a run. -/
def rulePath (h : Host) : Text :=
  "/tmp/".toList ++ l.name.label ++ '-' :: h.unique ++ ".json".toList

/-- The directory that the linter runs in for a document. -/
def directoryFor (h : Host) (path : Text) : Text :=
  match l.root with
  | some (c :: cs) => c :: cs
  | _ => if (Path.Posix.dirname path).isEmpty then h.directory else Path.Posix.dirname path

/-- Runs the program on a text; what it wrote. -/
def execute (path text : Text) (ruleFile : Option Text) : Action (Text × Text) := do
  let command := l.command path ruleFile
  Log.debug (ownerOf l.name) ("Running linter: ".toList ++ Text.join [' '] command)
  let directory := l.directoryFor (← get) path
  match ← Action.runTool
    { program := command.headD [], arguments := command.drop 1, directory,
      input := Utf8.encode text } with
  | .error e =>
    if e.fromSystem then throw (Lint.failure l.name ("Failed to run ".toList ++ l.name.label))
    else throw (.file e path)
  | .ok finished =>
    match Utf8.read? finished.output, Utf8.read? finished.errors with
    | some out, some errors => pure (Text.unifyBreaks out, Text.unifyBreaks errors)
    | _, _ => throw .notText

/-- Writes the rule file, if rules are set.  Rules that are no JSON leave an empty one. -/
def writeRules : Action (Option Text) := do
  if l.rules.isEmpty then pure none
  else
    let path := l.rulePath (← get)
    match Json.write? (.table l.ruleDocument) with
    | some document =>
      Action.writeText path document
      pure (some path)
    | none =>
      Action.writeFile path []
      throw (.badValue "the rules are no JSON".toList)

/-- The outcome of an activity, after which the rule file is removed. -/
def withoutRuleFile {α : Type} (ruleFile : Option Text) (act : Action α) : Action α := do
  let result ← tryCatch (Except.ok <$> act) fun e => pure (.error e)
  match ruleFile with
  | some path => Action.change FileSystem.remove path
  | none => pure ()
  match result with
  | .ok a => pure a
  | .error e => throw e

/-- The diagnostics of a document. -/
def validate (path text : Text) : Action (List EditorDiagnostic) := do
  let ruleFile ← l.writeRules
  let (out, errors) ← withoutRuleFile ruleFile (l.execute path text ruleFile)
  if !errors.isEmpty then
    Log.debug (ownerOf l.name) (l.name.label ++ " stderr: ".toList ++ Text.trim errors)
  match l.readReport out with
  | .ok ds => pure ds
  | .error e => throw e

end Linter
end ContractCheck
