import ContractCheck.Value.Display

/-! # Failures

What the library itself reports as gone wrong: a kind, a message, and the facts that go with it.
The kinds form a tree, so that a caller may handle one kind or a whole family.  A failure is shown
as its message followed by its facts in the order in which they were given.
-/
namespace ContractCheck

/-- The kinds of failure. -/
inductive FailureKind where
  | general
  | configuration
  | configurationFile
  | configurationValue
  | toolchain
  | componentMissing
  | installation
  | toolRun
  | extension
  | extensionLoad
  | extensionMissing
  | linting
deriving DecidableEq, Repr

namespace FailureKind

/-- The family that a kind belongs to. -/
def parent? : FailureKind → Option FailureKind
  | .general => none
  | .configuration => some .general
  | .configurationFile => some .configuration
  | .configurationValue => some .configuration
  | .toolchain => some .general
  | .componentMissing => some .toolchain
  | .installation => some .toolchain
  | .toolRun => some .toolchain
  | .extension => some .general
  | .extensionLoad => some .extension
  | .extensionMissing => some .extension
  | .linting => some .general

/-- The kind and the families it belongs to, the nearest first. -/
def lineage (k : FailureKind) : List FailureKind :=
  match k.parent? with
  | none => [k]
  | some p =>
    match p.parent? with
    | none => [k, p]
    | some q => [k, p, q]

/-- Whether a kind belongs to a family. -/
def isA (k family : FailureKind) : Bool := k.lineage.contains family

/-- Whether trying again may help. -/
def recoverable (k : FailureKind) : Bool := k != .componentMissing

/-- Whether the failure is about a value that was given. -/
def isBadValue (k : FailureKind) : Bool := k == .configurationValue

/-- How a fact gets into the facts of a failure. -/
inductive FactRule where
  /-- A fact that counts unless it is empty. -/
  | whenGiven
  /-- A fact that counts unless it is null. -/
  | whenPresent
deriving DecidableEq

/-- The facts that a kind knows by name, in the order in which they are shown. -/
def facts : FailureKind → List (Text × FactRule)
  | .configurationFile => [("file_path".toList, .whenGiven)]
  | .configurationValue => [("key".toList, .whenGiven), ("value".toList, .whenPresent)]
  | .componentMissing => [("component".toList, .whenGiven), ("path".toList, .whenGiven)]
  | .installation => [("component".toList, .whenGiven), ("url".toList, .whenGiven)]
  | .toolRun => [("exit_code".toList, .whenPresent), ("command".toList, .whenGiven)]
  | .extensionLoad => [("plugin_name".toList, .whenGiven), ("plugin_type".toList, .whenGiven)]
  | .extensionMissing => [("plugin_name".toList, .whenGiven)]
  | .linting => [("linter".toList, .whenGiven)]
  | _ => []

end FailureKind

/-- A failure: its kind, message and facts; a failed run of a tool also has the tool's exit status
and output. -/
structure Failure where
  kind : FailureKind
  message : Text
  context : Fields := []
  exitStatus : Value := .null
  output : Value := .text []

namespace Failure

/-- The status that a program ends with after a failure. -/
def exitCode (_ : Failure) : Nat := 1

/-- Adds a named fact by its rule. -/
def addFact (given : Fields) (context : Fields) (fact : Text × FailureKind.FactRule) : Fields :=
  match given.get? fact.1 with
  | none => context
  | some v =>
    let counts := match fact.2 with
      | .whenGiven => v.given
      | .whenPresent => match v with | .null => false | _ => true
    if counts then context.put fact.1 v else context

/-- A failure from named facts and from further ones under `context`; `none` if a name is unknown to
the kind.  The cause is known to all kinds and is not shown. -/
def build? (kind : FailureKind) (message : Text) (given : Fields) : Option Failure :=
  let known := kind.facts.map Prod.fst ++ ["context".toList, "cause".toList] ++
    (if kind = .toolRun then ["output".toList] else [])
  if given.keys.all known.contains then
    let further := match given.get? "context" with
      | some (.table fs) => fs
      | _ => []
    some { kind, message, context := kind.facts.foldl (addFact given) further
           exitStatus := (given.get? "exit_code").getD .null
           output := (given.get? "output").getD (.text []) }
  else none

/-- A failure with the given facts, which all count. -/
def of (kind : FailureKind) (message : Text) (facts : Fields) : Failure :=
  { kind, message, context := facts }

/-- The facts in parentheses, each as `key=value`. -/
def renderFacts (fs : Fields) : Text :=
  if fs.isEmpty then []
  else " (".toList ++
    Text.join ", ".toList (fs.map fun f => f.1 ++ '=' :: f.2.display) ++ [')']

/-- The failure in words. -/
def text (f : Failure) : Text := f.message ++ renderFacts f.context

end Failure
end ContractCheck
