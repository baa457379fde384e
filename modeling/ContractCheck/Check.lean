import ContractCheck.Compilation
import ContractCheck.Schedule.Machine

/-! # Checking one document

A check is a single pass over a document on a host: the linter is run, the document is compiled with
what it imports, and what both found is put together.  A part that fails is logged and gives
nothing; it takes away nothing from the other part.
-/
namespace ContractCheck

/-- What checks documents: the compilation, and the linter if there is one. -/
structure Check where
  compilation : Compilation
  settings : ValidationSettings
  linter : Option Linter := none
  root : Option Text := none

namespace Check

/-- The name that checks log under. -/
def owner : String := "ValidationScheduler"

variable (c : Check)

/-- An activity that gives a list, or none of it after its fault was logged. -/
def orNothing {α : Type} (act : Action (List α)) (lead : String) (context : Fields) :
    Action (List α) :=
  tryCatch act fun e => do
    Log.warning owner (lead.toList ++ e.message) context
    pure []

/-- What the linter finds. -/
def lint (d : Document) : Action (List EditorDiagnostic) :=
  match c.linter with
  | none => pure []
  | some l => orNothing (l.validate d.path d.text) "Linting failed: "
      (Scheduler.about d ++ [("linter".toList, .text l.name.label)])

/-- What the compiler finds in the document itself. -/
def compile (d : Document) : Action (List EditorDiagnostic) :=
  if c.settings.asYouType then do
    let project :=
      c.compilation.projectOf c.root c.settings.dependencies c.settings.dependencyContracts
    let errors ← orNothing (c.compilation.compileDocument d.path d.text project)
      "Compilation failed: " (Scheduler.about d)
    pure (Scheduler.ownErrors d errors)
  else pure []

/-- What is found in a document. -/
def run (d : Document) : Action (List EditorDiagnostic) := do
  let fromLinter ← c.lint d
  let fromCompiler ← c.compile d
  let found := fromLinter ++ fromCompiler
  Log.debug owner ("Published ".toList ++ Text.ofNat found.length ++ " diagnostic(s)".toList)
    (Scheduler.about d)
  pure found

end Check
end ContractCheck
