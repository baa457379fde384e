import ContractCheck.Diagnostic.Basic

/-! # Diagnostics on the console

One line per diagnostic, `file:line:column: label: message [source]`, with positions counted from
one and in the order of positions; diagnostics at one position keep their order.
-/
namespace ContractCheck.Console

/-- The label of a severity. -/
def label : Severity → Text
  | .error => "error".toList
  | .warning => "warning".toList
  | .information => "info".toList
  | .hint => "hint".toList

/-- The escape sequence that starts a severity's color. -/
def colorOf : Severity → Text
  | .error => "\x1b[91m".toList
  | .warning => "\x1b[93m".toList
  | .information => "\x1b[94m".toList
  | .hint => "\x1b[2m".toList

/-- Whether a diagnostic may stand before another. -/
def notAfter (a b : EditorDiagnostic) : Bool :=
  a.start.line < b.start.line ||
    (a.start.line == b.start.line && a.start.character ≤ b.start.character)

/-- The line of a diagnostic. -/
def diagnosticLine (color : Bool) (file : Text) (d : EditorDiagnostic) : Text :=
  let word := label d.severity
  let word := if color then colorOf d.severity ++ word ++ "\x1b[0m".toList else word
  file ++ ':' :: Text.ofNat (d.start.line + 1) ++ ':' :: Text.ofNat (d.start.character + 1) ++
    ": ".toList ++ word ++ ": ".toList ++ d.message ++ " [".toList ++ d.source ++ [']']

/-- The lines of diagnostics of one file. -/
def listing (color : Bool) (file : Text) (ds : List EditorDiagnostic) : List Text :=
  (ds.mergeSort notAfter).map (diagnosticLine color file)

end ContractCheck.Console
