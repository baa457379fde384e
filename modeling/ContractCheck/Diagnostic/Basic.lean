import ContractCheck.Text.Blank

/-! # Diagnostics

A problem found in a contract has two forms.  A `Diagnostic` is what the compiler printed, with
positions counted from one and the name of the file it is about.  An `EditorDiagnostic` is what an
editor shows: a range with positions counted from zero, a severity, and where the problem comes
from.  `Diagnostic.toEditor` goes from the first to the second; no position becomes negative, and
the range stays on one line.
-/
namespace ContractCheck

/-- How severe a problem is, in an editor's terms. -/
inductive Severity where
  | error
  | warning
  | information
  | hint
deriving DecidableEq, Repr

namespace Severity

/-- The number that stands for a severity. -/
def code : Severity → Nat
  | .error => 1
  | .warning => 2
  | .information => 3
  | .hint => 4

/-- The severity with a number. -/
def ofCode? (n : Int) : Option Severity :=
  if n = 1 then some .error
  else if n = 2 then some .warning
  else if n = 3 then some .information
  else if n = 4 then some .hint
  else none

/-- The severity that a tool's word stands for: errors and warnings are known in any case and with
blanks around, and everything else is information. -/
def ofLabel (label : Text) : Severity :=
  let word := Text.lower (Text.trim label)
  if word = "error".toList then .error
  else if word = "warning".toList then .warning
  else .information

theorem ofCode?_code (s : Severity) : ofCode? s.code = some s := by cases s <;> rfl

end Severity

/-- A problem as the compiler reports it: the name of its file, the file's path in the contracts
tree, a position counted from one, and the number of characters underlined. -/
structure Diagnostic where
  severity : Text
  message : Text
  file : Text
  path : Text
  line : Nat
  column : Nat
  length : Nat := 0
deriving DecidableEq

/-- A place in a document, counted from zero. -/
structure Position where
  line : Nat
  character : Nat
deriving DecidableEq

/-- A problem as an editor shows it. -/
structure EditorDiagnostic where
  start : Position
  stop : Position
  severity : Severity := .error
  message : Text
  source : Text := "solc".toList
  code : Option Text := none
deriving DecidableEq

/-- A problem on one line, from a position counted from zero; what would be negative counts as
zero. -/
def EditorDiagnostic.at (line character length : Int) (message : Text) (severity : Severity)
    (source : Text) (code : Option Text) : EditorDiagnostic :=
  { start := ⟨line.toNat, character.toNat⟩
    stop := ⟨line.toNat, character.toNat + length.toNat⟩
    severity, message, source, code }

/-- The name under which compiler problems are shown. -/
def compilerSource : Text := "solc".toList

/-- The problem as an editor shows it. -/
def Diagnostic.toEditor (d : Diagnostic) (source : Text) : EditorDiagnostic :=
  EditorDiagnostic.at ((d.line : Int) - 1) ((d.column : Int) - 1) d.length d.message
    (Severity.ofLabel d.severity) source none

/-- A compiler problem in editor form, with the name of the file it belongs to. -/
structure CompilerError where
  fileName : Text
  diagnostic : EditorDiagnostic
deriving DecidableEq

/-- The problem in editor form, with the name of its file. -/
def Diagnostic.toCompilerError (d : Diagnostic) : CompilerError :=
  { fileName := d.file, diagnostic := d.toEditor compilerSource }

end ContractCheck
