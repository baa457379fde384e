import ContractCheck.Diagnostic.Basic
import ContractCheck.Record.Accept

/-! # Diagnostics as records

Reading diagnostics from values, strictly: every field has its own type, unknown fields are refused,
and a severity is never given as a plain value.  Written back, a diagnostic is a table with all its
fields.

`EditorDiagnostic.compose` builds an editor's diagnostic from values whose types are not known, as
reports of tools have them.  Positions below zero count as zero before they are checked.
-/
namespace ContractCheck

namespace Diagnostic

/-- Reads a compiler's diagnostic. -/
def readRecord (v : Value) : Checked Diagnostic :=
  v.record fun fs =>
    Diagnostic.mk
      <$> fs.required "severity" Accept.text
      <*> fs.required "message" Accept.text
      <*> fs.required "file" Accept.text
      <*> fs.required "path" Accept.text
      <*> fs.required "line" Accept.natural
      <*> fs.required "column" Accept.natural
      <*> fs.optional "length" 0 Accept.natural
      <* fs.only ["severity", "message", "file", "path", "line", "column", "length"]

/-- The diagnostic as a table. -/
def toFields (d : Diagnostic) : Fields :=
  [("severity".toList, .text d.severity), ("message".toList, .text d.message),
   ("file".toList, .text d.file), ("path".toList, .text d.path), ("line".toList, .int d.line),
   ("column".toList, .int d.column), ("length".toList, .int d.length)]

end Diagnostic

namespace Position

/-- Reads a place. -/
def readRecord (v : Value) : Checked Position :=
  v.record fun fs =>
    Position.mk
      <$> fs.required "line" Accept.natural
      <*> fs.required "character" Accept.natural
      <* fs.only ["line", "character"]

/-- The place as a table. -/
def toFields (p : Position) : Fields :=
  [("line".toList, .int p.line), ("character".toList, .int p.character)]

end Position

/-- A range of a document. -/
structure DocumentRange where
  start : Position
  stop : Position
deriving DecidableEq

namespace DocumentRange

/-- Reads a range. -/
def readRecord (v : Value) : Checked DocumentRange :=
  v.record fun fs =>
    DocumentRange.mk
      <$> fs.required "start" Position.readRecord
      <*> fs.required "end" Position.readRecord
      <* fs.only ["start", "end"]

/-- The range as a table. -/
def toFields (r : DocumentRange) : Fields :=
  [("start".toList, .table r.start.toFields), ("end".toList, .table r.stop.toFields)]

end DocumentRange

/-- The severity with a value's number; true counts as one and a fraction as none. -/
def Severity.ofValue? : Value → Option Severity
  | .int n => Severity.ofCode? n
  | .bool true => some .error
  | .float x => if x.isIntegral then Severity.ofCode? x.truncate else none
  | _ => none

namespace EditorDiagnostic

/-- Reads an editor's diagnostic. -/
def readRecord (v : Value) : Checked EditorDiagnostic :=
  v.record fun fs =>
    (fun r severity message source code =>
        { start := r.start, stop := r.stop, severity, message, source, code : EditorDiagnostic })
      <$> fs.required "range" DocumentRange.readRecord
      <*> fs.optional "severity" .error Accept.member
      <*> fs.required "message" Accept.text
      <*> fs.optional "source" "solc".toList Accept.text
      <*> fs.optional "code" none (Accept.orNull Accept.text)
      <* fs.only ["range", "severity", "message", "source", "code"]

/-- The diagnostic as a table. -/
def toFields (d : EditorDiagnostic) : Fields :=
  [("range".toList, .table (DocumentRange.mk d.start d.stop).toFields),
   ("severity".toList, .int d.severity.code), ("message".toList, .text d.message),
   ("source".toList, .text d.source),
   ("code".toList, match d.code with | some c => .text c | none => .null)]

/-- Why a diagnostic cannot be built. -/
inductive Unfit where
  /-- A position or length that is no number. -/
  | notComparable
  /-- Fields that are wrong. -/
  | issues (found : List Issue)
deriving DecidableEq

/-- Whether a value is a number below zero; `none` if it is no number. -/
def belowZero? : Value → Option Bool
  | .int n => some (n < 0)
  | .bool _ => some false
  | .float x => some (x.negative && !x.isZero && !x.isNaN)
  | _ => none

/-- The number, or zero if it is below zero. -/
def atLeastZero? (v : Value) : Option Value :=
  (belowZero? v).map fun below => if below then .int 0 else v

/-- A place from two values. -/
def place (line character : Value) : Checked Position :=
  Position.mk <$> (Accept.natural line).behind "line" <*>
    (Accept.natural character).behind "character"

/-- The character after a number of others, when the length is a value. -/
def endOf (character : Nat) : Value → Value
  | .int n => .int (character + n)
  | .bool b => .int (character + if b then 1 else 0)
  | v => v

/-- A diagnostic on one line, from values. -/
def compose (line character length message : Value) (severity : Severity) (source code : Value) :
    Except Unfit EditorDiagnostic :=
  match atLeastZero? line, atLeastZero? character with
  | some line, some character =>
    match place line character with
    | .invalid e => .error (.issues e)
    | .valid start =>
      match atLeastZero? length with
      | none => .error .notComparable
      | some length =>
        let made : Checked EditorDiagnostic :=
          (place (.int start.line) (endOf start.character length)).andThen fun stop =>
            (fun message source code => { start, stop, severity, message, source, code })
              <$> (Accept.text message).behind "message"
              <*> (Accept.text source).behind "source"
              <*> (Accept.orNull Accept.text code).behind "code"
        made.toExcept.mapError .issues
  | _, _ => .error .notComparable

end EditorDiagnostic

namespace CompilerError

/-- Reads a compiler's error. -/
def readRecord (v : Value) : Checked CompilerError :=
  v.record fun fs =>
    CompilerError.mk
      <$> fs.required "file_name" Accept.text
      <*> fs.required "diagnostic" EditorDiagnostic.readRecord
      <* fs.only ["file_name", "diagnostic"]

/-- The error as a table. -/
def toFields (e : CompilerError) : Fields :=
  [("file_name".toList, .text e.fileName), ("diagnostic".toList, .table e.diagnostic.toFields)]

end CompilerError
end ContractCheck
