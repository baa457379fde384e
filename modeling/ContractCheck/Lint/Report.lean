import ContractCheck.Host.Basic
import ContractCheck.Json.Reader
import ContractCheck.Text.Word
import ContractCheck.Text.Lines

/-! # Reports of linters

What the two linters print.  The first one prints a JSON list with an entry for each finding; its
lines and columns count from one.  The second one prints a line for each finding,
`file:line:column: severity: message`; its columns count from zero.  Everything else that they print
is passed over.  A string that is no text becomes part of a diagnostic as it shows.
-/
namespace ContractCheck.Lint

/-- The failure of a linter. -/
def failure (linter : LinterName) (message : Text) : Fault :=
  .failure (.of .linting message [("linter".toList, .text linter.label)])

/-! ## Entries in JSON -/

/-- The whole number of a value: a number without its fraction, or the number that a text is. -/
def whole (v : Value) : Except Fault Int :=
  match v with
  | .int n => .ok n
  | .bool b => .ok (if b then 1 else 0)
  | .float x =>
    if x.isNaN then .error (.badValue "cannot convert float NaN to integer".toList)
    else if x.isFinite then .ok x.truncate
    else .error .endless
  | .text t =>
    match Text.readInt? t with
    | some n => .ok n
    | none =>
      .error (.badValue ("invalid literal for int() with base 10: ".toList ++ Text.quote t))
  | .broken s =>
    .error (.badValue ("invalid literal for int() with base 10: ".toList ++ s.points.quote))
  | .moment _ => .error (.wrongShape (notNumber "datetime"))
  | .misnamed _ v => whole v
  | .null => .error (.wrongShape (notNumber "NoneType"))
  | .list _ => .error (.wrongShape (notNumber "list"))
  | .table _ => .error (.wrongShape (notNumber "dict"))
where
  /-- What is said about a value that is no number. -/
  notNumber (kind : String) : Text :=
    "int() argument must be a string, a bytes-like object or a real number, not '".toList ++
      kind.toList ++ ['\'']

/-- The severity that an entry gives by number or by name. -/
def severityOf (v : Value) : Severity :=
  match v with
  | .int n => if n = 2 then .error else if n = 1 then .warning else .information
  | .bool b => if b then .warning else .information
  | v => Severity.ofLabel (if v.given then v.plain else [])

/-- The message of an entry, with the rule that it is about in brackets. -/
def messageOf (message rule : Value) : Value :=
  if rule.given then .text (message.plain ++ " [".toList ++ rule.plain ++ [']']) else message

/-- The diagnostic of an entry, if it has a line. -/
def entry (fs : Fields) : Except Fault (Option EditorDiagnostic) := do
  match Fields.get? fs "line".toList with
  | none => .ok none
  | some line =>
    let message := (Fields.get? fs "message".toList).getD (.text [])
    let rule := (Fields.get? fs "ruleId".toList).getD .null
    let column := (Fields.get? fs "column".toList).getD .null
    let line ← whole line
    let column ← whole (if column.given then column else .int 1)
    match EditorDiagnostic.compose (.int (line - 1)) (.int (column - 1)) (.int 0)
        (messageOf message rule) (severityOf ((Fields.get? fs "severity".toList).getD .null))
        (.text LinterName.solhint.label) rule with
    | .ok d => .ok (some d)
    | .error (.issues is) => .error (.invalid is)
    | .error .notComparable => .error (.wrongShape "a position is no number".toList)

/-- The diagnostics of entries in order. -/
def entries : List Value → Except Fault (List EditorDiagnostic)
  | [] => .ok []
  | .table fs :: r => do
    let d ← entry fs
    let ds ← entries r
    .ok (d.toList ++ ds)
  | _ :: r => entries r

/-- Reads a report in JSON. -/
def readEntries (output : Text) : Except Fault (List EditorDiagnostic) :=
  if (Text.trim output).isEmpty then .ok []
  else match Json.read? output with
    | none => .error (failure .solhint "Unreadable solhint report".toList)
    | some (.list vs) => entries vs
    | some _ => .ok []

/-! ## Lines -/

/-- What a line of a report says. -/
structure Finding where
  line : Text
  column : Text
  severity : Text
  message : Text
deriving DecidableEq

/-- Digits at the start that a colon follows, and what comes after the colon. -/
def digitsThenColon? (t : Text) : Option (Text × Text) :=
  let ds := t.takeWhile Text.isDecimal
  match t.drop ds.length with
  | ':' :: r => if ds.isEmpty then none else some (ds, r)
  | _ => none

/-- What follows the file and its colon in a line of a report. -/
def findingAfter? (t : Text) : Option Finding :=
  match digitsThenColon? t with
  | none => none
  | some (line, r) =>
    match digitsThenColon? r with
    | none => none
    | some (column, r) =>
      let r := Text.trimStart r
      let severity := r.takeWhile Text.isWord
      match r.drop severity.length with
      | ':' :: r =>
        if severity.isEmpty then none
        else some { line, column, severity, message := Text.trimStart r }
      | _ => none

/-- What a line of a report says; the file ends at the first colon after which the rest fits. -/
def finding? : Text → Option Finding
  | [] => none
  | c :: r =>
    match if c = ':' then findingAfter? r else none with
    | some f => some f
    | none => finding? r

/-- The diagnostic of a finding. -/
def Finding.toEditor (f : Finding) : Except Fault EditorDiagnostic :=
  match Text.readInt? f.line, Text.readInt? f.column with
  | some line, some column =>
    .ok (EditorDiagnostic.at (line - 1) column 0 f.message (Severity.ofLabel f.severity)
      LinterName.solium.label none)
  | _, _ => .error (.badValue "Exceeds the limit for integer string conversion".toList)

/-- Reads a report of lines. -/
def readFindings (output : Text) : Except Fault (List EditorDiagnostic) :=
  ((Text.lines output).filterMap fun l => finding? (Text.trim l)).mapM Finding.toEditor

end ContractCheck.Lint
