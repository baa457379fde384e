import ContractCheck.Record.Accept
import ContractCheck.Layout
import ContractCheck.Text.Blank

/-! # Settings

The four sections of a configuration: validation as the user types, the project's layout, the
toolchain, and the log.  A section is read leniently from a table: unknown keys are ignored, missing
ones have defaults, and the validation keys may also be spelled the way editors do.  Written back, a
section is a table with all its keys in a fixed order.
-/
namespace ContractCheck

/-- The linters that can be chosen. -/
inductive LinterName where
  | solhint
  | solium
deriving DecidableEq, Repr

namespace LinterName

/-- The name in settings and messages. -/
def label : LinterName → Text
  | .solhint => "solhint".toList
  | .solium => "solium".toList

/-- The linter with a name. -/
def ofLabel? (t : Text) : Option LinterName :=
  if t = label .solhint then some .solhint
  else if t = label .solium then some .solium
  else none

theorem ofLabel?_label (l : LinterName) : ofLabel? l.label = some l := by cases l <;> decide

end LinterName

/-- How important a log record is. -/
inductive LogLevel where
  | debug
  | info
  | warning
  | error
deriving DecidableEq, Repr

namespace LogLevel

/-- The name in settings. -/
def label : LogLevel → Text
  | .debug => "debug".toList
  | .info => "info".toList
  | .warning => "warning".toList
  | .error => "error".toList

/-- The level with a name. -/
def ofLabel? (t : Text) : Option LogLevel :=
  [LogLevel.debug, .info, .warning, .error].find? fun l => l.label = t

/-- The rank of a level; records below the rank asked for are dropped. -/
def rank : LogLevel → Nat
  | .debug => 10
  | .info => 20
  | .warning => 30
  | .error => 40

/-- The name in records. -/
def tag : LogLevel → Text
  | .debug => "DEBUG".toList
  | .info => "INFO".toList
  | .warning => "WARNING".toList
  | .error => "ERROR".toList

end LogLevel

/-! ## Validation as the user types -/

/-- Settings of the validation section. -/
structure ValidationSettings where
  linter : Option LinterName := none
  asYouType : Bool := true
  soliumRules : Fields := []
  solhintRules : Fields := []
  delay : Nat := 1500
  dependencies : Text := "lib".toList
  dependencyContracts : Text := "src".toList

namespace ValidationSettings

/-- A linter's name in any case and with blanks around, true for the default one, or one of the
spellings for none: null, false, an empty text, `none` and `false`. -/
def acceptLinter : Value → Checked (Option LinterName)
  | .null => .valid none
  | .bool b => .valid (if b then some .solhint else none)
  | .text t =>
    let name := Text.lower (Text.trim t)
    if name.isEmpty || name = "none".toList || name = "false".toList then .valid none
    else match LinterName.ofLabel? name with
      | some l => .valid (some l)
      | none => .fail .notAChoice
  | _ => .fail .notAChoice

/-- A table of rules; what is not given counts as an empty one. -/
def acceptRules (v : Value) : Checked Fields := if v.given then Accept.table v else .valid []

/-- The keys of the section, each with its editor spelling. -/
def asYouTypeKey : Text := "enabled_as_you_type_compilation_error_check".toList
def soliumRulesKey : Text := "solium_rules".toList
def solhintRulesKey : Text := "solhint_rules".toList
def delayKey : Text := "validation_delay".toList
def dependenciesKey : Text := "package_default_dependencies_directory".toList
def dependencyContractsKey : Text := "package_default_dependencies_contracts_directory".toList

/-- Reads the section. -/
def read (v : Value) : Checked ValidationSettings :=
  v.record fun fs =>
    ValidationSettings.mk
      <$> fs.optional "linter" none acceptLinter
      <*> fs.spelled asYouTypeKey "enabledAsYouTypeCompilationErrorCheck" true Accept.lenientBoolean
      <*> fs.spelled soliumRulesKey "soliumRules" [] acceptRules
      <*> fs.spelled solhintRulesKey "solhintRules" [] acceptRules
      <*> fs.spelled delayKey "validationDelay" 1500 Accept.lenientNatural
      <*> fs.spelled dependenciesKey "packageDefaultDependenciesDirectory" "lib".toList Accept.text
      <*> fs.spelled dependencyContractsKey "packageDefaultDependenciesContractsDirectory"
        "src".toList Accept.text

/-- The section with one key changed. -/
def assign (s : ValidationSettings) (key : Text) (v : Value) : Checked ValidationSettings :=
  if key = "linter".toList then ((acceptLinter v).behind key).map fun x => { s with linter := x }
  else if key = asYouTypeKey then
    ((Accept.lenientBoolean v).behind key).map fun x => { s with asYouType := x }
  else if key = soliumRulesKey then
    ((acceptRules v).behind key).map fun x => { s with soliumRules := x }
  else if key = solhintRulesKey then
    ((acceptRules v).behind key).map fun x => { s with solhintRules := x }
  else if key = delayKey then
    ((Accept.lenientNatural v).behind key).map fun x => { s with delay := x }
  else if key = dependenciesKey then
    ((Accept.text v).behind key).map fun x => { s with dependencies := x }
  else if key = dependencyContractsKey then
    ((Accept.text v).behind key).map fun x => { s with dependencyContracts := x }
  else .invalid [⟨[key], .noSuchField⟩]

/-- The section as a table. -/
def toFields (s : ValidationSettings) : Fields :=
  [("linter".toList, match s.linter with | some l => .text l.label | none => .null),
   (asYouTypeKey, .bool s.asYouType),
   (soliumRulesKey, .table s.soliumRules),
   (solhintRulesKey, .table s.solhintRules),
   (delayKey, .int s.delay),
   (dependenciesKey, .text s.dependencies),
   (dependencyContractsKey, .text s.dependencyContracts)]

/-- The delay after an edit in seconds. -/
def delaySeconds (s : ValidationSettings) : Binary64 :=
  let ms := Binary64.ofInt s.delay
  Binary64.ofRatio false ms.numerator (ms.denominator * 1000)

/-- The rules of the chosen linter; without one, the default linter's. -/
def linterRules (s : ValidationSettings) : Fields :=
  if s.linter = some .solium then s.soliumRules else s.solhintRules

end ValidationSettings

/-! ## Layout -/

namespace Layout

/-- The marker is one character. -/
def acceptMarker (v : Value) : Checked Text :=
  (Accept.nonEmpty v).andThen fun t => if t.length ≤ 1 then .valid t else .fail .tooLong

/-- Reads the section. -/
def read (v : Value) : Checked Layout :=
  v.record fun fs =>
    Layout.mk
      <$> fs.optional "contracts_dir" "contracts".toList Accept.nonEmpty
      <*> fs.optional "temp_dir" ".temp".toList Accept.nonEmpty
      <*> fs.optional "build_dir" "build".toList Accept.nonEmpty
      <*> fs.optional "transient_marker" ['~'] acceptMarker

/-- The section with one key changed. -/
def assign (l : Layout) (key : Text) (v : Value) : Checked Layout :=
  if key = "contracts_dir".toList then
    ((Accept.nonEmpty v).behind key).map fun x => { l with contracts := x }
  else if key = "temp_dir".toList then
    ((Accept.nonEmpty v).behind key).map fun x => { l with temp := x }
  else if key = "build_dir".toList then
    ((Accept.nonEmpty v).behind key).map fun x => { l with build := x }
  else if key = "transient_marker".toList then
    ((acceptMarker v).behind key).map fun x => { l with marker := x }
  else .invalid [⟨[key], .noSuchField⟩]

/-- The section as a table. -/
def toFields (l : Layout) : Fields :=
  [("contracts_dir".toList, .text l.contracts), ("temp_dir".toList, .text l.temp),
   ("build_dir".toList, .text l.build), ("transient_marker".toList, .text l.marker)]

end Layout

/-! ## Toolchain -/

/-- Settings of the toolchain section; an empty version means the newest one. -/
structure ToolchainSettings where
  home : Option Text := none
  sourceUrl : Text := "https://binaries.tonlabs.io".toList
  compilerVersion : Text := []
  linkerVersion : Text := []
  stdlibVersion : Text := []
deriving DecidableEq

namespace ToolchainSettings

/-- The address that components come from: one of three schemes, without slashes at its end. -/
def acceptUrl : Value → Checked Text
  | .text t => trimmed t
  | .broken s => trimmed s.points.shown
  | _ => .fail .addressNotText
where
  /-- An address with one of the schemes, without slashes at its end. -/
  trimmed (t : Text) : Checked Text :=
    if Text.startsWith t "http://" || Text.startsWith t "https://" ||
        Text.startsWith t "file://" then
      .valid (Text.dropEndWhile (· == '/') t)
    else .fail .refused

/-- Reads the section. -/
def read (v : Value) : Checked ToolchainSettings :=
  v.record fun fs =>
    ToolchainSettings.mk
      <$> fs.optional "home" none (Accept.orNull Accept.text)
      <*> fs.optional "source_url" "https://binaries.tonlabs.io".toList acceptUrl
      <*> fs.optional "compiler_version" [] Accept.text
      <*> fs.optional "linker_version" [] Accept.text
      <*> fs.optional "stdlib_version" [] Accept.text

/-- The section with one key changed. -/
def assign (s : ToolchainSettings) (key : Text) (v : Value) : Checked ToolchainSettings :=
  if key = "home".toList then
    ((Accept.orNull Accept.text v).behind key).map fun x => { s with home := x }
  else if key = "source_url".toList then
    ((acceptUrl v).behind key).map fun x => { s with sourceUrl := x }
  else if key = "compiler_version".toList then
    ((Accept.text v).behind key).map fun x => { s with compilerVersion := x }
  else if key = "linker_version".toList then
    ((Accept.text v).behind key).map fun x => { s with linkerVersion := x }
  else if key = "stdlib_version".toList then
    ((Accept.text v).behind key).map fun x => { s with stdlibVersion := x }
  else .invalid [⟨[key], .noSuchField⟩]

/-- The section as a table. -/
def toFields (s : ToolchainSettings) : Fields :=
  [("home".toList, match s.home with | some t => .text t | none => .null),
   ("source_url".toList, .text s.sourceUrl),
   ("compiler_version".toList, .text s.compilerVersion),
   ("linker_version".toList, .text s.linkerVersion),
   ("stdlib_version".toList, .text s.stdlibVersion)]

end ToolchainSettings

/-! ## Log -/

/-- Settings of the log section. -/
structure LoggingSettings where
  level : LogLevel := .warning
  console : Bool := false
  file : Bool := true
  filePath : Option Text := none
deriving DecidableEq

namespace LoggingSettings

/-- The name of a level. -/
def acceptLevel : Value → Checked LogLevel
  | .text t =>
    match LogLevel.ofLabel? t with
    | some l => .valid l
    | none => .fail .notAChoice
  | _ => .fail .notAChoice

/-- Reads the section. -/
def read (v : Value) : Checked LoggingSettings :=
  v.record fun fs =>
    LoggingSettings.mk
      <$> fs.optional "level" .warning acceptLevel
      <*> fs.optional "console" false Accept.lenientBoolean
      <*> fs.optional "file" true Accept.lenientBoolean
      <*> fs.optional "file_path" none (Accept.orNull Accept.text)

/-- The section with one key changed. -/
def assign (s : LoggingSettings) (key : Text) (v : Value) : Checked LoggingSettings :=
  if key = "level".toList then ((acceptLevel v).behind key).map fun x => { s with level := x }
  else if key = "console".toList then
    ((Accept.lenientBoolean v).behind key).map fun x => { s with console := x }
  else if key = "file".toList then
    ((Accept.lenientBoolean v).behind key).map fun x => { s with file := x }
  else if key = "file_path".toList then
    ((Accept.orNull Accept.text v).behind key).map fun x => { s with filePath := x }
  else .invalid [⟨[key], .noSuchField⟩]

/-- The section as a table. -/
def toFields (s : LoggingSettings) : Fields :=
  [("level".toList, .text s.level.label), ("console".toList, .bool s.console),
   ("file".toList, .bool s.file),
   ("file_path".toList, match s.filePath with | some t => .text t | none => .null)]

end LoggingSettings
end ContractCheck
