import ContractCheck.Settings.Load
import ContractCheck.Toml.Writer
import ContractCheck.Text.Integer

/-! # Changing settings

The keys that a user may set, each with its kind of value, its default and what it is for.  A change
is written to the configuration file that the next load will find, and a file only ever holds what
differs from the defaults.
-/
namespace ContractCheck.Settings

/-- The kinds of values that a key takes. -/
inductive KeyKind where
  | truth
  | whole
  | linter
  | text
deriving DecidableEq

/-- A key that a user may set. -/
structure Key where
  name : Text
  kind : KeyKind
  default : Value
  description : Text

/-- A key with a text value. -/
def textKey (name : String) (default description : String) : Key :=
  { name := name.toList, kind := .text, default := .text default.toList
    description := description.toList }

/-- A key with a text value that is not set by default. -/
def openKey (name : String) (kind : KeyKind) (description : String) : Key :=
  { name := name.toList, kind, default := .null, description := description.toList }

/-- A switch. -/
def switchKey (name : String) (default : Bool) (description : String) : Key :=
  { name := name.toList, kind := .truth, default := .bool default
    description := description.toList }

/-- The keys that a user may set, by section. -/
def keys : List Key :=
  [openKey "validation.linter" .linter
     "Linter to run on every validation (solhint, solium, none)",
   switchKey "validation.enabled_as_you_type_compilation_error_check" true
     "Compile documents while typing and report compiler errors",
   { name := "validation.validation_delay".toList, kind := .whole, default := .int 1500
     description := "Debounce interval in milliseconds after an edit".toList },
   textKey "validation.package_default_dependencies_directory" "lib"
     "Directory holding dependency packages",
   textKey "validation.package_default_dependencies_contracts_directory" "src"
     "Contracts directory inside each dependency package",
   textKey "layout.contracts_dir" "contracts" "Project directory holding contract sources",
   textKey "layout.temp_dir" ".temp" "Hidden directory mirroring contracts for staged compiles",
   textKey "layout.build_dir" "build" "Directory receiving promoted bytecode and ABI files",
   openKey "toolchain.home" .text
     "Where toolchain components are installed (default ~/.solcheck/toolchain)",
   textKey "toolchain.source_url" "https://binaries.tonlabs.io"
     "Base URL toolchain components are downloaded from",
   textKey "toolchain.compiler_version" "" "Compiler version to install (empty for latest)",
   textKey "toolchain.linker_version" "" "Linker version to install (empty for latest)",
   textKey "toolchain.stdlib_version" ""
     "Standard library version to install (empty for the compiler's)",
   textKey "logging.level" "warning" "Log level (debug, info, warning, error)",
   switchKey "logging.console" false "Output debug logs to stderr",
   switchKey "logging.file" true "Write the server log to a rotating file",
   openKey "logging.file_path" .text "Server log file (default ~/.solcheck/logs/server.log)"]

/-- The key with a name. -/
def key? (name : Text) : Option Key := keys.find? fun k => k.name = name

/-- A refused change. -/
def refused (message : String) (value : Text) (facts : Fields) : Failure :=
  .of .configurationValue (message.toList ++ value) facts

/-- The value that a text stands for under a key. -/
def Key.parse (k : Key) (t : Text) : Except Failure Value :=
  let facts : Fields := [("key".toList, .text k.name), ("value".toList, .text t)]
  match k.kind with
  | .truth =>
    if ["true".toList, "1".toList, "yes".toList, "on".toList].contains (Text.lower t) then
      .ok (.bool true)
    else if ["false".toList, "0".toList, "no".toList, "off".toList].contains (Text.lower t) then
      .ok (.bool false)
    else .error (refused "Invalid boolean value: " t facts)
  | .whole =>
    match Text.readInt? t with
    | none => .error (refused "Invalid integer value: " t facts)
    | some n =>
      if n < 0 then .error (refused "Value must not be negative: " t facts) else .ok (.int n)
  | .linter =>
    let name := Text.lower t
    if name = "none".toList ∨ (LinterName.ofLabel? name).isSome then .ok (.text name)
    else .error (refused "Invalid linter: "
      (t ++ ". Valid linters: none, solhint, solium".toList) [])
  | .text => .ok (.text t)

/-- The value of a dotted key in the loaded settings. -/
def lookUp (name : Text) (start : Option Text) : Action (Option Value) := do
  let loaded ← load none start
  pure (Value.getKey name (.table loaded.toFields))

/-- The path that a change is written to: the configuration file that is found, or one in the start
directory, whose own directory is made if needed. -/
def pathForWriting (start : Option Text) : Action Text := do
  let found ← find start
  match found with
  | some p => if Path.Posix.leaf p = fileName then pure p else fresh
  | none => fresh
where
  /-- The configuration file of the start directory. -/
  fresh : Action Text := do
    let base ← startOf start
    let directory := Path.Posix.child base directoryName
    let h ← get
    match h.files.makeDirectory h.cwd directory with
    | .ok fs => set { h with files := fs }
    | .error e =>
      if e = .unusablePath ∨ !h.files.isDirectory h.cwd directory then throw (.file e directory)
    pure (fileIn base)

/-- The fields of a section that differ from the defaults. -/
def changedFields (defaults : Fields) (fs : Fields) : Fields :=
  fs.filter fun f =>
    match f.2 with
    | .null => false
    | v =>
      match Fields.get? defaults f.1 with
      | some d => !v.agrees d
      | none => true

/-- The lines of a section; none if nothing in it differs from the defaults. -/
def sectionLines (name : Text) (defaults fs : Fields) : List Text :=
  match changedFields defaults fs with
  | [] => []
  | f :: r =>
    ('[' :: name ++ [']']) ::
      (f :: r).map (fun f => f.1 ++ " = ".toList ++ Toml.writeValue f.2) ++ [[]]

/-- The lines of a section of a configuration; the section has to be a table, and an integer in it
may not have too many digits. -/
def linesOf (config : Fields) (name : Text) : Except Fault (List Text) :=
  let defaults := match Fields.get? (Config.toFields {}) name with
    | some (.table ds) => ds
    | _ => []
  match (Fields.get? config name).getD (.table []) with
  | .table fs =>
    if Value.anyField Value.isOversized (changedFields defaults fs) then
      .error (.badValue "Exceeds the limit for integer string conversion".toList)
    else .ok (sectionLines name defaults fs)
  | _ => .error (.noSuchPart "a section is no table".toList)

/-- A configuration file that holds what differs from the defaults. -/
def render (config : Fields) : Except Fault Text :=
  (sections.mapM (linesOf config)).map fun ls => Text.join ['\n'] ls.flatten

/-- Whether a configuration holds a string that is no text. -/
def isBroken (config : Fields) : Bool :=
  sections.any fun name => (Fields.get? config name).any fun v => v.anywhere Value.isBroken

/-- The bytes of a configuration file on a host, if its encoding has all that stands in the file. -/
def bytes? (h : Host) (config : Fields) (t : Text) : Option Bytes :=
  if isBroken config then none else h.locale t

/-- Writes a configuration file, in the encoding of the host.  The file is opened first, so if it
cannot be encoded, it is empty. -/
def save (config : Value) (path : Text) : Action Unit := do
  match config with
  | .table fs =>
    match render fs with
    | .ok t =>
      match bytes? (← get) fs t with
      | some bytes => Action.writeFile path bytes
      | none =>
        Action.writeFile path []
        throw .unencodable
    | .error e => throw e
  | _ => throw (.noSuchPart "the configuration is no table".toList)

/-- The failure for a key that nobody may set. -/
def unknownKey (name : Text) : Failure :=
  .of .configurationValue
    ("Unknown config key: ".toList ++ name ++ ". Valid keys: ".toList ++
      Text.join ", ".toList (keys.map Key.name)) []

/-- Sets a key and saves the configuration; the file written and the value. -/
def assign (name t : Text) (start : Option Text) : Action (Text × Value) := do
  match key? name with
  | none => throw (.failure (unknownKey name))
  | some k =>
    match k.parse t with
    | .error f => throw (.failure f)
    | .ok v =>
      let loaded ← load none start
      let config := (Value.putKey name v (.table loaded.toFields)).getD (.table loaded.toFields)
      let path ← pathForWriting start
      save config path
      pure (path, v)

end ContractCheck.Settings
