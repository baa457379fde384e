import ContractCheck.Host.Logging
import ContractCheck.Toml.Reader

/-! # Configuration files

The configuration file of a directory is the first one met on the way up to the root: a
`.solcheck/config.toml`, or a `pyproject.toml` with a `tool.solcheck` entry.  A `pyproject.toml`
that cannot be read or is no TOML is passed over.
-/
namespace ContractCheck.Settings

/-- The name that settings log under. -/
def owner : String := "settings"

/-- The directory of a project's own configuration. -/
def directoryName : Text := ".solcheck".toList

/-- The name of a configuration file. -/
def fileName : Text := "config.toml".toList

/-- The name of a project file that may hold a configuration. -/
def projectFileName : Text := "pyproject.toml".toList

/-- The configuration file of a directory. -/
def fileIn (directory : Text) : Text :=
  Path.Posix.child (Path.Posix.child directory directoryName) fileName

/-- Whether something stands at a path; a path that the file system refuses to look at is a
fault. -/
def isThere (path : Text) : Action Bool := do
  let h ← get
  match h.files.find h.cwd path with
  | .ok _ => pure true
  | .error e =>
    if e = .missing ∨ e = .notDirectory ∨ e = .unusablePath then pure false
    else throw (.file e path)

/-- The fields of a TOML file, or `none` if it is not TOML. -/
def readToml (path : Text) : Action (Option Fields) := do
  let bytes ← Action.readFile path
  match Toml.readBytes bytes with
  | .ok fs => pure (some fs)
  | .error .malformed => pure none
  | .error .tooManyDigits =>
    throw (.badValue "Exceeds the limit for integer string conversion".toList)
  | .error .notText => throw .notText

/-- Whether a value holds a name: a table as a key, a list as an item, a string as a part.  Other
values hold nothing and cannot be asked. -/
def holds (name : Text) : Value → Option Bool
  | .table fs => some (Fields.has fs name)
  | .list xs => some (xs.any fun x => match x with | .text t => t == name | _ => false)
  | .text t => some (Text.containsText name t)
  | .broken s => some (Text.containsText name s.points.shown)
  | .misnamed _ v => holds name v
  | .null | .bool _ | .int _ | .float _ | .moment _ => none

/-- Whether a project file has a configuration. -/
def hasConfiguration (fs : Fields) : Action Bool :=
  match Fields.get? fs "tool".toList with
  | none => pure false
  | some v =>
    match holds Log.rootName v with
    | some b => pure b
    | none => throw (.wrongShape "the tool entry has no parts".toList)

/-- Whether the project file of a directory is its configuration file. -/
def isConfiguration (projectFile : Text) : Action Bool := do
  if ← isThere projectFile then
    Action.orSystem
      (do
        match ← readToml projectFile with
        | some fs => hasConfiguration fs
        | none =>
          Log.debug owner ("Failed to parse pyproject.toml at ".toList ++ projectFile ++
            ": not TOML".toList)
          pure false)
      fun e => do
        Log.debug owner ("Failed to read pyproject.toml at ".toList ++ projectFile ++ ": ".toList ++
          e.message)
        pure false
  else pure false

/-- The configuration file of the first of several directories that has one. -/
def findIn : List Text → Action (Option Text)
  | [] => pure none
  | directory :: rest => do
    if ← isThere (fileIn directory) then pure (some (fileIn directory))
    else
      let projectFile := Path.Posix.child directory projectFileName
      if ← isConfiguration projectFile then pure (some projectFile) else findIn rest

/-- The directory where a search starts: the one given, or the working directory. -/
def startOf (start : Option Text) : Action Text := do
  match start with
  | some (c :: cs) => pure (c :: cs)
  | _ => pure (← get).directory

/-- The configuration file of a directory, searched upwards. -/
def find (start : Option Text) : Action (Option Text) := do
  findIn (Path.Posix.lineage (← startOf start))

/-! ## What a file says -/

/-- What a configuration file gives: its fields, the file if it was read, and what is wrong with
it. -/
structure Layer where
  fields : Fields := []
  file : Option Text := none
  error : Option Value := none

/-- Whether a key is a note and no setting. -/
def isNote (key : Text) : Bool := Text.startsWith key ['_']

/-- The configuration part of a file's fields. -/
def configurationPart (path : Text) (fs : Fields) : Action Value :=
  if Path.Posix.leaf path = projectFileName then
    match (Fields.get? fs "tool".toList).getD (.table []) with
    | .table tool => pure ((Fields.get? tool Log.rootName).getD (.table []))
    | _ => throw (.noSuchPart "the tool entry is no table".toList)
  else pure (.table fs)

/-- Reads the configuration from a file.  A file that cannot be read or is no TOML gives nothing but
the note about it. -/
def readLayer (path : Text) : Action Layer :=
  Action.orSystem
    (do
      match ← readToml path with
      | none =>
        Log.warning owner ("Failed to parse config file ".toList ++ path ++ ": not TOML".toList)
        pure { error := some (.text "Failed to parse config file: not TOML".toList) }
      | some fs =>
        match ← configurationPart path fs with
        | .table fs =>
          pure { fields := fs.filter (fun f => !isNote f.1), file := some path
                 error := Fields.get? fs "_config_error".toList }
        | _ => throw (.wrongShape "the configuration is no table".toList))
    fun e => do
      Log.warning owner ("Failed to read config file ".toList ++ path ++ ": ".toList ++ e.message)
      pure { error := some (.text ("Failed to read config file: ".toList ++ e.message)) }

/-- What the configuration file gives: the one named, or the one found from a directory. -/
def layer (path : Option Text) (start : Option Text) : Action Layer := do
  let found ← match path with
    | some p => pure (some (Path.Posix.tidy p))
    | none => find start
  match found with
  | some p => readLayer p
  | none => pure {}

end ContractCheck.Settings
