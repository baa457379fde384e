import ContractCheck.Settings.Config
import ContractCheck.Settings.Overlay
import ContractCheck.Settings.Discovery

/-! # Loading settings

The settings are the defaults, overlaid with what the configuration file gives, overlaid with what
the environment gives.
-/
namespace ContractCheck.Settings

/-- A configuration with the file it comes from and what was wrong with that file. -/
structure Loaded where
  config : Config
  file : Option Text := none
  error : Option Value := none

namespace Loaded

/-- The settings as a table: the sections, and notes about the file. -/
def toFields (l : Loaded) : Fields :=
  l.config.toFields ++
    (match l.file with
      | some p => if p.isEmpty then [] else [("_config_file".toList, .text p)]
      | none => []) ++
    (match l.error with
      | some e => if e.given then [("_config_error".toList, e)] else []
      | none => [])

end Loaded

/-- Loads the settings from the file named, or from the one found from a directory. -/
def load (path : Option Text) (start : Option Text) : Action Loaded := do
  match fromEnvironment? (← get).environment with
  | none => throw .unreadableSetting
  | some upper =>
    let base ← layer path start
    match Config.read (.table (overlay base.fields upper)) with
    | .invalid issues => throw (.invalid issues)
    | .valid config =>
      let notes ← layer path start
      pure { config, file := notes.file, error := notes.error }

end ContractCheck.Settings
