import ContractCheck.Settings.Sections
import ContractCheck.Value.Path

/-! # Configurations

A configuration is its four sections.  It is read from a table with a table for each section, and
`get` follows a dotted key into it.
-/
namespace ContractCheck

/-- A complete configuration. -/
structure Config where
  validation : ValidationSettings := {}
  layout : Layout := {}
  toolchain : ToolchainSettings := {}
  logging : LoggingSettings := {}

namespace Config

/-- Reads a configuration. -/
def read (v : Value) : Checked Config :=
  v.record fun fs =>
    Config.mk
      <$> fs.optional "validation" {} ValidationSettings.read
      <*> fs.optional "layout" {} Layout.read
      <*> fs.optional "toolchain" {} ToolchainSettings.read
      <*> fs.optional "logging" {} LoggingSettings.read

/-- The configuration with one section replaced. -/
def assign (c : Config) (key : Text) (v : Value) : Checked Config :=
  if key = "validation".toList then
    ((ValidationSettings.read v).behind key).map fun x => { c with validation := x }
  else if key = "layout".toList then
    ((Layout.read v).behind key).map fun x => { c with layout := x }
  else if key = "toolchain".toList then
    ((ToolchainSettings.read v).behind key).map fun x => { c with toolchain := x }
  else if key = "logging".toList then
    ((LoggingSettings.read v).behind key).map fun x => { c with logging := x }
  else .invalid [⟨[key], .noSuchField⟩]

/-- The configuration as a table of its sections. -/
def toFields (c : Config) : Fields :=
  [("validation".toList, .table c.validation.toFields), ("layout".toList, .table c.layout.toFields),
   ("toolchain".toList, .table c.toolchain.toFields),
   ("logging".toList, .table c.logging.toFields)]

/-- The configuration as a value. -/
def toValue (c : Config) : Value := .table c.toFields

/-- What a dotted key of a configuration leads to. -/
inductive Entry where
  | whole (fields : Fields)
  | value (v : Value)

/-- What a dotted key leads to: a section, a field, or something inside a rule table.  The
validation section also has its delay in seconds. -/
def get (c : Config) (key : Text) : Option Entry :=
  match Value.pathOf key with
  | [] => none
  | [k] =>
    match c.toFields.get? k with
    | some (.table fs) => some (.whole fs)
    | _ => none
  | k :: ks =>
    if k = "validation".toList ∧ ks = ["delay_seconds".toList] then
      some (.value (.float c.validation.delaySeconds))
    else (Value.getIn (k :: ks) c.toValue).map .value

end Config
end ContractCheck
