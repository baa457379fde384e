import ContractCheck.Host.Basic
import ContractCheck.Json.Reader
import ContractCheck.Value.Path

/-! # Settings from the environment

A variable gives a section as JSON, or one field of it, or something inside a rule table; its name
says which, in any case.  What the environment gives is laid over what a file gives: tables are
merged key by key, and anything else replaces what was below it.
-/
namespace ContractCheck.Settings

/-- The words that the names of variables begin with. -/
def variableLead : Text := "solcheck_".toList

/-- What separates a section from a field in the name of a variable. -/
def variableSeparator : Text := "__".toList

/-- The sections of a configuration. -/
def sections : List Text :=
  ["validation".toList, "layout".toList, "toolchain".toList, "logging".toList]

/-- Spellings of the rule tables. -/
def ruleKeys : List Text :=
  [ValidationSettings.soliumRulesKey, "soliumRules".toList, ValidationSettings.solhintRulesKey,
   "solhintRules".toList]

/-- The spellings of the fields of a section. -/
def spellings (section_ : Text) : List Text :=
  if section_ = "validation".toList then
    ["linter".toList, ValidationSettings.asYouTypeKey,
     "enabledAsYouTypeCompilationErrorCheck".toList] ++ ruleKeys ++
    [ValidationSettings.delayKey, "validationDelay".toList, ValidationSettings.dependenciesKey,
     "packageDefaultDependenciesDirectory".toList, ValidationSettings.dependencyContractsKey,
     "packageDefaultDependenciesContractsDirectory".toList]
  else if section_ = "layout".toList then Fields.keys (Layout.toFields {})
  else if section_ = "toolchain".toList then Fields.keys (ToolchainSettings.toFields {})
  else Fields.keys (LoggingSettings.toFields {})

/-- The field of a section that a key means in any case; the key itself if there is none. -/
def fieldOf (section_ key : Text) : Text :=
  ((spellings section_).find? fun s => Text.lower s = Text.lower key).getD key

mutual
/-- A value laid over another: tables are merged, anything else replaces what was there. -/
def overlayValue (under : Value) : Value → Value
  | .table upper =>
    match under with
    | .table fs => .table (overlay fs upper)
    | _ => .table upper
  | v => v

/-- Fields laid over others. -/
def overlay (under : Fields) : List (Text × Value) → Fields
  | [] => under
  | (k, v) :: r =>
    let v' := match Fields.get? under k with
      | some below => overlayValue below v
      | none => v
    overlay (Fields.put k v' under) r
end

/-- Fields with a value at the end of a path; a level on the way that is no table hides it. -/
def placeAt (v : Value) : List Text → Fields → Fields
  | [], fs => fs
  | [k], fs => Fields.put k v fs
  | k :: k' :: ks, fs =>
    match Fields.get? fs k with
    | none => Fields.put k (.table (placeAt v (k' :: ks) [])) fs
    | some (.table inner) => Fields.put k (.table (placeAt v (k' :: ks) inner)) fs
    | some _ => fs

/-- Whether a key means a rule table. -/
def isRuleKey (section_ key : Text) : Bool :=
  section_ == "validation".toList && ruleKeys.any fun k => Text.lower k == key

/-- The value that a variable's text stands for at a path into a section; `none` if it has to be
JSON and is not.  A rule table is JSON, and so is a rule if it can be. -/
def variableValue? (section_ : Text) (path : List Text) (t : Text) : Option Value :=
  if t.isEmpty then some (.text t)
  else match path with
    | [k] => if isRuleKey section_ k then Json.read? t else some (.text t)
    | [k, _] => some (if isRuleKey section_ k then (Json.read? t).getD (.text t) else .text t)
    | _ => some (.text t)

/-- The fields that variables give to a section one by one. -/
def explode (section_ : Text) (environment : Environment) : Option Fields :=
  let lead := variableLead ++ section_ ++ variableSeparator
  environment.foldlM (fun (fs : Fields) (name, t) =>
    if Text.startsWith name lead then
      let path := Text.splitOn variableSeparator (name.drop lead.length)
      (variableValue? section_ path t).map fun v => placeAt v path fs
    else some fs) []

/-- Fields with their keys spelled as the section spells them; of two keys that mean one field the
later one counts. -/
def respell (section_ : Text) (fs : Fields) : Fields :=
  fs.foldl (fun acc f => Fields.put (fieldOf section_ f.1) f.2 acc) []

/-- What the environment gives for a section, if anything; the outer `none` says that a variable
cannot be read. -/
def sectionFrom? (environment : Environment) (section_ : Text) : Option (Option Value) :=
  match environment.lookup (variableLead ++ section_) with
  | none =>
    (explode section_ environment).map fun fs =>
      if fs.isEmpty then none else some (.table (respell section_ fs))
  | some t =>
    match Json.read? t with
    | none => none
    | some .null => some none
    | some (.table whole) =>
      (explode section_ environment).map fun fs =>
        some (.table (respell section_ (overlay whole fs)))
    | some v => some (some v)

/-- The variables with their names in lower case; of two names that differ only in case the later
one counts. -/
def lowerNames (e : Environment) : Environment :=
  e.foldl (fun acc v =>
    let name := Text.lower v.1
    if (acc.lookup name).isSome then acc.map fun w => if w.1 = name then (name, v.2) else w
    else acc ++ [(name, v.2)]) []

/-- The sections that the environment gives; `none` if a variable cannot be read. -/
def fromEnvironment? (e : Environment) : Option Fields :=
  sections.foldlM (fun (fs : Fields) s =>
    (sectionFrom? (lowerNames e) s).map fun v =>
      match v with
      | some v => Fields.put s v fs
      | none => fs) []

end ContractCheck.Settings
