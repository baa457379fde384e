import ContractCheck.Lint.Linter

/-! # The registry of linters

A registry holds kinds of linters by the names that the settings use.  Discovery registers the two
built-in kinds and after them those of extensions, so an extension may replace a built-in one.  What
is no linter that can be made and has no name of its own is passed over.
-/
namespace ContractCheck

/-- A kind of linter that an extension may bring. -/
structure LinterKind where
  /-- The title of the kind. -/
  title : Text
  /-- The name that the settings use; empty if the kind has none. -/
  name : Text
  /-- The linter whose program and report it uses. -/
  base : LinterName
  /-- Whether it is a kind of linter at all. -/
  isLinter : Bool := true
  /-- Whether it is complete, so that linters of it can be made. -/
  complete : Bool := true
  /-- Whether its linters take a root directory and rules. -/
  configurable : Bool := true
deriving DecidableEq

/-- A linter of a kind. -/
structure MadeLinter where
  kind : LinterKind
  linter : Linter

namespace LinterKind

/-- The first built-in kind. -/
def solhint : LinterKind :=
  { title := "SolhintLinter".toList, name := LinterName.solhint.label, base := .solhint }

/-- The second built-in kind. -/
def solium : LinterKind :=
  { title := "SoliumLinter".toList, name := LinterName.solium.label, base := .solium }

/-- The name to register a kind under, if it is a complete linter and has one. -/
def registryName? (k : LinterKind) : Option Text :=
  if k.isLinter && k.complete && !k.name.isEmpty then some k.name else none

/-- A linter of the kind; `none` if the kind takes no such arguments. -/
def make? (k : LinterKind) (root : Option Text) (given : Fields) : Option MadeLinter :=
  if !(k.isLinter && k.complete && k.configurable) then none
  else if given.any fun f => f.1 != "rules".toList then none
  else
    match (Fields.get? given "rules".toList).getD .null with
    | .table rules => some { kind := k, linter := { name := k.base, root, rules } }
    | v => if v.given then none else some { kind := k, linter := { name := k.base, root } }

end LinterKind

/-- Kinds of linters by name, in the order in which the names were first registered. -/
structure Registry where
  kinds : List (Text × LinterKind) := []

namespace Registry

/-- The registry with a kind under a name, in the place of the one it had. -/
def register (r : Registry) (name : Text) (k : LinterKind) : Registry :=
  if (r.kinds.lookup name).isSome then
    { kinds := r.kinds.map fun e => if e.1 = name then (name, k) else e }
  else { kinds := r.kinds ++ [(name, k)] }

/-- The kind under a name. -/
def kind? (r : Registry) (name : Text) : Option LinterKind := r.kinds.lookup name

/-- The registered names. -/
def names (r : Registry) : List Text := r.kinds.map Prod.fst

/-- The failure for a name that is not registered. -/
def unknown (name : Text) : Failure :=
  .of .extensionMissing ("No linter registered: ".toList ++ name)
    (if name.isEmpty then [] else [("plugin_name".toList, .text name)])

/-- The failure for a kind that makes no linter. -/
def unusable (name : Text) : Failure :=
  .of .extensionLoad ("Cannot create linter ".toList ++ name)
    ((if name.isEmpty then [] else [("plugin_name".toList, .text name)]) ++
      [("plugin_type".toList, .text "linter".toList)])

/-- A linter by its name. -/
def make (r : Registry) (name : Text) (root : Option Text) (given : Fields) :
    Except Failure MadeLinter :=
  match r.kind? name with
  | none => .error (unknown name)
  | some k =>
    match k.make? root given with
    | some l => .ok l
    | none => .error (unusable name)

/-- The registry after several kinds were offered, and the names that were registered. -/
def offer (r : Registry) (ks : List LinterKind) : Registry × List Text :=
  ks.foldl (fun acc k =>
    match k.registryName? with
    | some name => (acc.1.register name k, acc.2 ++ [name])
    | none => acc) (r, [])

/-- The registry after discovery, and the names that were registered in order. -/
def discover (r : Registry) (extensions : List LinterKind) : Registry × List Text :=
  r.offer ([LinterKind.solhint, LinterKind.solium] ++ extensions)

/-- The registry of the built-in linters. -/
def builtin : Registry := ((Registry.mk []).discover []).1

end Registry
end ContractCheck
