import ContractCheck.Settings.Edit
import Mathlib.Data.List.Forall2

/-! # Leaving out the defaults

A configuration file holds only what differs from the defaults.  A field that is left out has its
default when it is read again, and so nothing is lost: a section without the fields that agree with
the defaults is read as the whole section is (`Section.read_changed`), and so is a configuration
without the sections that agree with them (`Config.read_saved`).
-/
namespace ContractCheck

namespace Fields

variable {fs : Fields} {k : Text} {v : Value}

theorem get?_cons (f : Text × Value) (fs : Fields) (k : Text) :
    get? (f :: fs) k = if f.1 = k then some f.2 else get? fs k := by
  obtain ⟨k', v⟩ := f
  by_cases same : k' = k
  · subst same
    simp [get?]
  · rw [if_neg same, get?, List.lookup_cons, beq_false_of_ne (Ne.symm same)]
    rfl

theorem mem_of_get? (here : fs.get? k = some v) : (k, v) ∈ fs := by
  induction fs with
  | nil => cases here
  | cons f fs ih =>
    rw [get?_cons] at here
    split at here
    · next same =>
      subst same
      rw [← Option.some.inj here]
      exact List.mem_cons_self
    · exact List.mem_cons_of_mem f (ih here)

theorem get?_none (absent : k ∉ fs.keys) : fs.get? k = none := by
  cases here : fs.get? k with
  | none => rfl
  | some v => exact absurd (List.mem_map_of_mem (mem_of_get? here)) absent

theorem get?_of_mem (distinct : fs.keys.Nodup) (mem : (k, v) ∈ fs) : fs.get? k = some v := by
  induction fs with
  | nil => cases mem
  | cons f fs ih =>
    obtain ⟨new, distinct⟩ := List.nodup_cons.mp distinct
    rw [get?_cons]
    rcases List.mem_cons.mp mem with rfl | mem
    · exact if_pos rfl
    · have other : f.1 ≠ k := fun same => new (by rw [same]; exact List.mem_map_of_mem mem)
      rw [if_neg other, ih distinct mem]

/-- What a filter leaves behind a key. -/
theorem get?_filter (distinct : fs.keys.Nodup) (keep : Text × Value → Bool) :
    get? (fs.filter keep) k = (fs.get? k).filter fun v => keep (k, v) := by
  induction fs with
  | nil => rfl
  | cons f fs ih =>
    obtain ⟨new, distinct⟩ := List.nodup_cons.mp distinct
    rw [get?_cons, List.filter_cons]
    by_cases same : f.1 = k
    · subst same
      rw [if_pos rfl, Option.filter_some]
      split
      · next kept => rw [get?_cons, if_pos rfl]
      · rw [ih distinct, get?_none new]
        rfl
    · rw [if_neg same, ← ih distinct]
      split
      · rw [get?_cons, if_neg same]
      · rfl

end Fields

namespace Settings

variable {defaults fs : Fields} {k : Text} {v d : Value}

/-! ## Values of one kind -/

/-- Whether a value is of the kind of a default: a text may stand where nothing is set by default,
and any table for an empty one. -/
def Kin : Value → Value → Prop
  | .null, .null => True
  | .null, .text _ => True
  | .bool _, .bool _ => True
  | .int _, .int _ => True
  | .text _, .text _ => True
  | .table ds, .table _ => ds = []
  | _, _ => False

/-- Among values of one kind, only the default itself agrees with it. -/
theorem agrees_iff (kin : Kin d v) (given : v ≠ .null) : v.agrees d = true ↔ v = d := by
  match d, v, kin with
  | .null, .null, _ => exact absurd rfl given
  | .null, .text _, _ => exact ⟨nofun, nofun⟩
  | .bool b, .bool c, _ =>
    have same : (Value.bool c).agrees (.bool b) = (c == b) := by cases b <;> cases c <;> rfl
    rw [same, beq_iff_eq, Value.bool.injEq]
  | .int m, .int n, _ =>
    have same : (Value.int n).agrees (.int m) = (n == m) := rfl
    rw [same, beq_iff_eq, Value.int.injEq]
  | .text t, .text u, _ =>
    have same : (Value.text u).agrees (.text t) = (u == t) := rfl
    rw [same, beq_iff_eq, Value.text.injEq]
  | .table _, .table [], rfl => exact ⟨fun _ => rfl, fun _ => rfl⟩
  | .table _, .table (f :: fs), rfl => exact ⟨nofun, nofun⟩

/-- Whether a field is kept in a file. -/
def kept (defaults : Fields) (f : Text × Value) : Bool :=
  match f.2 with
  | .null => false
  | v =>
    match Fields.get? defaults f.1 with
    | some d => !v.agrees d
    | none => true

theorem changedFields_eq (defaults fs : Fields) :
    changedFields defaults fs = fs.filter (kept defaults) := rfl

/-- Among values of one kind, only the default itself is left out. -/
theorem kept_eq_false (default : defaults.get? k = some d) (kin : Kin d v) :
    kept defaults (k, v) = false ↔ v = d := by
  by_cases null : v = .null
  · subst null
    have same : d = .null := by cases d <;> first | rfl | exact False.elim kin
    exact ⟨fun _ => same.symm, fun _ => rfl⟩
  · have shape : kept defaults (k, v) = !v.agrees d := by
      unfold kept
      split
      · next same => exact absurd same null
      · rw [default]
    rw [shape, Bool.not_eq_false', agrees_iff kin null]

/-! ## Sections -/

/-- Fields with the keys of a section's defaults, each with a value of its default's kind. -/
def Shaped (defaults fs : Fields) : Prop :=
  List.Forall₂ (fun d f => d.1 = f.1 ∧ Kin d.2 f.2) defaults fs

theorem Shaped.keys_eq (shape : Shaped defaults fs) : fs.keys = defaults.keys := by
  induction shape with
  | nil => rfl
  | cons same _ ih => exact congrArg₂ List.cons same.1.symm ih

theorem Shaped.get? (shape : Shaped defaults fs) (default : defaults.get? k = some d) :
    ∃ v, fs.get? k = some v ∧ Kin d v := by
  induction shape with
  | nil => cases default
  | @cons d' f _ _ same _ ih =>
    rw [Fields.get?_cons] at default ⊢
    rw [← same.1]
    split at default
    · next here =>
      rw [if_pos here]
      exact ⟨f.2, rfl, Option.some.inj default ▸ same.2⟩
    · next other =>
      rw [if_neg other]
      exact ih default

section Changed

variable {α : Type} (shape : Shaped defaults fs) (distinct : defaults.keys.Nodup) (k : Text) (x : α)
  (accept : Value → Checked α) (default : defaults.get? k = some d) (own : accept d = .valid x)
include shape distinct default own

/-- **A field that may be left out is read as if it were not.** -/
theorem optional_changed :
    (changedFields defaults fs).optional k x accept = fs.optional k x accept := by
  obtain ⟨v, here, kin⟩ := shape.get? default
  have left := Fields.get?_filter (k := k) (shape.keys_eq ▸ distinct : fs.keys.Nodup)
    (kept defaults)
  rw [here, Option.filter_some] at left
  rw [Fields.optional, Fields.optional, changedFields_eq, left, here]
  by_cases same : v = d
  · subst same
    rw [(kept_eq_false default kin).mpr rfl]
    dsimp only
    rw [own]
    rfl
  · rw [Bool.of_not_eq_false fun out => same ((kept_eq_false default kin).mp out)]
    rfl

theorem spelled_changed {other : Text} (strange : other ∉ defaults.keys) :
    (changedFields defaults fs).spelled k other x accept = fs.spelled k other x accept := by
  have single : ∀ {gs : Fields}, gs.keys ⊆ defaults.keys →
      gs.spelled k other x accept = gs.optional k x accept := by
    intro gs sub
    rw [Fields.spelled, Fields.optional, Fields.optional,
      Fields.get?_none fun mem => strange (sub mem)]
  have sub : fs.keys ⊆ defaults.keys := shape.keys_eq ▸ List.Subset.refl _
  have sub' : (changedFields defaults fs).keys ⊆ fs.keys :=
    (List.filter_sublist.map Prod.fst).subset
  rw [single sub, single (List.Subset.trans sub' sub),
    optional_changed shape distinct k x accept default own]

end Changed

end Settings

open Settings

variable {fs : Fields}

theorem ValidationSettings.read_changed (shape : Shaped (toFields {}) fs) :
    read (.table (changedFields (toFields {}) fs)) = read (.table fs) := by
  have distinct : (Fields.keys (toFields {})).Nodup := by decide
  show ValidationSettings.mk <$> _ <*> _ <*> _ <*> _ <*> _ <*> _ <*> _ = _
  rw [optional_changed shape distinct "linter".toList none acceptLinter rfl rfl,
    spelled_changed shape distinct asYouTypeKey true Accept.lenientBoolean rfl rfl (by decide),
    spelled_changed shape distinct soliumRulesKey [] acceptRules rfl rfl (by decide),
    spelled_changed shape distinct solhintRulesKey [] acceptRules rfl rfl (by decide),
    spelled_changed shape distinct delayKey 1500 Accept.lenientNatural rfl rfl (by decide),
    spelled_changed shape distinct dependenciesKey "lib".toList Accept.text rfl rfl (by decide),
    spelled_changed shape distinct dependencyContractsKey "src".toList Accept.text rfl rfl
      (by decide)]
  rfl

theorem Layout.read_changed (shape : Shaped (toFields {}) fs) :
    read (.table (changedFields (toFields {}) fs)) = read (.table fs) := by
  have distinct : (Fields.keys (toFields {})).Nodup := by decide
  show Layout.mk <$> _ <*> _ <*> _ <*> _ = _
  rw [optional_changed shape distinct "contracts_dir".toList "contracts".toList
    Accept.nonEmpty rfl rfl,
    optional_changed shape distinct "temp_dir".toList ".temp".toList Accept.nonEmpty rfl rfl,
    optional_changed shape distinct "build_dir".toList "build".toList Accept.nonEmpty rfl rfl,
    optional_changed shape distinct "transient_marker".toList ['~'] acceptMarker rfl rfl]
  rfl

theorem ToolchainSettings.read_changed (shape : Shaped (toFields {}) fs) :
    read (.table (changedFields (toFields {}) fs)) = read (.table fs) := by
  have distinct : (Fields.keys (toFields {})).Nodup := by decide
  show ToolchainSettings.mk <$> _ <*> _ <*> _ <*> _ <*> _ = _
  rw [optional_changed shape distinct "home".toList none (Accept.orNull Accept.text) rfl rfl,
    optional_changed shape distinct "source_url".toList "https://binaries.tonlabs.io".toList
      acceptUrl rfl rfl,
    optional_changed shape distinct "compiler_version".toList [] Accept.text rfl rfl,
    optional_changed shape distinct "linker_version".toList [] Accept.text rfl rfl,
    optional_changed shape distinct "stdlib_version".toList [] Accept.text rfl rfl]
  rfl

theorem LoggingSettings.read_changed (shape : Shaped (toFields {}) fs) :
    read (.table (changedFields (toFields {}) fs)) = read (.table fs) := by
  have distinct : (Fields.keys (toFields {})).Nodup := by decide
  show LoggingSettings.mk <$> _ <*> _ <*> _ <*> _ = _
  rw [optional_changed shape distinct "level".toList .warning acceptLevel rfl rfl,
    optional_changed shape distinct "console".toList false Accept.lenientBoolean rfl rfl,
    optional_changed shape distinct "file".toList true Accept.lenientBoolean rfl rfl,
    optional_changed shape distinct "file_path".toList none (Accept.orNull Accept.text) rfl rfl]
  rfl

/-! ## Configurations -/

namespace Settings

/-- The fields of a section of a configuration. -/
def fieldsOf (config : Fields) (name : Text) : Fields :=
  ((config.get? name).bind Value.fields?).getD []

/-- The defaults of a section. -/
def defaultsOf (name : Text) : Fields := fieldsOf (Config.toFields {}) name

/-- What a file holds of a configuration: its sections without what agrees with the defaults, but no
empty ones. -/
def saved (config : Fields) : List (Text × Fields) :=
  (sections.map fun name => (name, changedFields (defaultsOf name) (fieldsOf config name))).filter
    fun s => !s.2.isEmpty

/-- The fields of a file. -/
def savedFields (config : Fields) : Fields := (saved config).map fun s => (s.1, .table s.2)

/-- Every section of the configuration has the shape of its defaults. -/
def ShapedConfig (config : Fields) : Prop :=
  ∀ name ∈ sections, ∃ fs, config.get? name = some (.table fs) ∧ Shaped (defaultsOf name) fs

theorem fieldsOf_eq {config : Fields} {name : Text} (here : config.get? name = some (.table fs)) :
    fieldsOf config name = fs := by
  rw [fieldsOf, here]
  rfl

theorem get?_savedFields (config : Fields) {name : Text} (mem : name ∈ sections) :
    (savedFields config).get? name = if changedFields (defaultsOf name) (fieldsOf config name) =
      [] then none
      else some (.table (changedFields (defaultsOf name) (fieldsOf config name))) := by
  have shape : savedFields config = (sections.map fun name =>
      (name, Value.table (changedFields (defaultsOf name) (fieldsOf config name)))).filter fun s =>
        s.2.given := by
    rw [savedFields, saved, List.filter_map, List.filter_map, List.map_map]
    rfl
  have distinct : ((sections.map fun name =>
      (name, Value.table (changedFields (defaultsOf name) (fieldsOf config name)))).map
        Prod.fst).Nodup := by
    rw [List.map_map]
    exact (by decide : (sections.map id).Nodup)
  rw [shape, Fields.get?_filter distinct, Fields.get?_of_mem distinct (List.mem_map_of_mem mem),
    Option.filter_some]
  cases changedFields (defaultsOf name) (fieldsOf config name) <;> rfl

/-- A section that is left out is read as if it were not. -/
theorem optional_saved {α : Type} {config : Fields} {name : Text} (mem : name ∈ sections) {x : α}
    {accept : Value → Checked α} (here : config.get? name = some (.table fs))
    (changed : accept (.table (changedFields (defaultsOf name) fs)) = accept (.table fs))
    (own : accept (.table []) = .valid x) :
    (savedFields config).optional name x accept = config.optional name x accept := by
  rw [Fields.optional, Fields.optional, get?_savedFields config mem, here, fieldsOf_eq here]
  split
  · next v some =>
    split at some
    · cases some
    · rw [← Option.some.inj some]
      exact congrArg _ changed
  · next none =>
    split at none
    · next left =>
      rw [left, own] at changed
      exact congrArg (Checked.behind name) changed
    · cases none

end Settings

/-- **A configuration is read from what a file holds of it as it is read from the whole.** -/
theorem Config.read_saved {config : Fields} (shape : ShapedConfig config) :
    Config.read (.table (savedFields config)) = Config.read (.table config) := by
  obtain ⟨validation, here₁, shape₁⟩ := shape "validation".toList (by decide)
  obtain ⟨layout, here₂, shape₂⟩ := shape "layout".toList (by decide)
  obtain ⟨toolchain, here₃, shape₃⟩ := shape "toolchain".toList (by decide)
  obtain ⟨logging, here₄, shape₄⟩ := shape "logging".toList (by decide)
  show Config.mk <$> _ <*> _ <*> _ <*> _ = _
  rw [optional_saved (by decide) here₁ (ValidationSettings.read_changed shape₁) rfl,
    optional_saved (by decide) here₂ (Layout.read_changed shape₂) rfl,
    optional_saved (by decide) here₃ (ToolchainSettings.read_changed shape₃) rfl,
    optional_saved (by decide) here₄ (LoggingSettings.read_changed shape₄) rfl]
  rfl

theorem ValidationSettings.shaped (s : ValidationSettings) : Shaped (toFields {}) s.toFields := by
  cases linter : s.linter <;> simp [Shaped, toFields, Kin, linter]

theorem Layout.shaped (l : Layout) : Shaped (toFields {}) l.toFields := by
  simp [Shaped, toFields, Kin]

theorem ToolchainSettings.shaped (s : ToolchainSettings) : Shaped (toFields {}) s.toFields := by
  cases home : s.home <;> simp [Shaped, toFields, Kin, home]

theorem LoggingSettings.shaped (s : LoggingSettings) : Shaped (toFields {}) s.toFields := by
  cases path : s.filePath <;> simp [Shaped, toFields, Kin, path]

/-- The fields of a configuration have the shape of the defaults. -/
theorem Config.shaped (c : Config) : ShapedConfig c.toFields := by
  intro name mem
  rcases List.mem_cons.mp mem with rfl | mem
  · exact ⟨_, rfl, c.validation.shaped⟩
  rcases List.mem_cons.mp mem with rfl | mem
  · exact ⟨_, rfl, c.layout.shaped⟩
  rcases List.mem_cons.mp mem with rfl | mem
  · exact ⟨_, rfl, c.toolchain.shaped⟩
  · rw [List.mem_singleton.mp mem]
    exact ⟨_, rfl, c.logging.shaped⟩

end ContractCheck
