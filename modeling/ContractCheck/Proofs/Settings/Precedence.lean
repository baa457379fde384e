import ContractCheck.Proofs.Settings.Environment

/-! # Which source counts

What the environment gives is laid over what the file gives, key by key, and only then are the
fields looked for under their spellings.  So the environment counts before the file, and the file
before the default, field by field (`load_precedence`), with one exception: where the file spells a
field its first way and the environment only its second way, the file's value counts
(`Setting.Crossed`).
-/
namespace ContractCheck

open Settings

/-- A field of a section: its key, another spelling of it, what it takes, and its default.  Values
are in the form in which the section shows them. -/
structure Setting where
  section_ : Text
  key : Text
  other : Option Text
  accept : Value → Checked Value
  default : Value

namespace Setting

/-- A field with its rule, its default, and the form in which it is shown. -/
def of {α : Type} (section_ key : Text) (other : Option Text) (default : α)
    (accept : Value → Checked α)
    (shown : α → Value) : Setting :=
  { section_, key, other, accept := fun v => (accept v).map shown, default := shown default }

/-- How a linter is shown. -/
def shownLinter : Option LinterName → Value
  | some l => .text l.label
  | none => .null

/-- How a text that may be missing is shown. -/
def shownText : Option Text → Value
  | some t => .text t
  | none => .null

open ValidationSettings in
/-- The fields of the validation section. -/
def validation : List Setting :=
  [of "validation".toList "linter".toList none none acceptLinter shownLinter,
   of "validation".toList asYouTypeKey (some "enabledAsYouTypeCompilationErrorCheck".toList) true
     Accept.lenientBoolean .bool,
   of "validation".toList soliumRulesKey (some "soliumRules".toList) [] acceptRules .table,
   of "validation".toList solhintRulesKey (some "solhintRules".toList) [] acceptRules .table,
   of "validation".toList delayKey (some "validationDelay".toList) 1500 Accept.lenientNatural
     fun n => .int n,
   of "validation".toList dependenciesKey (some "packageDefaultDependenciesDirectory".toList)
     "lib".toList Accept.text .text,
   of "validation".toList dependencyContractsKey
     (some "packageDefaultDependenciesContractsDirectory".toList) "src".toList
     Accept.text .text]

/-- The fields of the layout section. -/
def layout : List Setting :=
  [of "layout".toList "contracts_dir".toList none "contracts".toList Accept.nonEmpty .text,
   of "layout".toList "temp_dir".toList none ".temp".toList Accept.nonEmpty .text,
   of "layout".toList "build_dir".toList none "build".toList Accept.nonEmpty .text,
   of "layout".toList "transient_marker".toList none ['~'] Layout.acceptMarker .text]

/-- The fields of the toolchain section. -/
def toolchain : List Setting :=
  [of "toolchain".toList "home".toList none none (Accept.orNull Accept.text) shownText,
   of "toolchain".toList "source_url".toList none "https://binaries.tonlabs.io".toList
     ToolchainSettings.acceptUrl .text,
   of "toolchain".toList "compiler_version".toList none [] Accept.text .text,
   of "toolchain".toList "linker_version".toList none [] Accept.text .text,
   of "toolchain".toList "stdlib_version".toList none [] Accept.text .text]

/-- The fields of the log section. -/
def logging : List Setting :=
  [of "logging".toList "level".toList none .warning LoggingSettings.acceptLevel fun l =>
   .text l.label,
   of "logging".toList "console".toList none false Accept.lenientBoolean .bool,
   of "logging".toList "file".toList none true Accept.lenientBoolean .bool,
   of "logging".toList "file_path".toList none none (Accept.orNull Accept.text) shownText]

/-- All fields. -/
def all : List Setting := validation ++ layout ++ toolchain ++ logging

/-- These are all fields of all sections, and all their spellings. -/
theorem all_fields : all.map (fun s => (s.section_, s.key)) =
      sections.flatMap (fun name => (defaultsOf name).keys.map fun key => (name, key)) ∧
    ∀ name ∈ sections, spellings name = (all.filter fun s => s.section_ = name).flatMap fun s =>
    s.key :: s.other.toList := by
  decide +kernel

variable {α : Type} {s : Setting} {fs file env : Fields} {k : Text} {v w : Value}

/-- The value of a field in a configuration. -/
def valueIn (s : Setting) (c : Config) : Option Value := (fieldsOf c.toFields s.section_).get? s.key

/-- The spellings of a field. -/
def names (s : Setting) : List Text := s.key :: s.other.toList

/-- What a field comes to. -/
def settle (s : Setting) : Option Value → Checked Value
  | some v => s.accept v
  | none => .valid s.default

/-- What some fields give: under the first spelling if it is there, and otherwise under the
second. -/
def pick (s : Setting) (fs : Fields) : Option Value := fs.get? s.key <|> s.other.bind fs.get?

/-- A field that takes no table; only the rules are tables. -/
def Plain (s : Setting) : Prop := ∀ fs v, s.accept (.table fs) ≠ .valid v

theorem plain_of_not_rules : ∀ s ∈ all, s.key ∉ ruleKeys → s.Plain := by
  have refused :
      ∀ {α : Type} {section_ key : Text} {other : Option Text} {default : α} {accept : Value →
        Checked α}
      {shown : α → Value}, (∀ fs, (accept (.table fs)).toOption = none) →
      (of section_ key other default accept shown).Plain := by
    intro α section_ key other default accept shown none fs v taken
    have taken : (accept (.table fs)).map shown = .valid v := taken
    cases accepted : accept (.table fs) with
    | valid a =>
      have absent := none fs
      rw [accepted] at absent
      cases absent
    | invalid e =>
      rw [accepted] at taken
      cases taken
  simp only [all, validation, layout, toolchain, logging, List.cons_append, List.nil_append,
    List.forall_mem_cons]
  refine ⟨fun _ => refused fun _ => rfl, fun _ => refused fun _ => rfl,
    fun rules => absurd (by decide) rules,
    fun rules => absurd (by decide) rules, fun _ => refused fun _ => rfl, fun _ =>
      refused fun _ => rfl,
    fun _ => refused fun _ => rfl, fun _ => refused fun _ => rfl, fun _ => refused fun _ => rfl,
    fun _ => refused fun _ => rfl, fun _ => refused fun _ => rfl, fun _ => refused fun _ => rfl,
    fun _ => refused fun _ => rfl, fun _ => refused fun _ => rfl, fun _ => refused fun _ => rfl,
    fun _ => refused fun _ => rfl, fun _ => refused fun _ => rfl, fun _ => refused fun _ => rfl,
    fun _ => refused fun _ => rfl, fun _ => refused fun _ => rfl, List.forall_mem_nil _⟩

theorem settle_optional {section_ key : Text} {accept : Value → Checked α} {shown : α → Value}
    {default x : α} (read : fs.optional key default accept = .valid x) :
    (of section_ key none default accept shown).settle
      ((of section_ key none default accept shown).pick fs) =
      .valid (shown x) := by
  have shape : (of section_ key none default accept shown).pick fs = fs.get? key := by
    show (fs.get? key <|> none) = _
    cases fs.get? key <;> rfl
  rw [shape]
  unfold Fields.optional at read
  split at read
  · next v here =>
    rw [here]
    exact congrArg (Checked.map shown) (Checked.behind_eq_valid.mp read)
  · next absent =>
    rw [absent, ← Checked.valid.inj read]
    rfl

theorem settle_spelled {section_ key other : Text} {accept : Value → Checked α} {shown : α → Value}
    {default x : α} (read : fs.spelled key other default accept = .valid x) :
    (of section_ key (some other) default accept shown).settle
      ((of section_ key (some other) default accept shown).pick fs) = .valid (shown x) := by
  have shape : (of section_ key (some other) default accept shown).pick fs =
    (fs.get? key <|> fs.get? other) := rfl
  rw [shape]
  unfold Fields.spelled at read
  split at read
  · next v here =>
    rw [here]
    exact congrArg (Checked.map shown) (Checked.behind_eq_valid.mp read)
  · next absent =>
    rw [absent]
    unfold Fields.optional at read
    split at read
    · next v here =>
      rw [here]
      exact congrArg (Checked.map shown) (Checked.behind_eq_valid.mp read)
    · next absent' =>
      rw [absent', ← Checked.valid.inj read]
      rfl

/-- Whether a section shows just what a field makes of what is given for it. -/
def Reads (fs shown : Fields) (s : Setting) : Prop :=
  ∃ v, shown.get? s.key = some v ∧ s.settle (s.pick fs) = .valid v

theorem validation_reads {r : ValidationSettings}
    (read : ValidationSettings.read (.table fs) = .valid r) :
    ∀ s ∈ validation, s.Reads fs r.toFields := by
  simp only [ValidationSettings.read, Value.record, Checked.seq_eq_valid,
    Checked.map_eq_valid] at read
  obtain ⟨_, _, ⟨_, _, ⟨_, _, ⟨_, _, ⟨_, _, ⟨_, _, ⟨linter, h₁, rfl⟩, h₂, rfl⟩, h₃, rfl⟩, h₄, rfl⟩,
    h₅, rfl⟩, h₆, rfl⟩, h₇, rfl⟩ :=
    read
  simp only [validation, List.forall_mem_cons]
  exact ⟨⟨_, by cases linter <;> rfl, settle_optional h₁⟩, ⟨_, rfl, settle_spelled h₂⟩,
    ⟨_, rfl, settle_spelled h₃⟩,
    ⟨_, rfl, settle_spelled h₄⟩, ⟨_, rfl, settle_spelled h₅⟩, ⟨_, rfl, settle_spelled h₆⟩,
    ⟨_, rfl, settle_spelled h₇⟩,
    List.forall_mem_nil _⟩

theorem layout_reads {r : Layout} (read : Layout.read (.table fs) = .valid r) :
    ∀ s ∈ layout, s.Reads fs r.toFields := by
  simp only [Layout.read, Value.record, Checked.seq_eq_valid, Checked.map_eq_valid] at read
  obtain ⟨_, _, ⟨_, _, ⟨_, _, ⟨_, h₁, rfl⟩, h₂, rfl⟩, h₃, rfl⟩, h₄, rfl⟩ := read
  simp only [layout, List.forall_mem_cons]
  exact ⟨⟨_, rfl, settle_optional h₁⟩, ⟨_, rfl, settle_optional h₂⟩, ⟨_, rfl, settle_optional h₃⟩,
    ⟨_, rfl, settle_optional h₄⟩, List.forall_mem_nil _⟩

theorem toolchain_reads {r : ToolchainSettings}
    (read : ToolchainSettings.read (.table fs) = .valid r) :
    ∀ s ∈ toolchain, s.Reads fs r.toFields := by
  simp only [ToolchainSettings.read, Value.record, Checked.seq_eq_valid,
    Checked.map_eq_valid] at read
  obtain ⟨_, _, ⟨_, _, ⟨_, _, ⟨_, _, ⟨home, h₁, rfl⟩, h₂, rfl⟩, h₃, rfl⟩, h₄, rfl⟩, h₅, rfl⟩ := read
  simp only [toolchain, List.forall_mem_cons]
  exact ⟨⟨_, by cases home <;> rfl, settle_optional h₁⟩, ⟨_, rfl, settle_optional h₂⟩,
    ⟨_, rfl, settle_optional h₃⟩,
    ⟨_, rfl, settle_optional h₄⟩, ⟨_, rfl, settle_optional h₅⟩, List.forall_mem_nil _⟩

theorem logging_reads {r : LoggingSettings} (read : LoggingSettings.read (.table fs) = .valid r) :
    ∀ s ∈ logging, s.Reads fs r.toFields := by
  simp only [LoggingSettings.read, Value.record, Checked.seq_eq_valid, Checked.map_eq_valid] at read
  obtain ⟨_, path, ⟨_, _, ⟨_, _, ⟨_, h₁, rfl⟩, h₂, rfl⟩, h₃, rfl⟩, h₄, rfl⟩ := read
  simp only [logging, List.forall_mem_cons]
  exact ⟨⟨_, rfl, settle_optional h₁⟩, ⟨_, rfl, settle_optional h₂⟩, ⟨_, rfl, settle_optional h₃⟩,
    ⟨_, by cases path <;> rfl, settle_optional h₄⟩, List.forall_mem_nil _⟩

/-! ## Two sources -/

/-- What a file and the environment give together under one spelling. -/
def layered (file env : Fields) (k : Text) : Option Value :=
  match env.get? k with
  | some v => some (laidOver (file.get? k) v)
  | none => file.get? k

/-- What a file and the environment give together for a field. -/
def merged (s : Setting) (file env : Fields) : Option Value :=
  layered file env s.key <|> s.other.bind (layered file env)

/-- The file spells the field its first way, and the environment only its second way. -/
def Crossed (s : Setting) (file env : Fields) : Prop :=
  (file.get? s.key).isSome ∧ env.get? s.key = none ∧ ∃ o, s.other = some o ∧ (env.get? o).isSome

theorem pick_of_get? (same : ∀ k, fs.get? k = layered file env k) (s : Setting) :
    s.pick fs = s.merged file env := by
  rw [pick, merged, same]
  congr 1
  funext _
  congr 1
  exact funext same

/-- Where the spellings cross, the file's value counts. -/
theorem merged_of_crossed (crossed : s.Crossed file env) : s.merged file env = file.get? s.key := by
  obtain ⟨given, absent, -⟩ := crossed
  obtain ⟨v, here⟩ := Option.isSome_iff_exists.mp given
  rw [merged, layered, absent, here]
  rfl

/-- What a plain field takes from the environment is not laid over anything. -/
theorem settle_laidOver (plain : s.Plain) {below : Option Value}
    (settled : s.settle (some (laidOver below w)) = .valid v) :
    s.settle (some w) = .valid v := by
  by_cases table : ∃ fs, w = .table fs
  · obtain ⟨fs, rfl⟩ := table
    obtain ⟨whole, laid⟩ := laidOver_table below fs
    rw [laid] at settled
    exact absurd settled (plain whole v)
  · rwa [laidOver_plain below fun fs same => table ⟨fs, same⟩] at settled

/-- **The environment counts before the file**, unless the spellings cross. -/
theorem settle_of_merged (plain : s.Plain) (straight : ¬ s.Crossed file env)
    (settled : s.settle (s.merged file env) = .valid v) :
    s.settle (s.pick env <|> s.pick file) = .valid v := by
  unfold merged layered at settled
  unfold pick
  cases first : env.get? s.key with
  | some w =>
    rw [first] at settled
    exact settle_laidOver plain settled
  | none =>
    rw [first] at settled
    cases own : file.get? s.key with
    | some w =>
      rw [own] at settled
      -- The file's first spelling counts; the environment does not give the second one.
      have second : s.other.bind env.get? = none := by
        refine Option.bind_eq_none_iff.mpr fun o other => ?_
        refine Option.not_isSome_iff_eq_none.mp fun given =>
          straight ⟨by rw [own]; rfl, first, o, other, given⟩
      rw [second]
      exact settled
    | none =>
      rw [own] at settled
      cases other : s.other with
      | none =>
        rw [other] at settled
        exact settled
      | some o =>
        rw [other] at settled
        simp only [Option.bind_some] at settled ⊢
        cases second : env.get? o with
        | some w =>
          rw [second] at settled
          exact settle_laidOver plain settled
        | none =>
          rw [second] at settled
          exact settled

end Setting

/-! ## Configurations -/

theorem Value.record_table {α : Type} {v : Value} {read : Fields → Checked α}
    {a : α} (taken : v.record read = .valid a) :
    ∃ table, v = .table table := by
  cases v with
  | table fs => exact ⟨fs, rfl⟩
  | _ => cases taken

/-- A section that is read is a table, or is not there. -/
theorem Fields.optional_fieldsOf {α : Type} {fs : Fields} {name : Text}
    {accept : Value → Checked α} {x y : α} (read : fs.optional name x accept = .valid y)
    (own : accept (.table []) = .valid x)
    (record : ∀ v a, accept v = .valid a → ∃ table, v = .table table) :
    accept (.table (fieldsOf fs name)) = .valid y ∧
      ∀ v, fs.get? name = some v → ∃ table, v = .table table := by
  unfold Fields.optional at read
  split at read
  · next v here =>
    obtain ⟨table, rfl⟩ := record v y (Checked.behind_eq_valid.mp read)
    rw [fieldsOf_eq here]
    exact ⟨Checked.behind_eq_valid.mp read,
      fun w same => ⟨table, Option.some.inj (same.symm.trans here)⟩⟩
  · next absent =>
    rw [fieldsOf, absent]
    exact ⟨own.trans read, fun _ there => by cases there⟩

/-- **A configuration shows of each field just what is given for it.** -/
theorem Config.read_settings {fs : Fields} {c : Config}
    (read : Config.read (.table fs) = .valid c) :
    (∀ s ∈ Setting.all, s.Reads (fieldsOf fs s.section_) (fieldsOf c.toFields s.section_)) ∧
    ∀ name ∈ sections, ∀ v, fs.get? name = some v → ∃ table, v = .table table := by
  simp only [Config.read, Value.record, Checked.seq_eq_valid, Checked.map_eq_valid] at read
  obtain ⟨_, _, ⟨_, _, ⟨_, _, ⟨_, h₁, rfl⟩, h₂, rfl⟩, h₃, rfl⟩, h₄, rfl⟩ := read
  obtain ⟨read₁, table₁⟩ := Fields.optional_fieldsOf h₁ rfl fun _ _ => Value.record_table
  obtain ⟨read₂, table₂⟩ := Fields.optional_fieldsOf h₂ rfl fun _ _ => Value.record_table
  obtain ⟨read₃, table₃⟩ := Fields.optional_fieldsOf h₃ rfl fun _ _ => Value.record_table
  obtain ⟨read₄, table₄⟩ := Fields.optional_fieldsOf h₄ rfl fun _ _ => Value.record_table
  constructor
  · have named : (∀ s ∈ Setting.validation, s.section_ = "validation".toList) ∧
        (∀ s ∈ Setting.layout, s.section_ = "layout".toList) ∧
        (∀ s ∈ Setting.toolchain, s.section_ = "toolchain".toList) ∧
        ∀ s ∈ Setting.logging, s.section_ = "logging".toList := by decide
    intro s mem
    rcases List.mem_append.mp mem with mem | mem
    · rcases List.mem_append.mp mem with mem | mem
      · rcases List.mem_append.mp mem with mem | mem
        · rw [named.1 s mem]
          exact Setting.validation_reads read₁ s mem
        · rw [named.2.1 s mem]
          exact Setting.layout_reads read₂ s mem
      · rw [named.2.2.1 s mem]
        exact Setting.toolchain_reads read₃ s mem
    · rw [named.2.2.2 s mem]
      exact Setting.logging_reads read₄ s mem
  · exact List.forall_mem_cons.mpr ⟨table₁,
      List.forall_mem_cons.mpr ⟨table₂, List.forall_mem_cons.mpr ⟨table₃,
      List.forall_mem_singleton.mpr table₄⟩⟩⟩

namespace Settings

variable {base upper : Fields} {e : Environment} {k : Text}

/-- The fields of a section of a file, with what the environment gives laid over them. -/
theorem get?_fieldsOf_overlay (given : fromEnvironment? e = some upper) {name : Text}
    (mem : name ∈ sections)
    (tables : ∀ v, Fields.get? (overlay base upper) name = some v → ∃ table, v = .table table) :
    (∀ v, upper.get? name = some v → ∃ table, v = .table table) ∧
    ∀ k, (fieldsOf (overlay base upper) name).get? k =
    Setting.layered (fieldsOf base name) (fieldsOf upper name) k := by
  obtain ⟨distinct, each⟩ := fromEnvironment?_some given
  cases above : upper.get? name with
  | none =>
    have here : Fields.get? (overlay base upper) name = base.get? name :=
      (get?_overlay distinct base name).trans (by rw [above])
    have same : fieldsOf (overlay base upper) name = fieldsOf base name := by
      rw [fieldsOf, here]; rfl
    have nothing : fieldsOf upper name = [] := by rw [fieldsOf, above]; rfl
    rw [same, nothing]
    exact ⟨fun _ there => (by cases there), fun _ => rfl⟩
  | some v =>
    have here : Fields.get? (overlay base upper) name = some (laidOver (base.get? name) v) :=
      (get?_overlay distinct base name).trans (by rw [above])
    have table : ∃ table, v = .table table := by
      by_contra plain
      rw [laidOver_plain _ fun fs same => plain ⟨fs, same⟩] at here
      exact plain (tables v here)
    obtain ⟨table, rfl⟩ := table
    refine ⟨fun w same => ⟨table, (Option.some.inj same).symm⟩, fun k => ?_⟩
    have inner := sectionFrom?_nodup ((each name mem).trans (congrArg some above))
    rw [fieldsOf_eq above]
    -- What is no table in the file gives the section no fields.
    have alone : laidOver (base.get? name) (.table table) = .table table → fieldsOf base name = [] →
        (fieldsOf (overlay base upper) name).get? k =
          Setting.layered (fieldsOf base name) table k := by
      intro same nothing
      rw [same] at here
      rw [fieldsOf_eq here, nothing, Setting.layered]
      cases Fields.get? table k <;> rfl
    cases below : base.get? name with
    | none => exact alone (by rw [below]; rfl) (by rw [fieldsOf, below]; rfl)
    | some w =>
      cases w with
      | table fs =>
        rw [below] at here
        have laid : fieldsOf (overlay base upper) name = overlay fs table := fieldsOf_eq here
        rw [laid, get?_overlay inner, fieldsOf_eq below]
        rfl
      | _ => exact alone (by rw [below]; rfl) (by rw [fieldsOf, below]; rfl)

end Settings

/-! ## Loading -/

namespace Setting

/-- How a field comes by its value, of the environment, the fields of its section in the file, and
the fields that the environment makes of its section. -/
structure Follows (s : Setting) (e : Environment) (file env : Fields) (v : Value) : Prop where
  /-- What both give is laid over one another under each spelling. -/
  merged : s.settle (s.merged file env) = .valid v
  /-- Where the spellings cross, the file counts. -/
  crossed : s.Crossed file env → s.settle (file.get? s.key) = .valid v
  /-- Otherwise it is the value that a variable gives, if one does, and what the file gives or the
  default if none does. -/
  first : s.key ∉ ruleKeys → ¬ s.Crossed file env → ¬ Muted e s.section_ →
    (∃ k ∈ s.names, ∃ w, Gives e s.section_ k w ∧ s.accept w = .valid v) ∨
    (∀ k ∈ s.names, ∀ w, ¬ Gives e s.section_ k w) ∧ s.settle (s.pick file) = .valid v
  /-- Of a muted section, the environment gives nothing. -/
  muted : Muted e s.section_ → s.settle (s.pick file) = .valid v

/-- Each of the fields is one of its section. -/
theorem field_of_section (mem : s ∈ all) :
    s.section_ ∈ sections ∧ s.key ∈ (defaultsOf s.section_).keys := by
  have here : (s.section_, s.key) ∈ all.map fun s => (s.section_, s.key) :=
    List.mem_map.mpr ⟨s, mem, rfl⟩
  rw [all_fields.1, List.mem_flatMap] at here
  obtain ⟨name, listed, here⟩ := here
  obtain ⟨key, own, same⟩ := List.mem_map.mp here
  obtain ⟨rfl, rfl⟩ := Prod.mk.inj same
  exact ⟨listed, own⟩

theorem names_spelled : ∀ s ∈ all, s.section_ ∈ sections ∧ ∀ k ∈ s.names,
    k ∈ spellings s.section_ := by
  intro s mem
  have listed := (field_of_section mem).1
  refine ⟨listed, fun k named => ?_⟩
  rw [all_fields.2 _ listed, List.mem_flatMap]
  exact ⟨s, List.mem_filter.mpr ⟨mem, decide_eq_true rfl⟩, named⟩

/-- What the environment's table for a section says of a field, its variables say. -/
theorem pick_gives {s : Setting} (mem : s ∈ all) {e : Environment} {upper : Fields}
    (given : fromEnvironment? e = some upper)
    (tables : ∀ v, upper.get? s.section_ = some v → ∃ table, v = .table table)
    (heard : ¬ Muted e s.section_) :
    (∀ w, s.pick (fieldsOf upper s.section_) = some w → ∃ k ∈ s.names, Gives e s.section_ k w ∨
      ∃ inner, w = .table inner) ∧
    (s.pick (fieldsOf upper s.section_) = none → ∀ k ∈ s.names, ∀ w, ¬ Gives e s.section_ k w) := by
  obtain ⟨listed, spelled⟩ := names_spelled s mem
  have from_ := (fromEnvironment?_some given).2 s.section_ listed
  cases above : upper.get? s.section_ with
  | none =>
    rw [above] at from_
    have nothing : fieldsOf upper s.section_ = [] := by rw [fieldsOf, above]; rfl
    have unpicked : s.pick [] = none := by
      rw [pick]
      cases s.other <;> rfl
    rw [nothing, unpicked]
    exact ⟨fun _ some => (by cases some), fun _ k named w =>
      not_gives listed (spelled k named) heard from_⟩
  | some v =>
    obtain ⟨table, rfl⟩ := tables v above
    rw [above] at from_
    rw [fieldsOf_eq above]
    have sound : ∀ k ∈ s.names, ∀ w, Fields.get? table k = some w →
        ∃ k ∈ s.names, Gives e s.section_ k w ∨ ∃ inner, w = .table inner := fun k named w here =>
      ⟨k, named, gives_of_mem listed (spelled k named) from_ (Fields.mem_of_get? here)⟩
    have whole : ∀ k ∈ s.names, Fields.get? table k = none → ∀ w, ¬ Gives e s.section_ k w :=
      fun k named absent w gives => by
      have there := Fields.isSome_get?.mpr (mem_of_gives listed (spelled k named) from_ gives)
      rw [absent] at there
      cases there
    unfold pick
    constructor
    · intro w picked
      cases first : Fields.get? table s.key with
      | some u =>
        rw [first] at picked
        exact sound s.key List.mem_cons_self w (first.trans picked)
      | none =>
        rw [first] at picked
        obtain ⟨o, other, second⟩ := Option.bind_eq_some_iff.mp picked
        exact sound o (List.mem_cons_of_mem _ (Option.mem_toList.mpr other)) w second
    · intro unpicked k named
      cases first : Fields.get? table s.key with
      | some u =>
        rw [first] at unpicked
        cases unpicked
      | none =>
        rw [first] at unpicked
        rcases List.mem_cons.mp named with rfl | named
        · exact whole _ List.mem_cons_self first
        · exact whole k (List.mem_cons_of_mem _ named)
            (Option.bind_eq_none_iff.mp unpicked k (Option.mem_toList.mp named))

end Setting

namespace Settings

variable {h h' : Host} {path start : Option Text} {loaded : Loaded}

/-- What is loaded, of what the environment gives and of both looks at the file. -/
theorem load_of_layers {base notes : Layer} {given : Fields} {h₁ h₂ : Host}
    (found : fromEnvironment? h.environment = some given)
    (first : (layer path start).perform h = (.ok base, h₁))
    (second : (layer path start).perform h₁ = (.ok notes, h₂)) :
    (load path start).perform h = match Config.read (.table (overlay base.fields given)) with
      | .valid c => (.ok { config := c, file := notes.file, error := notes.error }, h₂)
      | .invalid issues => (.error (.invalid issues), h₁) := by
  unfold load
  rw [Action.perform_bind_ok (Action.perform_get h), found]
  dsimp only
  rw [Action.perform_bind_ok first]
  cases Config.read (.table (overlay base.fields given)) with
  | invalid issues => rfl
  | valid c =>
    dsimp only
    rw [Action.perform_bind_ok second]
    rfl

/-- What is loaded was read from the file's fields with the environment's laid over them. -/
theorem load_reads (loads : (load path start).perform h = (.ok loaded, h')) : ∃ base given,
    ((layer path start).perform h).1 = .ok base ∧ fromEnvironment? h.environment = some given ∧
    Config.read (.table (overlay base.fields given)) = .valid loaded.config := by
  unfold load at loads
  rw [Action.perform_bind_ok (Action.perform_get h)] at loads
  split at loads
  · cases loads
  · next given found =>
    obtain ⟨base, h₁, first, loads⟩ := Action.ok_of_bind loads
    split at loads
    · cases loads
    · next config read =>
      obtain ⟨notes, h₂, -, loads⟩ := Action.ok_of_bind loads
      refine ⟨base, given, by rw [first], found, ?_⟩
      rw [read, ← Action.eq_of_pure loads]

/-- **The environment counts before the file, and the file before the default**, for each field on
its own, whichever way it is spelled, but for fields whose spellings cross and sections that are
muted.  The fields are all that there are (`Setting.all_fields`). -/
theorem load_precedence (loads : (load path start).perform h = (.ok loaded, h')) : ∃ base given,
    ((layer path start).perform h).1 = .ok base ∧ fromEnvironment? h.environment = some given ∧
    ∀ s ∈ Setting.all, ∃ v, s.valueIn loaded.config = some v ∧
      s.Follows h.environment (fieldsOf base.fields s.section_) (fieldsOf given s.section_) v := by
  obtain ⟨base, given, layered, found, read⟩ := load_reads loads
  obtain ⟨reads, tables⟩ := Config.read_settings read
  refine ⟨base, given, layered, found, fun s mem => ?_⟩
  obtain ⟨listed, -⟩ := Setting.names_spelled s mem
  obtain ⟨given_tables, laid⟩ := get?_fieldsOf_overlay found listed (tables s.section_ listed)
  obtain ⟨v, shown, settled⟩ := reads s mem
  rw [Setting.pick_of_get? laid s] at settled
  refine ⟨v, shown, settled, fun crossed => Setting.merged_of_crossed crossed ▸ settled,
    fun single straight heard => ?_,
    fun muted => ?_⟩
  · have plain := Setting.plain_of_not_rules s mem single
    have counts := Setting.settle_of_merged plain straight settled
    obtain ⟨sound, whole⟩ := Setting.pick_gives mem found given_tables heard
    cases picked : s.pick (fieldsOf given s.section_) with
    | some w =>
      rw [picked] at counts
      obtain ⟨k, named, gives | ⟨inner, rfl⟩⟩ := sound w picked
      · exact .inl ⟨k, named, w, gives, counts⟩
      · exact absurd counts (plain inner v)
    | none =>
      rw [picked] at counts
      exact .inr ⟨whole picked, counts⟩
  · have nothing : given.get? s.section_ = none := by
      have from_ := (fromEnvironment?_some found).2 s.section_ listed
      rw [sectionFrom?_muted muted] at from_
      exact (Option.some.inj from_).symm
    have empty : fieldsOf given s.section_ = [] := by rw [fieldsOf, nothing]; rfl
    rw [empty] at settled
    exact settled

/-- A project with a file that gives the directory of the dependencies. -/
def dependingProject (environment : Environment) : Host :=
  { files := { entries := [([directoryName], .directory), ([directoryName, fileName],
      .file (Utf8.encode
        "[validation]\npackage_default_dependencies_directory = \"deps\"\n".toList) .plain)] }
    environment }

/-- The fields of that file. -/
def dependingFields : Fields :=
  [("validation".toList,
    .table [("package_default_dependencies_directory".toList, .text "deps".toList)])]

/-- The directory in the environment. -/
def vendorVariable (name : String) : Environment := [(name.toList, "vendor".toList)]

theorem dependingProject_read (e : Environment) :
    (dependingProject e).files.read [] "/.solcheck/config.toml".toList =
    .ok
      (Utf8.encode "[validation]\npackage_default_dependencies_directory = \"deps\"\n".toList) := by
  rfl

theorem dependingProject_parsed :
    Toml.readBytes (Utf8.encode
      "[validation]\npackage_default_dependencies_directory = \"deps\"\n".toList) =
      .ok dependingFields := by
  cbv

theorem dependingProject_layer (e : Environment) : (layer none none).perform (dependingProject e) =
    (.ok { fields := dependingFields, file := some "/.solcheck/config.toml".toList },
      dependingProject e) := by
  have found : (find none).perform (dependingProject e) =
    (.ok (some "/.solcheck/config.toml".toList), dependingProject e) := by cbv
  rw [layer_none, Action.perform_bind_ok found]
  exact readLayer_file (dependingProject_read e) dependingProject_parsed (by decide)

/-- What is loaded in that project. -/
theorem dependingProject_load {e : Environment} {given : Fields} {c : Config}
    (found : fromEnvironment? e = some given)
    (read : Config.read (.table (overlay dependingFields given)) = .valid c) :
    (load none none).perform (dependingProject e) =
      (.ok { config := c, file := some "/.solcheck/config.toml".toList }, dependingProject e) := by
  have result := load_of_layers found (dependingProject_layer e) (dependingProject_layer e)
  rw [read] at result
  exact result

/-- The directory that the environment gives under the field's own name. -/
def ownVariable : Environment :=
  vendorVariable "SOLCHECK_VALIDATION__PACKAGE_DEFAULT_DEPENDENCIES_DIRECTORY"

/-- The directory that the environment gives under the editor's name of the field. -/
def editorVariable : Environment :=
  vendorVariable "SOLCHECK_VALIDATION__PACKAGEDEFAULTDEPENDENCIESDIRECTORY"

theorem own_given : fromEnvironment? ownVariable =
    some [("validation".toList, .table
      [("package_default_dependencies_directory".toList, .text "vendor".toList)])] := by
  have low : lowerNames ownVariable =
    [("solcheck_validation__package_default_dependencies_directory".toList, "vendor".toList)] := by
    decide
  rw [fromEnvironment?, low]
  rfl

theorem editor_given : fromEnvironment? editorVariable =
    some [("validation".toList, .table
      [("packageDefaultDependenciesDirectory".toList, .text "vendor".toList)])] := by
  have low : lowerNames editorVariable =
    [("solcheck_validation__packagedefaultdependenciesdirectory".toList, "vendor".toList)] := by
    decide
  rw [fromEnvironment?, low]
  rfl

/-- The environment counts before the file where it spells the field the same way. -/
theorem own_spelling_counts :
    ∃ loaded h', (load none none).perform (dependingProject ownVariable) = (.ok loaded, h') ∧
    loaded.config.validation.dependencies = "vendor".toList ∧
    ∃ base given, ((layer none none).perform (dependingProject ownVariable)).1 = .ok base ∧
      fromEnvironment? ownVariable = some given ∧
      ∀ s ∈ Setting.all, ∃ v, s.valueIn loaded.config = some v ∧
        s.Follows ownVariable (fieldsOf base.fields s.section_) (fieldsOf given s.section_) v :=
  have loads := dependingProject_load own_given rfl
  ⟨_, _, loads, rfl, load_precedence loads⟩

/-- **Where the environment spells the field its second way, the file counts before it.** -/
theorem editor_spelling_lost :
    ∃ loaded h', (load none none).perform (dependingProject editorVariable) = (.ok loaded, h') ∧
    Gives editorVariable "validation".toList "packageDefaultDependenciesDirectory".toList
      (.text "vendor".toList) ∧
    loaded.config.validation.dependencies = "deps".toList :=
  have gives := Gives.own "vendor".toList (by decide) rfl
  ⟨_, _, dependingProject_load editor_given rfl, gives, rfl⟩

end Settings
end ContractCheck
