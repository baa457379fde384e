import ContractCheck.Proofs.Settings.Defaults
import ContractCheck.Proofs.Text.Numerals

/-! # Changing one setting

A section with one field changed is read as the section's own rules assign the field, and so is a
configuration (`Config.read_put`): the rule of the field decides, and no other setting changes.
-/
namespace ContractCheck

namespace Checked

variable {α β : Type}

theorem map_eq_valid {f : α → β} {c : Checked α} {b : β} :
    f <$> c = .valid b ↔ ∃ a, c = .valid a ∧ f a = b := by
  cases c with
  | valid a =>
    exact ⟨fun h => ⟨a, rfl, valid.inj h⟩, fun ⟨_, h, e⟩ => by rw [valid.inj h, ← e]; rfl⟩
  | invalid e => exact ⟨nofun, nofun⟩

theorem seq_eq_valid {f : Checked (α → β)} {c : Checked α} {b : β} :
    f <*> c = .valid b ↔ ∃ g a, f = .valid g ∧ c = .valid a ∧ g a = b := by
  cases f with
  | valid g =>
    cases c with
    | valid a => exact ⟨fun h => ⟨g, a, rfl, rfl, valid.inj h⟩, fun ⟨_, _, h, h', e⟩ => by
        rw [valid.inj h, valid.inj h', ← e]; rfl⟩
    | invalid e => exact ⟨nofun, nofun⟩
  | invalid e => cases c <;> exact ⟨nofun, nofun⟩

theorem behind_eq_valid {c : Checked α} {k : Text} {a : α} :
    c.behind k = .valid a ↔ c = .valid a := by
  cases c with
  | valid b => exact Iff.rfl
  | invalid e => exact ⟨nofun, nofun⟩

/-- Checks of one outcome are both valid, with the same value, or both invalid. -/
theorem cases_of_toOption {c c' : Checked α} (same : c.toOption = c'.toOption) :
    (∃ a, c = .valid a ∧ c' = .valid a) ∨ ∃ e e', c = .invalid e ∧ c' = .invalid e' := by
  cases c with
  | valid a =>
    cases c' with
    | valid b => exact .inl ⟨a, rfl, congrArg valid (Option.some.inj same).symm⟩
    | invalid e => cases same
  | invalid e =>
    cases c' with
    | valid b => cases same
    | invalid e' => exact .inr ⟨e, e', rfl, rfl⟩

end Checked

namespace Fields

variable {α : Type} {fs : Fields} {key k other : Text} {v : Value} {x : α}
  {accept : Value → Checked α}

theorem optional_put : (put key v fs).optional k x accept =
    if k = key then (accept v).behind key else fs.optional k x accept := by
  by_cases same : k = key
  · subst same
    rw [if_pos rfl, optional, get?_put_self]
  · rw [if_neg same, optional, get?_put_of_ne fs v same]
    rfl

theorem spelled_put (strange : other ≠ key) : (put key v fs).spelled k other x accept =
    if k = key then (accept v).behind key else fs.spelled k other x accept := by
  by_cases same : k = key
  · subst same
    rw [if_pos rfl, spelled, get?_put_self]
  · rw [if_neg same, spelled, get?_put_of_ne fs v same, optional_put, if_neg strange]
    rfl

end Fields

/-! ## Sections -/

variable {key : Text} {v : Value}

theorem ValidationSettings.read_put {s : ValidationSettings}
    (own : read (.table s.toFields) = .valid s) (known : key ∈ Fields.keys (toFields {})) :
    (read (.table (Fields.put key v s.toFields))).toOption = (s.assign key v).toOption := by
  simp only [read, Value.record, Checked.seq_eq_valid, Checked.map_eq_valid] at own
  obtain ⟨_, _, ⟨_, _, ⟨_, _, ⟨_, _, ⟨_, _, ⟨_, _, ⟨_, h₁, rfl⟩, h₂, rfl⟩, h₃, rfl⟩, h₄, rfl⟩,
    h₅, rfl⟩, h₆, rfl⟩, h₇, rfl⟩ :=
    own
  simp only [Fields.keys, toFields, List.map_cons, List.map_nil, List.mem_cons, List.not_mem_nil,
    or_false] at known
  rcases known with rfl | rfl | rfl | rfl | rfl | rfl | rfl
  -- Whichever field is changed, its rule decides, and the others are as they were.
  all_goals
    simp +decide only [read, Value.record, assign, Fields.optional_put, Fields.spelled_put, h₁, h₂,
      h₃, h₄, h₅, h₆, h₇,
      if_true, if_false]
    generalize Checked.behind _ _ = c
    cases c <;> rfl

theorem Layout.read_put {l : Layout} (own : read (.table l.toFields) = .valid l)
    (known : key ∈ Fields.keys (toFields {})) :
    (read (.table (Fields.put key v l.toFields))).toOption = (l.assign key v).toOption := by
  simp only [read, Value.record, Checked.seq_eq_valid, Checked.map_eq_valid] at own
  obtain ⟨_, _, ⟨_, _, ⟨_, _, ⟨_, h₁, rfl⟩, h₂, rfl⟩, h₃, rfl⟩, h₄, rfl⟩ := own
  simp only [Fields.keys, toFields, List.map_cons, List.map_nil, List.mem_cons, List.not_mem_nil,
    or_false] at known
  rcases known with rfl | rfl | rfl | rfl
  all_goals
    simp +decide only [read, Value.record, assign, Fields.optional_put, h₁, h₂, h₃, h₄,
      if_true, if_false]
    generalize Checked.behind _ _ = c
    cases c <;> rfl

theorem ToolchainSettings.read_put {s : ToolchainSettings}
    (own : read (.table s.toFields) = .valid s) (known : key ∈ Fields.keys (toFields {})) :
    (read (.table (Fields.put key v s.toFields))).toOption = (s.assign key v).toOption := by
  simp only [read, Value.record, Checked.seq_eq_valid, Checked.map_eq_valid] at own
  obtain ⟨_, _, ⟨_, _, ⟨_, _, ⟨_, _, ⟨_, h₁, rfl⟩, h₂, rfl⟩, h₃, rfl⟩, h₄, rfl⟩, h₅, rfl⟩ := own
  simp only [Fields.keys, toFields, List.map_cons, List.map_nil, List.mem_cons, List.not_mem_nil,
    or_false] at known
  rcases known with rfl | rfl | rfl | rfl | rfl
  all_goals
    simp +decide only [read, Value.record, assign, Fields.optional_put, h₁, h₂, h₃, h₄, h₅,
      if_true, if_false]
    generalize Checked.behind _ _ = c
    cases c <;> rfl

theorem LoggingSettings.read_put {s : LoggingSettings} (own : read (.table s.toFields) = .valid s)
    (known : key ∈ Fields.keys (toFields {})) :
    (read (.table (Fields.put key v s.toFields))).toOption = (s.assign key v).toOption := by
  simp only [read, Value.record, Checked.seq_eq_valid, Checked.map_eq_valid] at own
  obtain ⟨_, _, ⟨_, _, ⟨_, _, ⟨_, h₁, rfl⟩, h₂, rfl⟩, h₃, rfl⟩, h₄, rfl⟩ := own
  simp only [Fields.keys, toFields, List.map_cons, List.map_nil, List.mem_cons, List.not_mem_nil,
    or_false] at known
  rcases known with rfl | rfl | rfl | rfl
  all_goals
    simp +decide only [read, Value.record, assign, Fields.optional_put, h₁, h₂, h₃, h₄,
      if_true, if_false]
    generalize Checked.behind _ _ = c
    cases c <;> rfl

/-! ## Configurations -/

open Settings

/-- The configuration with one field of a section changed. -/
def Config.assignIn (c : Config) (name key : Text) (v : Value) : Checked Config :=
  if name = "validation".toList then (c.validation.assign key v).map fun s =>
    { c with validation := s }
  else if name = "layout".toList then (c.layout.assign key v).map fun s => { c with layout := s }
  else if name = "toolchain".toList then (c.toolchain.assign key v).map fun s =>
    { c with toolchain := s }
  else if name = "logging".toList then (c.logging.assign key v).map fun s => { c with logging := s }
  else .invalid [⟨[name], .noSuchField⟩]

/-- **A configuration with one field changed is read as its rules assign the field.** -/
theorem Config.read_put {c : Config} (own : Config.read c.toValue = .valid c) {name : Text}
    (mem : name ∈ sections) (known : key ∈ (defaultsOf name).keys) {config : Fields}
    (here : config.get? name = some (.table (Fields.put key v (fieldsOf c.toFields name))))
    (others : ∀ other ∈ sections, other ≠ name → config.get? other = c.toFields.get? other) :
    (Config.read (.table config)).toOption = (c.assignIn name key v).toOption := by
  have same : ∀ {α : Type} {other : Text} {x : α} {accept : Value → Checked α}, other ∈ sections →
      other ≠ name →
      config.optional other x accept = Fields.optional c.toFields other x accept :=
      fun listed different => by
    rw [Fields.optional, Fields.optional, others _ listed different]
  have changed : ∀ {α : Type} {x : α} {accept : Value → Checked α}, config.optional name x accept =
      (accept (.table (Fields.put key v (fieldsOf c.toFields name)))).behind name := by
    intro α x accept
    rw [Fields.optional, here]
  simp only [Config.read, Config.toValue, Value.record, Checked.seq_eq_valid,
    Checked.map_eq_valid] at own
  obtain ⟨_, _, ⟨_, _, ⟨_, _, ⟨_, h₁, rfl⟩, h₂, rfl⟩, h₃, rfl⟩, h₄, rfl⟩ := own
  show (Config.mk <$> _ <*> _ <*> _ <*> _ : Checked Config).toOption = _
  simp only [sections, List.mem_cons, List.not_mem_nil, or_false] at mem
  rcases mem with rfl | rfl | rfl | rfl
  · rw [changed, same (by decide) (by decide), h₂, same (by decide) (by decide), h₃,
      same (by decide) (by decide), h₄]
    rcases Checked.cases_of_toOption
      (ValidationSettings.read_put (v := v) (Checked.behind_eq_valid.mp h₁) known) with
      ⟨s, read, assigned⟩ | ⟨e, e', read, assigned⟩
    all_goals
      refine Eq.trans (congrArg (fun c =>
        Checked.toOption (Config.mk <$> Checked.behind _ c <*> _ <*> _ <*> _)) read) ?_
      simp +decide only [Config.assignIn, if_true, if_false, assigned]
      rfl
  · rw [changed, same (by decide) (by decide), h₁, same (by decide) (by decide), h₃,
      same (by decide) (by decide), h₄]
    rcases Checked.cases_of_toOption
      (Layout.read_put (v := v) (Checked.behind_eq_valid.mp h₂) known) with
      ⟨s, read, assigned⟩ | ⟨e, e', read, assigned⟩
    all_goals
      refine Eq.trans (congrArg (fun c =>
        Checked.toOption (Config.mk <$> _ <*> Checked.behind _ c <*> _ <*> _)) read) ?_
      simp +decide only [Config.assignIn, if_true, if_false, assigned]
      rfl
  · rw [changed, same (by decide) (by decide), h₁, same (by decide) (by decide), h₂,
      same (by decide) (by decide), h₄]
    rcases Checked.cases_of_toOption
      (ToolchainSettings.read_put (v := v) (Checked.behind_eq_valid.mp h₃) known) with
      ⟨s, read, assigned⟩ | ⟨e, e', read, assigned⟩
    all_goals
      refine Eq.trans (congrArg (fun c =>
        Checked.toOption (Config.mk <$> _ <*> _ <*> Checked.behind _ c <*> _)) read) ?_
      simp +decide only [Config.assignIn, if_true, if_false, assigned]
      rfl
  · rw [changed, same (by decide) (by decide), h₁, same (by decide) (by decide), h₂,
      same (by decide) (by decide), h₃]
    rcases Checked.cases_of_toOption
      (LoggingSettings.read_put (v := v) (Checked.behind_eq_valid.mp h₄) known) with
      ⟨s, read, assigned⟩ | ⟨e, e', read, assigned⟩
    all_goals
      refine Eq.trans (congrArg (fun c =>
        Checked.toOption (Config.mk <$> _ <*> _ <*> _ <*> Checked.behind _ c)) read) ?_
      simp +decide only [Config.assignIn, if_true, if_false, assigned]
      rfl

/-! ## Keys -/

namespace Settings

/-- The section of a key. -/
def Key.sectionName (k : Key) : Text := (Value.pathOf k.name).headD []

/-- The field of a key in its section. -/
def Key.field (k : Key) : Text := (Value.pathOf k.name).getLastD []

theorem key_path {k : Key} (mem : k ∈ keys) : Value.pathOf k.name = [k.sectionName, k.field] ∧
    k.sectionName ∈ sections ∧ k.field ∈ (defaultsOf k.sectionName).keys := by
  have all : ∀ k ∈ keys, Value.pathOf k.name = [k.sectionName, k.field] ∧
      k.sectionName ∈ sections ∧ k.field ∈ (defaultsOf k.sectionName).keys := by decide +kernel
  exact all k mem

/-- Whether the field of a key takes a text that the key takes: names of directories are not empty,
an address has one of three schemes, and a level is one of four. -/
def Key.Fits (k : Key) (t : Text) : Prop :=
  (k.sectionName = "layout".toList → t ≠ []) ∧
  (k.name = "toolchain.source_url".toList →
    "http://".toList <+: t ∨ "https://".toList <+: t ∨ "file://".toList <+: t) ∧
  (k.name = "logging.level".toList → (LogLevel.ofLabel? t).isSome)

/-- What the field of a key makes of a value: no linter is null, and an address loses slashes at its
end. -/
def Key.settled (k : Key) : Value → Value
  | .text t =>
    if k.kind = .linter ∧ t = "none".toList then .null
    else if k.name = "toolchain.source_url".toList then .text (Text.dropEndWhile (· == '/') t)
    else .text t
  | v => v

/-- The values that a key of some kind takes a text for. -/
def KeyKind.Takes (t : Text) (v : Value) : KeyKind → Prop
  | .truth => ∃ b, v = .bool b
  | .whole => ∃ n : Nat, v = .int n ∧ n < Nat.pow 10 Text.maxDigits
  | .linter => v = .text "none".toList ∨ ∃ l : LinterName, v = .text l.label
  | .text => v = .text t

theorem parse_takes {k : Key} {t : Text} {v : Value} (parsed : k.parse t = .ok v) :
    k.kind.Takes t v := by
  unfold Key.parse at parsed
  dsimp only at parsed
  cases kind : k.kind with
  | truth =>
    rw [kind] at parsed
    dsimp only at parsed
    split at parsed
    · exact ⟨true, (Except.ok.inj parsed).symm⟩
    · split at parsed
      · exact ⟨false, (Except.ok.inj parsed).symm⟩
      · cases parsed
  | whole =>
    rw [kind] at parsed
    dsimp only at parsed
    split at parsed
    · cases parsed
    · next n read =>
      split at parsed
      · cases parsed
      · next natural =>
        have whole : ((n.toNat : Nat) : Int) = n := Int.toNat_of_nonneg (Int.not_lt.mp natural)
        have small : n.toNat < Nat.pow 10 Text.maxDigits := by
          rw [← Int.natAbs_natCast n.toNat, whole]
          exact Text.readInt?_small read
        exact ⟨n.toNat, by rw [whole, Except.ok.inj parsed], small⟩
  | linter =>
    rw [kind] at parsed
    dsimp only at parsed
    split at parsed
    · next named =>
      rw [← Except.ok.inj parsed]
      rcases named with none | some
      · exact .inl (congrArg Value.text none)
      · refine .inr ?_
        unfold LinterName.ofLabel? at some
        split at some
        · next same => exact ⟨.solhint, congrArg Value.text same⟩
        · split at some
          · next same => exact ⟨.solium, congrArg Value.text same⟩
          · cases some
    · cases parsed
  | text =>
    rw [kind] at parsed
    exact (Except.ok.inj parsed).symm

theorem lenientNatural_nat (n : Nat) : Accept.lenientNatural (.int n) = .valid n := by
  have natural : ¬ (n : Int) < 0 := Int.not_lt.mpr (Int.natCast_nonneg n)
  rw [Accept.lenientNatural, Accept.lenientInteger, Checked.andThen, if_neg natural,
    Int.toNat_natCast]

theorem acceptUrl_text (t : Text) : ToolchainSettings.acceptUrl (.text t) =
    if "http://".toList <+: t ∨ "https://".toList <+: t ∨ "file://".toList <+: t then
      .valid (Text.dropEndWhile (· == '/') t) else .fail .refused := by
  rw [ToolchainSettings.acceptUrl, ToolchainSettings.acceptUrl.trimmed]
  simp only [Bool.or_eq_true, Text.startsWith_iff, or_assoc]

/-- Whether the field of a key takes a value just if it fits, and makes of it what `settled`
says. -/
def Key.Decides (k : Key) (t : Text) (v : Value) (c : Config) : Prop :=
  (k.Fits t → ∃ c', c.assignIn k.sectionName k.field v = .valid c' ∧
    Value.getKey k.name c'.toValue = some (k.settled v)) ∧
  (¬ k.Fits t → ∃ e, c.assignIn k.sectionName k.field v = .invalid e)

/-- Most keys take whatever their kind allows. -/
theorem Key.decides_of_free {k : Key} {t : Text} {v : Value} {c : Config}
    (layout : k.sectionName ≠ "layout".toList) (url : k.name ≠ "toolchain.source_url".toList)
    (level : k.name ≠ "logging.level".toList)
    (taken : ∃ c', c.assignIn k.sectionName k.field v = .valid c' ∧
      Value.getKey k.name c'.toValue = some (k.settled v)) : k.Decides t v c :=
  ⟨fun _ => taken, fun not => absurd ⟨fun h => absurd h layout, fun h => absurd h url,
    fun h => absurd h level⟩ not⟩

section Rules

variable (t : Text) (c : Config) (default : Value) (description : Text)

/-- The delay is any number that is not negative. -/
theorem delay_decides (n : Nat) :
    Key.Decides ⟨"validation.validation_delay".toList, .whole, default, description⟩ t
      (.int n) c := by
  have taken : c.assignIn "validation".toList ValidationSettings.delayKey (.int n) =
      (((Accept.lenientNatural (.int n)).behind ValidationSettings.delayKey).map fun x =>
        { c.validation with delay := x }).map fun s => { c with validation := s } := rfl
  rw [lenientNatural_nat] at taken
  exact Key.decides_of_free nofun nofun nofun ⟨_, taken, rfl⟩

/-- A directory of the layout has a name. -/
theorem directory_decides {name : Text}
    (mem : name ∈ ["layout.contracts_dir", "layout.temp_dir", "layout.build_dir"].map
      String.toList) :
    Key.Decides ⟨name, .text, default, description⟩ t (.text t) c := by
  have url : name ≠ "toolchain.source_url".toList := by
    rintro rfl
    exact absurd mem (by decide)
  have level : name ≠ "logging.level".toList := by
    rintro rfl
    exact absurd mem (by decide)
  simp only [List.map_cons, List.map_nil, List.mem_cons, List.not_mem_nil, or_false] at mem
  cases t with
  | nil =>
    rcases mem with rfl | rfl | rfl
    all_goals exact ⟨fun fits => absurd rfl (fits.1 rfl), fun _ => ⟨_, rfl⟩⟩
  | cons a r =>
    have fits : Key.Fits ⟨name, .text, default, description⟩ (a :: r) :=
      ⟨fun _ => List.cons_ne_nil a r, fun same => absurd same url, fun same => absurd same level⟩
    rcases mem with rfl | rfl | rfl
    all_goals exact ⟨fun _ => ⟨_, rfl, rfl⟩, fun not => absurd fits not⟩

/-- An address has one of three schemes, and loses slashes at its end. -/
theorem url_decides :
    Key.Decides ⟨"toolchain.source_url".toList, .text, default, description⟩ t (.text t) c := by
  have taken : c.assignIn "toolchain".toList "source_url".toList (.text t) =
      (((ToolchainSettings.acceptUrl (.text t)).behind "source_url".toList).map fun x =>
        { c.toolchain with sourceUrl := x }).map fun s => { c with toolchain := s } := rfl
  rw [acceptUrl_text] at taken
  constructor
  · intro fits
    rw [if_pos (fits.2.1 rfl)] at taken
    exact ⟨_, taken, rfl⟩
  · intro not
    rw [if_neg fun scheme => not ⟨nofun, fun _ => scheme, nofun⟩] at taken
    exact ⟨_, taken⟩

/-- A level has one of four names. -/
theorem level_decides :
    Key.Decides ⟨"logging.level".toList, .text, default, description⟩ t (.text t) c := by
  have taken : c.assignIn "logging".toList "level".toList (.text t) =
      (((LoggingSettings.acceptLevel (.text t)).behind "level".toList).map fun x =>
        { c.logging with level := x }).map fun s => { c with logging := s } := rfl
  rw [LoggingSettings.acceptLevel] at taken
  cases level : LogLevel.ofLabel? t with
  | some l =>
    rw [level] at taken
    have label : l.label = t := by
      have found := List.find?_some level
      exact of_decide_eq_true found
    subst label
    exact ⟨fun _ => ⟨_, taken, rfl⟩,
      fun not => absurd ⟨nofun, nofun, fun _ => by rw [level]; rfl⟩ not⟩
  | none =>
    rw [level] at taken
    refine ⟨fun fits => ?_, fun _ => ⟨_, taken⟩⟩
    have known := fits.2.2 rfl
    rw [level] at known
    cases known

end Rules

/-- **The rule of a key's field takes a value just if it fits.** -/
theorem key_decides {k : Key} (mem : k ∈ keys) {t : Text} {v : Value} (takes : k.kind.Takes t v)
    (c : Config) : k.Decides t v c := by
  simp only [keys, List.mem_cons, List.not_mem_nil, or_false] at mem
  rcases mem with
    rfl | rfl | rfl | rfl | rfl | rfl | rfl | rfl | rfl | rfl | rfl | rfl | rfl | rfl |
    rfl | rfl | rfl
  · refine Key.decides_of_free (by decide) (by decide) (by decide) ?_
    rcases takes with rfl | ⟨l, rfl⟩
    · exact ⟨_, rfl, rfl⟩
    · cases l <;> exact ⟨_, rfl, rfl⟩
  · obtain ⟨b, rfl⟩ := takes
    exact Key.decides_of_free (by decide) (by decide) (by decide) ⟨_, rfl, rfl⟩
  · obtain ⟨n, rfl, -⟩ := takes
    exact delay_decides t c _ _ n
  iterate 2
    obtain rfl := takes
    exact Key.decides_of_free (by decide) (by decide) (by decide) ⟨_, rfl, rfl⟩
  iterate 3
    obtain rfl := takes
    exact directory_decides t c _ _ (by decide)
  · obtain rfl := takes
    exact Key.decides_of_free (by decide) (by decide) (by decide) ⟨_, rfl, rfl⟩
  · obtain rfl := takes
    exact url_decides t c _ _
  iterate 3
    obtain rfl := takes
    exact Key.decides_of_free (by decide) (by decide) (by decide) ⟨_, rfl, rfl⟩
  · obtain rfl := takes
    exact level_decides t c _ _
  iterate 2
    obtain ⟨b, rfl⟩ := takes
    exact Key.decides_of_free (by decide) (by decide) (by decide) ⟨_, rfl, rfl⟩
  · obtain rfl := takes
    exact Key.decides_of_free (by decide) (by decide) (by decide) ⟨_, rfl, rfl⟩

end Settings
end ContractCheck
