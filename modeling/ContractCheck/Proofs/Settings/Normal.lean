import ContractCheck.Proofs.Settings.Accepted
import ContractCheck.Proofs.Text.Pieces
import Mathlib.Data.List.DropRight

/-! # Settings that are read again

Reading settings makes of every value what its field keeps: a linter's name in lower case, a number
for a text, an empty table for no rules.  What is kept is taken again as it is, with one exception:
an address is looked at before the slashes at its end are taken off, and of an address without a
host nothing is left that could be taken (`Config.read_toValue`).
-/
namespace ContractCheck

namespace Fields

variable {α : Type} {fs : Fields} {key other : Text} {v : Value} {default x : α}
  {accept : Value → Checked α}

theorem optional_given (here : fs.get? key = some v) :
    fs.optional key default accept = (accept v).behind key := by
  rw [optional, here]

theorem optional_of_get? (here : fs.get? key = some v) (taken : accept v = .valid x) :
    fs.optional key default accept = .valid x :=
  (optional_given here).trans (Checked.behind_eq_valid.mpr taken)

theorem spelled_of_get? (here : fs.get? key = some v) (taken : accept v = .valid x) :
    fs.spelled key other default accept = .valid x := by
  rw [spelled, here]
  exact Checked.behind_eq_valid.mpr taken

end Fields

/-! ## What rules make of a value -/

namespace Accept

variable {α : Type}

/-- A rule that takes what it made of a value as it is. -/
def Settles (accept : Value → Checked α) (shown : α → Value) : Prop :=
  ∀ v x, accept v = .valid x → accept (shown x) = .valid x

variable {accept : Value → Checked α} {shown : α → Value}

theorem Settles.optional (settles : Settles accept shown) {fs : Fields} {key : Text} {default x : α}
    (own : accept (shown default) = .valid default)
    (read : fs.optional key default accept = .valid x) :
    accept (shown x) = .valid x := by
  unfold Fields.optional at read
  split at read
  · next v _ => exact settles v x (Checked.behind_eq_valid.mp read)
  · rwa [← Checked.valid.inj read]

theorem Settles.spelled (settles : Settles accept shown) {fs : Fields} {key other : Text}
    {default x : α} (own : accept (shown default) = .valid default)
    (read : fs.spelled key other default accept = .valid x) :
    accept (shown x) = .valid x := by
  unfold Fields.spelled at read
  split at read
  · next v _ => exact settles v x (Checked.behind_eq_valid.mp read)
  · exact settles.optional own read

/-- A rule whose values are shown as they are taken settles at once. -/
theorem Settles.of_shown (own : ∀ x, accept (shown x) = .valid x) : Settles accept shown :=
  fun _ x _ => own x

theorem boolean_settles : Settles lenientBoolean .bool := .of_shown fun _ => rfl

theorem text_settles : Settles text .text := .of_shown fun _ => rfl

theorem natural_settles : Settles lenientNatural fun n => .int n :=
  .of_shown Settings.lenientNatural_nat

theorem orNull_settles : Settles (orNull text) fun t => match t with
    | some t => .text t | none => .null :=
  .of_shown fun t => by cases t <;> rfl

theorem nonEmpty_settles : Settles nonEmpty .text := by
  intro v t read
  cases v with
  | text u =>
    have taken : nonEmpty (.text u) = if u.isEmpty then .fail .tooShort else .valid u := rfl
    rw [taken] at read
    split at read
    · cases read
    · next given =>
      obtain rfl := Checked.valid.inj read
      rw [taken, if_neg given]
  | _ => cases read

end Accept

open Accept (Settles)

namespace ValidationSettings

theorem acceptLinter_settles :
    Settles acceptLinter fun l => match l with | some l => .text l.label | none => .null :=
  .of_shown fun l => by rcases l with _ | _ | _ <;> rfl

theorem acceptRules_settles : Settles acceptRules .table := by
  intro v rules _
  unfold acceptRules
  cases rules <;> rfl

theorem read_settles : Settles read fun s => .table s.toFields := by
  intro v s read
  cases v with
  | table fs =>
    simp only [ValidationSettings.read, Value.record, Checked.seq_eq_valid,
      Checked.map_eq_valid] at read
    obtain ⟨_, _, ⟨_, _, ⟨_, _, ⟨_, _, ⟨_, _, ⟨_, _, ⟨_, h₁, rfl⟩, h₂, rfl⟩, h₃, rfl⟩, h₄, rfl⟩,
      h₅, rfl⟩, h₆, rfl⟩, h₇, rfl⟩ :=
      read
    simp only [ValidationSettings.read, Value.record]
    rw [Fields.optional_of_get? rfl (acceptLinter_settles.optional rfl h₁),
      Fields.spelled_of_get? rfl (Accept.boolean_settles.spelled rfl h₂),
      Fields.spelled_of_get? rfl (acceptRules_settles.spelled rfl h₃),
      Fields.spelled_of_get? rfl (acceptRules_settles.spelled rfl h₄),
      Fields.spelled_of_get? rfl (Accept.natural_settles.spelled rfl h₅),
      Fields.spelled_of_get? rfl (Accept.text_settles.spelled rfl h₆),
      Fields.spelled_of_get? rfl (Accept.text_settles.spelled rfl h₇)]
    rfl
  | _ => cases read

end ValidationSettings

namespace Layout

theorem acceptMarker_settles : Settles acceptMarker .text := by
  intro v t read
  have given : Accept.nonEmpty v = .valid t ∧ t.length ≤ 1 := by
    unfold acceptMarker at read
    cases nonEmpty : Accept.nonEmpty v with
    | invalid e => rw [nonEmpty] at read; cases read
    | valid u =>
      rw [nonEmpty, Checked.andThen] at read
      split at read
      · next short => exact Checked.valid.inj read ▸ ⟨rfl, short⟩
      · cases read
  unfold acceptMarker
  rw [Accept.nonEmpty_settles v t given.1, Checked.andThen, if_pos given.2]

theorem read_settles : Settles read fun l => .table l.toFields := by
  intro v l read
  cases v with
  | table fs =>
    simp only [Layout.read, Value.record, Checked.seq_eq_valid, Checked.map_eq_valid] at read
    obtain ⟨_, _, ⟨_, _, ⟨_, _, ⟨_, h₁, rfl⟩, h₂, rfl⟩, h₃, rfl⟩, h₄, rfl⟩ := read
    simp only [Layout.read, Value.record]
    rw [Fields.optional_of_get? rfl (Accept.nonEmpty_settles.optional rfl h₁),
      Fields.optional_of_get? rfl (Accept.nonEmpty_settles.optional rfl h₂),
      Fields.optional_of_get? rfl (Accept.nonEmpty_settles.optional rfl h₃),
      Fields.optional_of_get? rfl (acceptMarker_settles.optional rfl h₄)]
    rfl
  | _ => cases read

end Layout

namespace LoggingSettings

theorem acceptLevel_settles : Settles acceptLevel fun l => .text l.label :=
  .of_shown fun l => by cases l <;> rfl

theorem read_settles : Settles read fun s => .table s.toFields := by
  intro v s read
  cases v with
  | table fs =>
    simp only [LoggingSettings.read, Value.record, Checked.seq_eq_valid,
      Checked.map_eq_valid] at read
    obtain ⟨_, _, ⟨_, _, ⟨_, _, ⟨_, h₁, rfl⟩, h₂, rfl⟩, h₃, rfl⟩, h₄, rfl⟩ := read
    simp only [LoggingSettings.read, Value.record]
    rw [Fields.optional_of_get? rfl (acceptLevel_settles.optional rfl h₁),
      Fields.optional_of_get? rfl (Accept.boolean_settles.optional rfl h₂),
      Fields.optional_of_get? rfl (Accept.boolean_settles.optional rfl h₃),
      Fields.optional_of_get? rfl (Accept.orNull_settles.optional rfl h₄)]
    rfl
  | _ => cases read

end LoggingSettings

/-! ## Addresses -/

namespace ToolchainSettings

/-- What is left of an address that is a scheme and slashes. -/
def bareSchemes : List Text := ["http:".toList, "https:".toList, "file:".toList]

/-- Whether an address is a scheme and slashes alone. -/
def Bare (address : Text) : Prop := Text.dropEndWhile (· == '/') address ∈ bareSchemes

instance (address : Text) : Decidable (Bare address) :=
  inferInstanceAs (Decidable (_ ∈ bareSchemes))

theorem default_whole : "https://binaries.tonlabs.io".toList ∉ bareSchemes := by decide

theorem dropEndWhile_front (p : Char → Bool) (front r : Text) : Text.dropEndWhile p (front ++ r) =
      if Text.dropEndWhile p r = [] then Text.dropEndWhile p front
      else front ++ Text.dropEndWhile p r := by
  simp only [Text.dropEndWhile, List.reverse_append, List.dropWhile_append, List.isEmpty_iff,
    List.reverse_eq_nil_iff]
  split
  · rfl
  · rw [List.reverse_append, List.reverse_reverse]

theorem dropEndWhile_twice (p : Char → Bool) (t : Text) :
    Text.dropEndWhile p (Text.dropEndWhile p t) = Text.dropEndWhile p t :=
  List.rdropWhile_idempotent p t

/-- An address is looked at as it shows. -/
theorem acceptUrl_shown {v : Value} {address : Text} (taken : acceptUrl v = .valid address) :
    ∃ t, acceptUrl (.text t) = .valid address ∧
      (v = .text t ∨ ∃ s : Broken, v = .broken s ∧ t = s.points.shown) := by
  cases v with
  | text t => exact ⟨t, taken, .inl rfl⟩
  | broken s => exact ⟨s.points.shown, taken, .inr ⟨s, rfl, rfl⟩⟩
  | _ => cases taken

/-- What is kept of an address that was taken. -/
theorem acceptUrl_kept {t address : Text} (taken : acceptUrl (.text t) = .valid address) :
    address = Text.dropEndWhile (· == '/') t := by
  rw [Settings.acceptUrl_text] at taken
  split at taken
  · exact (Checked.valid.inj taken).symm
  · cases taken

/-- An address that is no text is more than a scheme and slashes. -/
theorem broken_whole (s : Broken) : ¬ Bare s.points.shown := by
  intro bare
  have plain : ∀ scheme ∈ bareSchemes, '\ufffd' ∉ scheme := by decide
  have split : s.points.shown = Text.dropEndWhile (· == '/') s.points.shown ++
      s.points.shown.rtakeWhile (· == '/') := (List.rdropWhile_append_rtakeWhile ..).symm
  have inside := s.replaced
  rw [split] at inside
  rcases List.mem_append.mp inside with front | trail
  · exact plain _ bare front
  · exact absurd (List.mem_rtakeWhile_imp trail) (by decide)

/-- **An address that was taken is taken again as it is**, but one that is a scheme and slashes
alone is not. -/
theorem acceptUrl_again {v : Value} {address : Text} (taken : acceptUrl v = .valid address) :
    acceptUrl (.text address) =
      if address ∈ bareSchemes then .fail .refused else .valid address := by
  have refused : ∀ t ∈ bareSchemes, acceptUrl (.text t) = .fail .refused := by
    exact List.forall_mem_cons.mpr
      ⟨rfl, List.forall_mem_cons.mpr ⟨rfl, List.forall_mem_singleton.mpr rfl⟩⟩
  obtain ⟨t, taken, -⟩ := acceptUrl_shown taken
  rw [Settings.acceptUrl_text] at taken
  split at taken
  · next scheme =>
    obtain rfl := Checked.valid.inj taken
    -- Whatever the scheme is, it stays unless nothing but slashes is behind it.
    have kept : Text.dropEndWhile (· == '/') t ∈ bareSchemes ∨
        ("http://".toList <+: Text.dropEndWhile (· == '/') t ∨
          "https://".toList <+: Text.dropEndWhile (· == '/') t ∨
          "file://".toList <+: Text.dropEndWhile (· == '/') t) := by
      have each : ∀ lead : Text, Text.dropEndWhile (· == '/') lead ∈ bareSchemes → lead <+: t →
          Text.dropEndWhile (· == '/') t ∈ bareSchemes ∨
          lead <+: Text.dropEndWhile (· == '/') t := by
        rintro lead bare ⟨r, rfl⟩
        rw [dropEndWhile_front]
        split
        · exact .inl bare
        · exact .inr (List.prefix_append _ _)
      rcases scheme with lead | lead | lead
      · exact (each _ (by decide) lead).imp_right .inl
      · exact (each _ (by decide) lead).imp_right fun h => .inr (.inl h)
      · exact (each _ (by decide) lead).imp_right fun h => .inr (.inr h)
    split
    · next bare => exact refused _ bare
    · next whole =>
      rw [Settings.acceptUrl_text, if_pos (kept.resolve_left whole), dropEndWhile_twice]
  · cases taken

theorem address_again {fs : Fields} {address : Text}
    (read : fs.optional "source_url".toList "https://binaries.tonlabs.io".toList acceptUrl =
      .valid address) :
    acceptUrl (.text address) =
      if address ∈ bareSchemes then .fail .refused else .valid address := by
  unfold Fields.optional at read
  split at read
  · exact acceptUrl_again (Checked.behind_eq_valid.mp read)
  · obtain rfl := Checked.valid.inj read
    rfl

theorem read_again {v : Value} {s : ToolchainSettings} (read : read v = .valid s) :
    ToolchainSettings.read (.table s.toFields) =
      if s.sourceUrl ∈ bareSchemes then .invalid [⟨["source_url".toList], .refused⟩]
      else .valid s := by
  cases v with
  | table fs =>
    simp only [ToolchainSettings.read, Value.record, Checked.seq_eq_valid,
      Checked.map_eq_valid] at read
    obtain ⟨_, _, ⟨_, _, ⟨_, _, ⟨_, address, ⟨_, h₁, rfl⟩, h₂, rfl⟩, h₃, rfl⟩, h₄, rfl⟩, h₅, rfl⟩ :=
      read
    have own := address_again h₂
    simp only [ToolchainSettings.read, Value.record]
    rw [Fields.optional_of_get? rfl (Accept.orNull_settles.optional rfl h₁),
      Fields.optional_of_get? rfl (Accept.text_settles.optional rfl h₃),
      Fields.optional_of_get? rfl (Accept.text_settles.optional rfl h₄),
      Fields.optional_of_get? rfl (Accept.text_settles.optional rfl h₅)]
    split
    · next bare =>
      rw [if_pos bare] at own
      rw [(Fields.optional_given rfl : Fields.optional _ _ _ acceptUrl = _), own]
      rfl
    · next whole =>
      rw [if_neg whole] at own
      rw [Fields.optional_of_get? rfl own]
      rfl
  | _ => cases read

theorem section_again {fs : Fields} {s : ToolchainSettings}
    (read : fs.optional "toolchain".toList {} ToolchainSettings.read = .valid s) :
    ToolchainSettings.read (.table s.toFields) =
      if s.sourceUrl ∈ bareSchemes then .invalid [⟨["source_url".toList], .refused⟩]
      else .valid s := by
  unfold Fields.optional at read
  split at read
  · exact read_again (Checked.behind_eq_valid.mp read)
  · obtain rfl := Checked.valid.inj read
    rfl

/-- Whether a value gives an address that is a scheme and slashes alone shows in what is kept. -/
theorem bare_iff {v : Value} {s : ToolchainSettings} (read : read v = .valid s) :
    (∃ address, Value.getIn ["source_url".toList] v = some (.text address) ∧ Bare address) ↔
    s.sourceUrl ∈ bareSchemes := by
  cases v with
  | table fs =>
    simp only [ToolchainSettings.read, Value.record, Checked.seq_eq_valid,
      Checked.map_eq_valid] at read
    obtain ⟨_, _, ⟨_, _, ⟨_, _, ⟨_, address, ⟨_, h₁, rfl⟩, h₂, rfl⟩, h₃, rfl⟩, h₄, rfl⟩, h₅, rfl⟩ :=
      read
    simp only [Value.getIn]
    unfold Fields.optional at h₂
    cases given : Fields.get? fs "source_url".toList with
    | none =>
      rw [given] at h₂
      obtain rfl := Checked.valid.inj h₂
      refine ⟨?_, fun bare => absurd bare default_whole⟩
      rintro ⟨_, absent, -⟩
      cases absent
    | some u =>
      rw [given] at h₂
      obtain ⟨t, taken, shape⟩ := acceptUrl_shown (Checked.behind_eq_valid.mp h₂)
      obtain rfl := acceptUrl_kept taken
      rcases shape with rfl | ⟨s, rfl, rfl⟩
      · constructor
        · rintro ⟨_, same, bare⟩
          obtain rfl := Value.text.inj (Option.some.inj same)
          exact bare
        · exact fun bare => ⟨t, rfl, bare⟩
      · refine ⟨?_, fun bare => absurd bare (broken_whole s)⟩
        rintro ⟨_, same, -⟩
        cases same
  | _ => cases read

end ToolchainSettings

/-! ## Configurations -/

namespace Config

variable {v : Value} {c : Config}

/-- Whether a value gives the toolchain an address that is a scheme and slashes alone. -/
def GivesBare (v : Value) : Prop :=
  ∃ address, Value.getIn ["toolchain".toList, "source_url".toList] v = some (.text address) ∧
    ToolchainSettings.Bare address

theorem givesBare_iff (read : read v = .valid c) :
    GivesBare v ↔ c.toolchain.sourceUrl ∈ ToolchainSettings.bareSchemes := by
  cases v with
  | table fs =>
    simp only [Config.read, Value.record, Checked.seq_eq_valid, Checked.map_eq_valid] at read
    obtain ⟨_, _, ⟨_, toolchain, ⟨_, _, ⟨_, _, rfl⟩, _, rfl⟩, h₃, rfl⟩, _, rfl⟩ := read
    unfold Fields.optional at h₃
    unfold GivesBare Value.getIn
    cases given : Fields.get? fs "toolchain".toList with
    | none =>
      rw [given] at h₃
      obtain rfl := Checked.valid.inj h₃
      refine ⟨?_, fun bare => absurd bare ToolchainSettings.default_whole⟩
      rintro ⟨_, absent, -⟩
      cases absent
    | some w =>
      rw [given] at h₃
      exact ToolchainSettings.bare_iff (Checked.behind_eq_valid.mp h₃)
  | _ => cases read

/-- **What was read is read again as it is**, but for an address that is a scheme and slashes alone:
that one is refused when it is read again, and nothing else is. -/
theorem read_toValue (read : read v = .valid c) :
    (¬ GivesBare v → Config.read c.toValue = .valid c) ∧
    (GivesBare v → Config.read c.toValue =
      .invalid [⟨["toolchain".toList, "source_url".toList], .refused⟩]) := by
  rw [givesBare_iff read]
  cases v with
  | table fs =>
    simp only [Config.read, Value.record, Checked.seq_eq_valid, Checked.map_eq_valid] at read
    obtain ⟨_, _, ⟨_, toolchain, ⟨_, _, ⟨_, h₁, rfl⟩, h₂, rfl⟩, h₃, rfl⟩, h₄, rfl⟩ := read
    have validation := ValidationSettings.read_settles.optional rfl h₁
    have layout := Layout.read_settles.optional rfl h₂
    have logging := LoggingSettings.read_settles.optional rfl h₄
    have address := ToolchainSettings.section_again h₃
    simp only [Config.read, Config.toValue, Value.record]
    rw [Fields.optional_of_get? rfl validation, Fields.optional_of_get? rfl layout,
      (Fields.optional_given rfl : Fields.optional _ _ _ ToolchainSettings.read = _), address,
      Fields.optional_of_get? rfl logging]
    exact ⟨fun whole => by rw [if_neg whole]; rfl, fun bare => by rw [if_pos bare]; rfl⟩
  | _ => cases read

/-- Settings in the forms that editors and older files use. -/
def olderForms : Value :=
  .table [("validation".toList, .table [("linter".toList, .bool true),
      ("validationDelay".toList, .text " 3_00.0 ".toList),
      ("solium_rules".toList, .null),
      ("enabledAsYouTypeCompilationErrorCheck".toList, .text "OFF".toList)]),
    ("toolchain".toList, .table [("source_url".toList, .text "file:///mirror//".toList),
      ("unknown".toList, .int 1)])]

/-- What older forms come to. -/
def olderConfig : Config :=
  { validation := { linter := some .solhint, asYouType := false, delay := 300 }
    toolchain := { sourceUrl := "file:///mirror".toList } }

/-- What older forms come to is read again as it is. -/
theorem olderForms_read_again :
    Config.read olderForms = .valid olderConfig ∧
    Config.read olderConfig.toValue = .valid olderConfig := by
  have read : Config.read olderForms = .valid olderConfig := rfl
  refine ⟨read, (read_toValue read).1 ?_⟩
  rintro ⟨address, given, bare⟩
  obtain rfl := Value.text.inj (Option.some.inj given)
  exact absurd bare (by decide)

/-- An address that is a scheme and slashes is taken, and what is kept of it is refused. -/
theorem slashes_refused : ∃ c,
    Config.read (.table [("toolchain".toList,
      .table [("source_url".toList, .text "http://".toList)])]) = .valid c ∧
    Config.read c.toValue = .invalid [⟨["toolchain".toList, "source_url".toList], .refused⟩] :=
  ⟨_, rfl, rfl⟩

end Config
end ContractCheck
