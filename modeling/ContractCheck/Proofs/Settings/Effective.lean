import ContractCheck.Proofs.Settings.Precedence

/-! # What a change makes of the other settings

A change is made to the settings in effect, the environment's included, and what differs from the
defaults is written.  So the file gives afterwards what was in effect before (`assign_keeps`): a
field that the environment does not give keeps the value that the file alone gave it, and a field
that it does give takes the environment's value into the file.
-/
namespace ContractCheck

namespace Checked

variable {α β : Type}

theorem of_map {f : α → β} {c : Checked α} {b : β} (valid : c.map f = .valid b) :
    ∃ a, c = .valid a ∧ f a = b :=
  map_eq_valid.mp valid

end Checked

/-! ## Assigning a field -/

variable {key : Text} {v : Value}

theorem ValidationSettings.assign_toFields {s r : ValidationSettings}
    (known : key ∈ Fields.keys (toFields {}))
    (assigned : s.assign key v = .valid r) : ∃ w, r.toFields = Fields.put key w s.toFields := by
  simp only [Fields.keys, toFields, List.map_cons, List.map_nil, List.mem_cons, List.not_mem_nil,
    or_false] at known
  rcases known with rfl | rfl | rfl | rfl | rfl | rfl | rfl
  all_goals
    simp +decide only [assign, if_true, if_false] at assigned
    obtain ⟨x, -, rfl⟩ := Checked.of_map assigned
    exact ⟨_, rfl⟩

theorem Layout.assign_toFields {s r : Layout} (known : key ∈ Fields.keys (toFields {}))
    (assigned : s.assign key v = .valid r) : ∃ w, r.toFields = Fields.put key w s.toFields := by
  simp only [Fields.keys, toFields, List.map_cons, List.map_nil, List.mem_cons, List.not_mem_nil,
    or_false] at known
  rcases known with rfl | rfl | rfl | rfl
  all_goals
    simp +decide only [assign, if_true, if_false] at assigned
    obtain ⟨x, -, rfl⟩ := Checked.of_map assigned
    exact ⟨_, rfl⟩

theorem ToolchainSettings.assign_toFields {s r : ToolchainSettings}
    (known : key ∈ Fields.keys (toFields {}))
    (assigned : s.assign key v = .valid r) : ∃ w, r.toFields = Fields.put key w s.toFields := by
  simp only [Fields.keys, toFields, List.map_cons, List.map_nil, List.mem_cons, List.not_mem_nil,
    or_false] at known
  rcases known with rfl | rfl | rfl | rfl | rfl
  all_goals
    simp +decide only [assign, if_true, if_false] at assigned
    obtain ⟨x, -, rfl⟩ := Checked.of_map assigned
    exact ⟨_, rfl⟩

theorem LoggingSettings.assign_toFields {s r : LoggingSettings}
    (known : key ∈ Fields.keys (toFields {}))
    (assigned : s.assign key v = .valid r) : ∃ w, r.toFields = Fields.put key w s.toFields := by
  simp only [Fields.keys, toFields, List.map_cons, List.map_nil, List.mem_cons, List.not_mem_nil,
    or_false] at known
  rcases known with rfl | rfl | rfl | rfl
  all_goals
    simp +decide only [assign, if_true, if_false] at assigned
    obtain ⟨x, -, rfl⟩ := Checked.of_map assigned
    exact ⟨_, rfl⟩

open Settings

/-- **A field that is assigned is the only one that changes.** -/
theorem Config.assignIn_toFields {c r : Config} {name : Text} (mem : name ∈ sections)
    (known : key ∈ (defaultsOf name).keys)
    (assigned : c.assignIn name key v = .valid r) :
    (∃ w, fieldsOf r.toFields name = Fields.put key w (fieldsOf c.toFields name)) ∧
    ∀ other ∈ sections, other ≠ name → fieldsOf r.toFields other = fieldsOf c.toFields other := by
  have each : ∀ {P : Text → Prop}, P "validation".toList → P "layout".toList →
    P "toolchain".toList → P "logging".toList →
      ∀ other ∈ sections, P other := fun first second third fourth =>
    List.forall_mem_cons.mpr ⟨first,
      List.forall_mem_cons.mpr ⟨second, List.forall_mem_cons.mpr ⟨third,
      List.forall_mem_singleton.mpr fourth⟩⟩⟩
  simp only [sections, List.mem_cons, List.not_mem_nil, or_false] at mem
  rcases mem with rfl | rfl | rfl | rfl
  all_goals
    simp +decide only [assignIn, if_true, if_false] at assigned
    obtain ⟨s, taken, rfl⟩ := Checked.of_map assigned
  · exact ⟨ValidationSettings.assign_toFields known taken,
      each (absurd rfl) (fun _ => rfl) (fun _ => rfl) (fun _ => rfl)⟩
  · exact ⟨Layout.assign_toFields known taken,
      each (fun _ => rfl) (absurd rfl) (fun _ => rfl) (fun _ => rfl)⟩
  · exact ⟨ToolchainSettings.assign_toFields known taken,
      each (fun _ => rfl) (fun _ => rfl) (absurd rfl) (fun _ => rfl)⟩
  · exact ⟨LoggingSettings.assign_toFields known taken,
      each (fun _ => rfl) (fun _ => rfl) (fun _ => rfl) (absurd rfl)⟩

namespace Settings

/-- An assigned field is the only one whose value changes. -/
theorem valueIn_assignIn {c r : Config} {k : Key} (mem : k ∈ keys) {s : Setting}
    (listed : s ∈ Setting.all) (other : (s.section_, s.key) ≠ (k.sectionName, k.field))
    (assigned : c.assignIn k.sectionName k.field v = .valid r) :
    s.valueIn r = s.valueIn c := by
  obtain ⟨-, named, known⟩ := key_path mem
  obtain ⟨⟨w, here⟩, others⟩ := Config.assignIn_toFields named known assigned
  unfold Setting.valueIn
  by_cases own : s.section_ = k.sectionName
  · have strange : s.key ≠ k.field := fun same => other (by rw [own, same])
    rw [own, here, Fields.get?_put_of_ne _ _ strange]
  · rw [others s.section_ (Setting.names_spelled s listed).1 own]

/-! ## What is written -/

theorem fieldsOf_savedFields (config : Fields) {name : Text} (mem : name ∈ sections) :
    fieldsOf (savedFields config) name =
      changedFields (defaultsOf name) (fieldsOf config name) := by
  rw [fieldsOf, get?_savedFields config mem]
  split
  · next nothing => exact nothing.symm
  · rfl

theorem defaults_single : ∀ name ∈ sections, (defaultsOf name).keys.Nodup := by decide

/-- **A file holds of a configuration just what is no default.** -/
theorem get?_written {config : Fields} (shape : ShapedConfig config) {s : Setting}
    (listed : s ∈ Setting.all) {c : Config}
    (same : (fieldsOf config s.section_).get? s.key = s.valueIn c) :
    (s.valueIn c = s.valueIn {} → (fieldsOf (savedFields config) s.section_).get? s.key = none) ∧
    (s.valueIn c ≠ s.valueIn {} → (fieldsOf (savedFields config) s.section_).get? s.key =
      s.valueIn c) := by
  have mem := (Setting.field_of_section listed).1
  obtain ⟨fs, here, shaped⟩ := shape s.section_ mem
  have single : (Fields.keys fs).Nodup := by
    rw [shaped.keys_eq]
    exact defaults_single s.section_ mem
  obtain ⟨d, default⟩ : ∃ d, (defaultsOf s.section_).get? s.key = some d :=
    Option.isSome_iff_exists.mp (Fields.isSome_get?.mpr (Setting.field_of_section listed).2)
  obtain ⟨v, value, kin⟩ := shaped.get? default
  have fallback : s.valueIn {} = some d := default
  rw [fieldsOf_savedFields config mem, fieldsOf_eq here, changedFields_eq,
    Fields.get?_filter single, value, fallback]
  rw [fieldsOf_eq here, value] at same
  rw [← same, Option.filter_some]
  constructor
  · intro equal
    rw [(kept_eq_false default kin).mpr (Option.some.inj equal)]
    rfl
  · intro different
    rw [if_pos (Bool.not_eq_false _ ▸ fun left =>
      different (congrArg some ((kept_eq_false default kin).mp left)))]

/-! ## What is loaded -/

variable {h h₁ h' : Host} {start : Option Text} {loaded before : Loaded} {name t path : Text}
  {e : Environment}

/-- A search does not look at the environment. -/
theorem FoundAgain.elsewhere (again : FoundAgain start path h) (e : Environment) :
    FoundAgain start path { h with environment := e } := by
  intro g calm
  -- The same host with the first environment: it is searched alike.
  obtain ⟨g', searched, -⟩ := again { g with environment := h.environment }
    ⟨calm.files, calm.cwd, rfl, calm.locale, calm.unfiled⟩
  have twins : Host.Twins (fun _ => False) g.cwd { g with environment := h.environment } g :=
    ⟨calm.unfiled, calm.unfiled, rfl, rfl, .refl _⟩
  have looked := find_agrees start (P := fun _ => False) (fun _ => id) _ g twins
  rw [searched] at looked
  exact ⟨((find start).perform g).2, Prod.ext looked.1 rfl, looked.2.2⟩

/-- **A field that the environment does not give is loaded as the file alone gives it.** -/
theorem load_silent (unfiled : h.Unfiled) (loads : (load none start).perform h = (.ok loaded, h₁))
    (quiet : Quiet e)
    (alone : ((load none start).perform { h with environment := e }).1 = .ok before) :
    ∃ given, fromEnvironment? h.environment = some given ∧
    ∀ s ∈ Setting.all, (∀ n ∈ s.names, (fieldsOf given s.section_).get? n = none) →
      s.valueIn loaded.config = s.valueIn before.config := by
  obtain ⟨base, given, layered, found, read⟩ := load_reads loads
  have alone : (load none start).perform { h with environment := e } =
    (.ok before, _) := Prod.ext alone rfl
  obtain ⟨base', given', layered', found', read'⟩ := load_reads alone
  obtain rfl : given' = [] := by
    have nothing : fromEnvironment? e = some [] := fromEnvironment?_quiet quiet
    exact Option.some.inj (found'.symm.trans nothing)
  -- Both see the same file.
  have same := (layer_agrees start h { h with environment := e } ⟨unfiled, unfiled, rfl,
    rfl, .refl _⟩).1
  rw [layered, layered'] at same
  obtain rfl := Except.ok.inj same
  refine ⟨given, found, fun s mem silent => ?_⟩
  obtain ⟨reads, tables⟩ := Config.read_settings read
  have listed := (Setting.names_spelled s mem).1
  obtain ⟨-, laid⟩ := get?_fieldsOf_overlay found listed (tables s.section_ listed)
  obtain ⟨v, value, settled⟩ := reads s mem
  obtain ⟨v', value', settled'⟩ := (Config.read_settings read').1 s mem
  have file : s.pick (fieldsOf (overlay base'.fields given) s.section_) =
    s.pick (fieldsOf base'.fields s.section_) := by
    have each : ∀ n ∈ s.names, (fieldsOf (overlay base'.fields given) s.section_).get? n =
        (fieldsOf base'.fields s.section_).get? n := by
      intro n named
      rw [laid, Setting.layered, silent n named]
    unfold Setting.pick
    rw [each s.key List.mem_cons_self]
    congr 1
    funext _
    exact Option.bind_congr fun o other =>
      each o (List.mem_cons_of_mem _ (Option.mem_toList.mpr other))
  rw [overlay] at settled'
  rw [file, settled'] at settled
  have value : s.valueIn loaded.config = some v := value
  rw [value, ← Checked.valid.inj settled]
  exact value'.symm

/-- **A change writes the settings in effect**: of the other fields, the file holds just those that
are in effect no defaults, and gives them their values when it is loaded alone.  So the fields that
the environment does not give keep the values that the file alone gave them. -/
theorem assign_keeps (unfiled : h.Unfiled) (universal : Universal h)
    (legible : h.files.locked (FileSystem.placeOf h.cwd (fileIn (baseOf start h))) = false)
    (loads : (load none start).perform h = (.ok loaded, h₁)) (sound : loaded.error = none)
    (stable : Config.read loaded.config.toValue = .valid loaded.config)
    (settable : SettableConfig loaded.config.toFields)
    (clean : ∀ k, key? name = some k → k.kind = .text → Toml.Clean t)
    (done : (assign name t start).perform h = (.ok (path, v), h'))
    (quiet : Quiet e) (alone : ((load none start).perform { h with environment := e }).1 =
      .ok before) :
    ∃ k given fs, key? name = some k ∧ fromEnvironment? h.environment = some given ∧
    (∃ bytes, h'.files.read h'.cwd path = .ok bytes ∧ Toml.readBytes bytes = .ok fs) ∧
    (∀ s ∈ Setting.all, (s.section_, s.key) ≠ (k.sectionName, k.field) →
      (s.valueIn loaded.config = s.valueIn {} → (fieldsOf fs s.section_).get? s.key = none) ∧
      (s.valueIn loaded.config ≠ s.valueIn {} →
        (fieldsOf fs s.section_).get? s.key = s.valueIn loaded.config)) ∧
    (k.Fits t → ∃ after, ((load none start).perform { h' with environment := e }).1 = .ok after ∧
      Value.getKey name after.config.toValue = some (k.settled v) ∧
      ∀ s ∈ Setting.all, (s.section_, s.key) ≠ (k.sectionName, k.field) →
        s.valueIn after.config = s.valueIn loaded.config ∧
        ((∀ n ∈ s.names, (fieldsOf given s.section_).get? n = none) →
          s.valueIn after.config = s.valueIn before.config)) ∧
    (¬ k.Fits t → ∃ issues, ((load none start).perform { h' with environment := e }).1 =
      .error (.invalid issues)) := by
  obtain ⟨k, config, known, takes, changed, own, unfiled', -, again, read⟩ :=
    assign_writes unfiled universal legible loads sound settable clean done
  obtain ⟨mem, named⟩ := key?_some known
  obtain ⟨fits, unfit⟩ := key_decides mem takes loaded.config
  rw [named] at fits
  obtain ⟨given, found, silent⟩ := load_silent unfiled loads quiet alone
  have shape := changed.shaped mem takes
  have settable' := changed.settable takes settable (clean k known)
  have result := load_foundAgain (again.elsewhere e) unfiled' shape settable' quiet own read
  refine ⟨k, given, savedFields config, known, found,
    ⟨_, read, read_fileText shape settable'.writable⟩, ?_, ?_, ?_⟩
  · intro s listed other
    refine get?_written shape listed ?_
    unfold Setting.valueIn
    by_cases same : s.section_ = k.sectionName
    · have strange : s.key ≠ k.field := fun equal => other (by rw [same, equal])
      rw [same, fieldsOf_eq changed.here, Fields.get?_put_of_ne _ _ strange]
    · rw [fieldsOf, changed.others s.section_ (Setting.names_spelled s listed).1 same]
      rfl
  · intro fit
    obtain ⟨c, assigned, value⟩ := fits fit
    rcases Checked.cases_of_toOption (changed.read mem stable) with
      ⟨c', whole, taken⟩ | ⟨issues, e', -, refused⟩
    · obtain rfl := Checked.valid.inj (taken.symm.trans assigned)
      rw [whole] at result
      refine ⟨_, result, value, fun s listed other => ?_⟩
      have kept : s.valueIn c' = s.valueIn loaded.config := valueIn_assignIn mem listed other taken
      exact ⟨kept, fun unnamed => kept.trans (silent s listed unnamed)⟩
    · cases refused.symm.trans assigned
  · intro unfitting
    obtain ⟨issues, refused⟩ := unfit unfitting
    rcases Checked.cases_of_toOption (changed.read mem stable) with
      ⟨c', -, taken⟩ | ⟨issues', e', whole, -⟩
    · cases taken.symm.trans refused
    · rw [whole] at result
      exact ⟨issues', result⟩

/-- An empty project where the environment gives the level of the log. -/
def debuggedProject (e : Environment) : Host := { emptyProject with environment := e }

/-- The level in the environment. -/
def debugVariable : Environment := [("SOLCHECK_LOGGING__LEVEL".toList, "debug".toList)]

/-- What is written when the directory for builds is set there. -/
def debuggedText : Text := "[layout]\nbuild_dir = \"out\"\n\n[logging]\nlevel = \"debug\"\n".toList

/-- That project when the directory for builds was set. -/
def debuggedAfter (e : Environment) : Host :=
  { files := { entries := [([directoryName], .directory),
      ([directoryName, fileName], .file (Utf8.encode debuggedText) .plain)] }
    environment := e }

theorem debuggedProject_load : (load none none).perform (debuggedProject debugVariable) =
    (.ok { config := { logging := { level := .debug } } }, debuggedProject debugVariable) := by
  have low : lowerNames debugVariable = [("solcheck_logging__level".toList, "debug".toList)] := by
    decide
  have given : fromEnvironment? debugVariable =
    some [("logging".toList, .table [("level".toList, .text "debug".toList)])] := by
    rw [fromEnvironment?, low]
    rfl
  have layered : (layer none none).perform (debuggedProject debugVariable) =
    (.ok {}, debuggedProject debugVariable) := rfl
  exact load_of_layers given layered layered

theorem debuggedProject_alone :
    (load none none).perform (debuggedProject []) = (.ok { config := {} }, debuggedProject []) := by
  rfl

theorem debuggedProject_assign :
    (assign "layout.build_dir".toList "out".toList none).perform (debuggedProject debugVariable) =
    (.ok ("/.solcheck/config.toml".toList, .text "out".toList), debuggedAfter debugVariable) := by
  rfl

theorem debuggedAfter_alone : (load none none).perform (debuggedAfter []) =
    (.ok { config := { layout := { build := "out".toList }, logging := { level := .debug } }
           file := some "/.solcheck/config.toml".toList }, debuggedAfter []) := by
  have parsed : Toml.readBytes (Utf8.encode debuggedText) = .ok
      [("layout".toList, .table [("build_dir".toList, .text "out".toList)]),
       ("logging".toList, .table [("level".toList, .text "debug".toList)])] := by cbv
  have found : (find none).perform (debuggedAfter []) =
    (.ok (some "/.solcheck/config.toml".toList), debuggedAfter []) := by cbv
  have layered : (readLayer "/.solcheck/config.toml".toList).perform (debuggedAfter []) = _ :=
    readLayer_file rfl parsed (by decide)
  have whole : (layer none none).perform (debuggedAfter []) = _ :=
    (Action.perform_bind_ok found).trans layered
  exact load_of_layers rfl whole whole

/-- The directory for builds is set in a project where the environment gives the level of the
log. -/
theorem build_directory_set : ∃ k given fs, key? "layout.build_dir".toList = some k ∧
    fromEnvironment? debugVariable = some given ∧
    (∃ bytes, (debuggedAfter debugVariable).files.read [] "/.solcheck/config.toml".toList =
      .ok bytes ∧
      Toml.readBytes bytes = .ok fs) ∧
    (∀ s ∈ Setting.all, (s.section_, s.key) ≠ (k.sectionName, k.field) →
      (s.valueIn { logging := { level := .debug } } = s.valueIn {} →
        (fieldsOf fs s.section_).get? s.key = none) ∧
      (s.valueIn { logging := { level := .debug } } ≠ s.valueIn {} →
        (fieldsOf fs s.section_).get? s.key = s.valueIn { logging := { level := .debug } })) ∧
    (k.Fits "out".toList → ∃ after, ((load none none).perform (debuggedAfter [])).1 = .ok after ∧
      Value.getKey "layout.build_dir".toList after.config.toValue =
        some (k.settled (.text "out".toList)) ∧
      ∀ s ∈ Setting.all, (s.section_, s.key) ≠ (k.sectionName, k.field) →
        s.valueIn after.config = s.valueIn { logging := { level := .debug } } ∧
        ((∀ n ∈ s.names, (fieldsOf given s.section_).get? n = none) →
          s.valueIn after.config = s.valueIn {})) ∧
    (¬ k.Fits "out".toList → ∃ issues, ((load none none).perform (debuggedAfter [])).1 =
      .error (.invalid issues)) :=
  have settable : SettableConfig (Config.toFields { logging := { level := .debug } }) := by
    decide +kernel
  have quiet : Quiet [] := fun _ inside => absurd inside List.not_mem_nil
  have unfiled : (debuggedProject debugVariable).Unfiled := trivial
  have legible : (debuggedProject debugVariable).files.locked
      (FileSystem.placeOf [] (fileIn (baseOf none (debuggedProject debugVariable)))) = false := by
      decide +kernel
  assign_keeps unfiled (fun _ => rfl) legible debuggedProject_load rfl rfl settable
  (fun _ _ _ => by decide)
    debuggedProject_assign quiet (congrArg Prod.fst debuggedProject_alone)

/-- **A value that only the environment gives comes into the file** when another field is set: the
file alone gave the default level before, and gives the environment's afterwards. -/
theorem environment_level_written : ∃ before after h',
    ((load none none).perform (debuggedProject [])).1 = .ok before ∧
    (assign "layout.build_dir".toList "out".toList none).perform (debuggedProject debugVariable) =
      (.ok ("/.solcheck/config.toml".toList, .text "out".toList), h') ∧
    ((load none none).perform { h' with environment := [] }).1 = .ok after ∧
    before.config.logging.level = .warning ∧ after.config.logging.level = .debug :=
  ⟨_, _, _, congrArg Prod.fst debuggedProject_alone, debuggedProject_assign,
    congrArg Prod.fst debuggedAfter_alone, rfl, rfl⟩

end Settings
end ContractCheck
