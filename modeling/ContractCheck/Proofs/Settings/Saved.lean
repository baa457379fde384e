import ContractCheck.Proofs.FileSystem.Standing
import ContractCheck.Proofs.Host.Performing
import ContractCheck.Proofs.Settings.Defaults
import ContractCheck.Proofs.Text.Encoding
import ContractCheck.Proofs.Toml.Documents

/-! # Settings that are saved and loaded again

A configuration is saved as a document of tables, and a document of tables is read as it was
written.  So loading the file that was saved gives what the whole configuration says (`load_saved`),
and a configuration that its own rules accept comes back unchanged (`load_save`).
-/
namespace ContractCheck.Settings

open Toml (Bare Writable WritableTable tableLines)

variable {config : Fields} {h : Host} {path : Text}

/-! ## The file -/

/-- The text of a file. -/
def fileText (config : Fields) : Text := Text.join ['\n'] ((saved config).flatMap tableLines)

theorem sectionLines_eq (name : Text) (defaults fs : Fields) : sectionLines name defaults fs =
      if (changedFields defaults fs).isEmpty then []
      else tableLines (name, changedFields defaults fs) := by
  unfold sectionLines
  cases changedFields defaults fs <;> rfl

theorem mapM_ok {α β ε : Type} {f : α → Except ε β} {g : α → β} {l : List α}
    (all : ∀ a ∈ l, f a = .ok (g a)) :
    l.mapM f = .ok (l.map g) := by
  induction l with
  | nil => rfl
  | cons a l ih =>
    obtain ⟨first, others⟩ := List.forall_mem_cons.mp all
    rw [List.mapM_cons, first, ih others]
    rfl

theorem defaults_table {name : Text} (mem : name ∈ sections) :
    (Config.toFields {}).get? name = some (.table (defaultsOf name)) := by
  obtain ⟨fs, here, -⟩ := Config.shaped {} name mem
  rw [defaultsOf, fieldsOf_eq here, here]

/-- Everything that a file holds can be written. -/
def WritableConfig (config : Fields) : Prop := ∀ s ∈ saved config, ∀ f ∈ s.2, Writable f.2

theorem anyField_eq_false {kind : Value → Bool} {fs : Fields}
    (none : ∀ f ∈ fs, f.2.anywhere kind = false) :
    Value.anyField kind fs = false := by
  induction fs with
  | nil => rfl
  | cons f fs ih =>
    obtain ⟨first, others⟩ := List.forall_mem_cons.mp none
    rw [Value.anyField, first, ih others, Bool.or_false]

/-- The lines of a section that can be written. -/
theorem linesOf_eq (shape : ShapedConfig config) (writable : WritableConfig config)
    {name : Text} (mem : name ∈ sections) :
    linesOf config name = .ok (sectionLines name (defaultsOf name) (fieldsOf config name)) := by
  obtain ⟨fs, here, -⟩ := shape name mem
  have small : Value.anyField Value.isOversized (changedFields (defaultsOf name) fs) = false := by
    cases left : changedFields (defaultsOf name) fs with
    | nil => rfl
    | cons f r =>
      have own : (name, f :: r) ∈ saved config := by
        refine List.mem_filter.mpr ⟨List.mem_map.mpr ⟨name, mem, ?_⟩, rfl⟩
        rw [fieldsOf_eq here, left]
      exact anyField_eq_false fun f mem => (writable _ own f mem).nowhere (fun _ => Writable.small)
  unfold linesOf
  rw [fieldsOf_eq here, here, defaults_table mem]
  dsimp only [Option.getD_some]
  rw [small]
  rfl

theorem render_eq (shape : ShapedConfig config) (writable : WritableConfig config) :
    render config = .ok (fileText config) := by
  have flat : ∀ names : List Text,
      (names.map fun name => sectionLines name (defaultsOf name) (fieldsOf config name)).flatten
        = ((names.map fun name =>
          (name, changedFields (defaultsOf name) (fieldsOf config name))).filter
          fun s => !s.2.isEmpty).flatMap tableLines := by
    intro names
    induction names with
    | nil => rfl
    | cons name names ih =>
      rw [List.map_cons, List.map_cons, List.flatten_cons, List.filter_cons, sectionLines_eq, ih]
      dsimp only
      cases (changedFields (defaultsOf name) (fieldsOf config name)).isEmpty
      · rw [if_neg Bool.false_ne_true, if_pos (by rfl), List.flatMap_cons]
      · rw [if_pos rfl, if_neg (by decide)]
        rfl
  rw [render, mapM_ok fun name mem => linesOf_eq shape writable mem]
  exact congrArg (fun ls => Except.ok (Text.join ['\n'] ls)) (flat sections)

theorem saved_tables (shape : ShapedConfig config) (writable : WritableConfig config) :
    ∀ s ∈ saved config, WritableTable s := by
  intro s mem
  obtain ⟨name, own, rfl⟩ := List.mem_map.mp (List.mem_filter.mp mem).1
  obtain ⟨fs, here, shaped⟩ := shape name own
  have sub : (changedFields (defaultsOf name) (fieldsOf config name)).keys.Sublist
      (defaultsOf name).keys := by
    rw [fieldsOf_eq here, ← shaped.keys_eq]
    exact List.filter_sublist.map Prod.fst
  have bare : ∀ name ∈ sections, Bare name ∧ (defaultsOf name).keys.Nodup ∧
      ∀ k ∈ (defaultsOf name).keys, Bare k := by
    decide
  obtain ⟨spelled, distinct, keys⟩ := bare name own
  exact ⟨spelled, sub.nodup distinct, fun f mem => keys f.1 (sub.subset (List.mem_map_of_mem mem)),
    writable _ mem⟩

/-- The text of a file says what the file holds. -/
theorem read_fileText (shape : ShapedConfig config) (writable : WritableConfig config) :
    Toml.readBytes (Utf8.encode (fileText config)) = .ok (savedFields config) := by
  have names : ((saved config).map Prod.fst).Nodup := by
    have sub : ((saved config).map Prod.fst).Sublist
        ((sections.map fun name =>
          (name, changedFields (defaultsOf name) (fieldsOf config name))).map Prod.fst) :=
      List.filter_sublist.map Prod.fst
    rw [List.map_map] at sub
    exact sub.nodup (by decide : (sections.map id).Nodup)
  rw [Toml.readBytes, Utf8.read?_encode]
  exact Toml.read_tables (saved_tables shape writable) names

/-! ## Loading a file -/

theorem readLayer_file {fs : Fields} {bytes : Bytes} (read : h.files.read h.cwd path = .ok bytes)
    (parsed : Toml.readBytes bytes = .ok fs) (other : Path.Posix.leaf path ≠ projectFileName) :
    (readLayer path).perform h = (.ok { fields := fs.filter fun f => !isNote f.1, file := some path
                                        error := fs.get? "_config_error".toList }, h) := by
  have toml : (readToml path).perform h = (.ok (some fs), h) := by
    unfold readToml
    rw [Action.perform_bind_ok (Action.readFile_ok read), parsed]
    rfl
  unfold readLayer
  rw [Action.perform_orSystem, Action.perform_bind_ok toml]
  show Action.orElse _ ((configurationPart path fs >>= _ : Action Layer).perform h) = _
  rw [configurationPart, if_neg other]
  rfl

/-- Whether files are written in UTF-8 where no encoding is named. -/
def Universal (h : Host) : Prop := ∀ t, h.locale t = some (Utf8.encode t)

/-- No setting comes from the environment. -/
def Quiet (e : Environment) : Prop := ∀ v ∈ e, ¬ variableLead <+: Text.lower v.1

theorem lowerNames_quiet {e : Environment} (quiet : Quiet e) :
    ∀ v ∈ lowerNames e, ¬ variableLead <+: v.1 := by
  suffices from_ : ∀ (acc : Environment), (∀ v ∈ acc, ¬ variableLead <+: v.1) →
    ∀ v ∈ e.foldl (fun acc v =>
      let name := Text.lower v.1
      if (acc.lookup name).isSome then acc.map fun w => if w.1 = name then (name, v.2) else w
      else acc ++ [(name, v.2)]) acc, ¬ variableLead <+: v.1 from from_ [] nofun
  induction e with
  | nil => exact fun _ free => free
  | cons v e ih =>
    obtain ⟨first, others⟩ := List.forall_mem_cons.mp quiet
    intro acc free
    refine ih others _ fun w mem => ?_
    dsimp only at mem
    split at mem
    · obtain ⟨w, own, rfl⟩ := List.mem_map.mp mem
      split
      · exact first
      · exact free w own
    · rcases List.mem_append.mp mem with own | own
      · exact free w own
      · rw [List.mem_singleton.mp own]
        exact first

theorem sectionFrom?_quiet {e : Environment} (free : ∀ v ∈ e, ¬ variableLead <+: v.1)
    (name : Text) :
    sectionFrom? e name = some none := by
  have absent : e.lookup (variableLead ++ name) = none := by
    refine List.lookup_eq_none_iff.mpr fun v mem => ?_
    rw [bne_iff_ne]
    exact fun same => free v mem (same ▸ List.prefix_append _ _)
  have nothing : explode name e = some [] := by
    unfold explode
    induction e with
    | nil => rfl
    | cons v e ih =>
      obtain ⟨first, others⟩ := List.forall_mem_cons.mp free
      have other : Text.startsWith v.1 (variableLead ++ name ++ variableSeparator) = false := by
        rw [Bool.eq_false_iff]
        intro starts
        rw [List.append_assoc] at starts
        exact first ((List.prefix_append _ _).trans (Text.startsWith_iff.mp starts))
      rw [List.foldlM_cons]
      dsimp only
      rw [other, if_neg Bool.false_ne_true]
      exact ih others (List.lookup_eq_none_iff.mpr fun w mem =>
        List.lookup_eq_none_iff.mp absent w (List.mem_cons_of_mem v mem))
  rw [sectionFrom?, absent]
  dsimp only
  rw [nothing]
  rfl

theorem fromEnvironment?_quiet {e : Environment} (quiet : Quiet e) :
    fromEnvironment? e = some [] := by
  have none := sectionFrom?_quiet (lowerNames_quiet quiet)
  simp only [fromEnvironment?, sections, List.foldlM_cons, List.foldlM_nil, none]
  rfl

/-- What the layer of a saved configuration is. -/
theorem readLayer_saved (shape : ShapedConfig config) (writable : WritableConfig config)
    (read : h.files.read h.cwd path = .ok (Utf8.encode (fileText config)))
    (other : Path.Posix.leaf path ≠ projectFileName) :
    (readLayer path).perform h = (.ok { fields := savedFields config, file := some path }, h) := by
  have keys : ∀ f ∈ savedFields config, f.1 ∈ sections := by
    intro f mem
    obtain ⟨s, own, rfl⟩ := List.mem_map.mp mem
    obtain ⟨name, listed, rfl⟩ := List.mem_map.mp (List.mem_filter.mp own).1
    exact listed
  have notes : (savedFields config).filter (fun f => !isNote f.1) = savedFields config := by
    rw [List.filter_eq_self]
    intro f mem
    have plain : ∀ name ∈ sections, (!isNote name) = true := by decide
    exact plain f.1 (keys f mem)
  have error : (savedFields config).get? "_config_error".toList = none := by
    refine Fields.get?_none fun mem => ?_
    obtain ⟨f, own, same⟩ := List.mem_map.mp mem
    have strange : "_config_error".toList ∉ sections := by decide
    exact strange (same ▸ keys f own)
  rw [readLayer_file read (read_fileText shape writable) other, notes, error]

/-- **A file of a configuration is loaded as the whole configuration is read.** -/
theorem load_saved (shape : ShapedConfig config) (quiet : Quiet h.environment)
    {named start : Option Text} {h₁ h₂ : Host}
    (first : (layer named start).perform h =
      (.ok { fields := savedFields config, file := some path }, h₁))
    (second : (layer named start).perform h₁ =
      (.ok { fields := savedFields config, file := some path }, h₂)) :
    (load named start).perform h = match Config.read (.table config) with
      | .valid c => (.ok { config := c, file := some path, error := none }, h₂)
      | .invalid issues => (.error (.invalid issues), h₁) := by
  have whole : Config.read (.table (overlay (savedFields config) [])) =
      Config.read (.table config) := by
    rw [overlay, Config.read_saved shape]
  unfold load
  rw [Action.perform_bind_ok (Action.perform_get h), fromEnvironment?_quiet quiet]
  dsimp only
  rw [Action.perform_bind_ok first]
  dsimp only
  rw [whole]
  cases Config.read (.table config) with
  | invalid issues => rfl
  | valid c =>
    dsimp only
    rw [Action.perform_bind_ok second]
    rfl

/-! ## Saving and loading -/

/-- A setting that can be written, or is none. -/
def Settable : Value → Prop
  | .null => True
  | v => Writable v

instance (v : Value) : Decidable (Settable v) := by
  cases v <;> unfold Settable <;> infer_instance

/-- Every setting of a configuration can be written: texts without control characters, integers with
at most 4300 digits, and rule tables of such values. -/
def SettableConfig (config : Fields) : Prop :=
  ∀ name ∈ sections, ∀ f ∈ fieldsOf config name, Settable f.2

instance (config : Fields) : Decidable (SettableConfig config) :=
  inferInstanceAs (Decidable (∀ name ∈ sections, ∀ f ∈ fieldsOf config name, Settable f.2))

theorem SettableConfig.writable (settable : SettableConfig config) : WritableConfig config := by
  intro s mem f own
  obtain ⟨name, listed, rfl⟩ := List.mem_map.mp (List.mem_filter.mp mem).1
  obtain ⟨here, left⟩ := List.mem_filter.mp own
  have plain := settable name listed f here
  obtain ⟨k, v⟩ := f
  cases v with
  | null => cases left
  | bool b => exact plain
  | int n => exact plain
  | float x => exact plain
  | text t => exact plain
  | list xs => exact plain
  | table fs => exact plain
  | broken s => exact plain
  | moment m => exact plain
  | misnamed s v => exact plain

/-- What can be written has no string in it that is no text. -/
theorem SettableConfig.whole (settable : SettableConfig config) (shape : ShapedConfig config) :
    isBroken config = false := by
  refine List.any_eq_false.mpr fun name listed => ?_
  obtain ⟨fs, here, -⟩ := shape name listed
  have none : ∀ f ∈ fs, f.2.anywhere Value.isBroken = false := by
    rintro ⟨k, v⟩ mem
    have own := settable name listed (k, v) (fieldsOf_eq here ▸ mem)
    cases v with
    | null => rfl
    | _ => exact Writable.nowhere (fun _ => Writable.whole) _ own
  rw [here, Option.any_some, Value.anywhere, anyField_eq_false none]
  exact Bool.false_ne_true

/-- A configuration is saved in the encoding of the host. -/
theorem save_perform (shape : ShapedConfig config) (settable : SettableConfig config)
    {bytes : Bytes} (encoded : h.locale (fileText config) = some bytes) :
    (save (.table config) path).perform h = (Action.writeFile path bytes).perform h := by
  unfold save
  dsimp only
  rw [render_eq shape settable.writable]
  dsimp only
  rw [Action.perform_bind_ok (Action.perform_get h), bytes?, settable.whole shape,
    if_neg Bool.false_ne_true, encoded]

section Reload

variable (place : (h.files.write h.cwd path []).isOk)
  (legible : h.files.locked (FileSystem.placeOf h.cwd path) = false)
include place legible

/-- What was saved in a file is read from there. -/
theorem read_saved (shape : ShapedConfig config) (settable : SettableConfig config) {bytes : Bytes}
    (encoded : h.locale (fileText config) = some bytes) :
    ∃ fs, (save (.table config) path).perform h = (.ok ⟨⟩, { h with files := fs }) ∧
      fs.read h.cwd path = .ok bytes := by
  obtain ⟨fs₀, empty⟩ : ∃ fs, h.files.write h.cwd path [] = .ok fs := by
    cases written : h.files.write h.cwd path [] with
    | ok fs => exact ⟨fs, rfl⟩
    | error e => rw [written] at place; cases place
  obtain ⟨fs, written⟩ := FileSystem.write_any empty bytes
  have change : (Action.writeFile path bytes).perform h = _ := Action.perform_change ..
  rw [save_perform shape settable encoded, change, written]
  exact ⟨fs, rfl, FileSystem.read_written written legible⟩

variable {c : Config} (settable : SettableConfig c.toFields) (quiet : Quiet h.environment)
  (tidy : Path.Posix.tidy path = path) (start : Option Text)
include settable quiet tidy

/-- **A configuration that is saved and loaded again is the same.**  Its own rules have to accept
it, its texts, integers and rules have to be such that they can be written, and files of this text
have to be written in UTF-8. -/
theorem load_save (own : Config.read c.toValue = .valid c)
    (encoded : h.locale (fileText c.toFields) = some (Utf8.encode (fileText c.toFields)))
    (other : Path.Posix.leaf path ≠ projectFileName) :
    ∃ fs, (save c.toValue path).perform h = (.ok ⟨⟩, { h with files := fs }) ∧
      (load (some path) start).perform { h with files := fs } =
        (.ok { config := c, file := some path, error := none }, { h with files := fs }) := by
  obtain ⟨fs, saves, read⟩ := read_saved place legible c.shaped settable encoded
  have layered := readLayer_saved (h := { h with files := fs }) c.shaped
    settable.writable read other
  have named : layer (some path) start = readLayer path := congrArg readLayer tidy
  rw [← named] at layered
  have whole : Config.read (.table c.toFields) = .valid c := own
  refine ⟨fs, saves, ?_⟩
  rw [load_saved (h := { h with files := fs }) c.shaped quiet layered layered, whole]

/-- **Saved in another encoding, it is not loaded**: a file that is no UTF-8 makes every load of it
fail. -/
theorem load_save_foreign {bytes : Bytes} (encoded : h.locale (fileText c.toFields) = some bytes)
    (foreign : Utf8.read? bytes = none) :
    ∃ fs, (save c.toValue path).perform h = (.ok ⟨⟩, { h with files := fs }) ∧
      (load (some path) start).perform { h with files := fs } =
        (.error .notText, { h with files := fs }) := by
  obtain ⟨fs, saves, read⟩ := read_saved place legible c.shaped settable encoded
  have toml : (readToml path).perform { h with files := fs } =
      (.error .notText, { h with files := fs }) := by
    unfold readToml
    rw [Action.perform_bind_ok (Action.readFile_ok read), Toml.readBytes, foreign]
    rfl
  have layered : (layer (some path) start).perform { h with files := fs } =
      (.error .notText, { h with files := fs }) := by
    have named : layer (some path) start = readLayer path := congrArg readLayer tidy
    rw [named, readLayer, Action.perform_orSystem, Action.perform_bind_error toml]
    rfl
  refine ⟨fs, saves, ?_⟩
  unfold load
  rw [Action.perform_bind_ok (Action.perform_get _), fromEnvironment?_quiet quiet]
  dsimp only
  rw [Action.perform_bind_error layered]

end Reload

/-- A directory for settings in an empty project. -/
def emptyProject : Host := { files := { entries := [([directoryName], .directory)] } }

/-- Settings with rules inside rules. -/
def ruledConfig : Config :=
  { validation :=
      { linter := some .solium
        soliumRules :=
          [("quotes".toList, .list [.text "\"\\ \t".toList,
            .table [("max".toList, .int (-3)), ([], .bool false)]]),
          ("none".toList, .table [])]
        delay := 0 }
    logging := { filePath := some "logs/server.log".toList } }

/-- Settings with rules inside rules are saved in an empty project, and come back. -/
theorem ruledConfig_comes_back :
    ∃ fs, (save ruledConfig.toValue ".solcheck/config.toml".toList).perform emptyProject
      = (.ok ⟨⟩, { emptyProject with files := fs }) ∧
    (load (some ".solcheck/config.toml".toList) none).perform { emptyProject with files := fs } =
      (.ok { config := ruledConfig, file := some ".solcheck/config.toml".toList, error := none },
        { emptyProject with files := fs }) :=
  load_save (by decide +kernel) (by decide +kernel) (by decide +kernel)
    (fun _ none => absurd none List.not_mem_nil) (by decide +kernel) none rfl rfl
    (by decide +kernel)

/-- A rule that is half of a pair of surrogates. -/
def halvedConfig : Config :=
  { validation := { solhintRules := [("quotes".toList, .broken ⟨[.ofSurrogate 0xd800], rfl⟩)] } }

/-- **A rule may be a string that no file can hold.**  The configuration is valid, but saving it
fails, and leaves an empty file behind. -/
theorem halved_rule_lost : Config.read halvedConfig.toValue = .valid halvedConfig ∧
    ∃ fs, (save halvedConfig.toValue ".solcheck/config.toml".toList).perform emptyProject =
        (.error .unencodable, { emptyProject with files := fs }) ∧
      fs.read [] ".solcheck/config.toml".toList = .ok [] :=
  ⟨rfl, _, rfl, by decide +kernel⟩

/-- The first 256 characters, a byte each. -/
def latin (t : Text) : Option Bytes :=
  t.mapM fun c => if c.toNat < 256 then some (UInt8.ofNat c.toNat) else none

/-- **An accent is lost where files are not written in UTF-8.**  The configuration is saved, but
cannot be loaded. -/
theorem accented_directory_lost : ∃ fs,
    (save (Config.toValue { layout := { contracts := "été".toList } })
      ".solcheck/config.toml".toList).perform
        { emptyProject with locale := latin } =
          (.ok ⟨⟩, { emptyProject with files := fs, locale := latin }) ∧
      (load (some ".solcheck/config.toml".toList) none).perform
        { emptyProject with files := fs, locale := latin } =
        (.error .notText, { emptyProject with files := fs, locale := latin }) :=
  load_save_foreign (by decide +kernel) (by decide +kernel) (by decide +kernel)
    (fun _ none => absurd none List.not_mem_nil) (by decide +kernel) none rfl (by decide +kernel)

end ContractCheck.Settings
