import ContractCheck.Proofs.Settings.Accepted
import ContractCheck.Proofs.Settings.Saved
import ContractCheck.Proofs.Settings.Search

/-! # Settings that are changed and loaded again

A change is written to the file that the next load finds.  If the settings there and the new one can
be written, and the field of the key takes the value, then the next load gives the settings as they
were, with the new value at its key (`load_assign`).  What a key takes, though, its field may
refuse, and a text with control characters breaks the file (`line_break_lost`).
-/
namespace ContractCheck.Settings

open FileSystem (placeOf)
open ContractCheck.Path (EndsIn Proper)

/-! ## The changed configuration -/

section Changed

variable {defaults fs inner config : Fields} {key name t : Text} {v d : Value}

theorem Shaped.put (shape : Shaped defaults fs) (default : defaults.get? key = some d)
    (kin : Kin d v) :
    Shaped defaults (Fields.put key v fs) := by
  induction shape with
  | nil => cases default
  | @cons d' f ds fs same rest ih =>
    obtain ⟨k, w⟩ := f
    rw [Fields.get?_cons] at default
    rw [Fields.put]
    split
    · next here =>
      rw [if_pos (same.1.trans here)] at default
      exact .cons ⟨same.1, Option.some.inj default ▸ kin⟩ rest
    · next other =>
      rw [if_neg fun here => other (same.1.symm.trans here)] at default
      exact .cons same (ih default)

theorem mem_put {f : Text × Value} (mem : f ∈ Fields.put key v fs) : f = (key, v) ∨ f ∈ fs := by
  induction fs with
  | nil => exact .inl (List.mem_singleton.mp mem)
  | cons g fs ih =>
    obtain ⟨k, w⟩ := g
    rw [Fields.put] at mem
    split at mem
    · next same =>
      rcases List.mem_cons.mp mem with rfl | mem
      · exact .inl (by rw [same])
      · exact .inr (List.mem_cons_of_mem _ mem)
    · rcases List.mem_cons.mp mem with rfl | mem
      · exact .inr List.mem_cons_self
      · exact (ih mem).imp_right (List.mem_cons_of_mem _)

/-- Whether a default is of the kind of values that a key takes. -/
def KeyKind.suits : KeyKind → Option Value → Bool
  | .truth, some (.bool _) => true
  | .whole, some (.int _) => true
  | .linter, some .null => true
  | .text, some .null => true
  | .text, some (.text _) => true
  | _, _ => false

/-- A value that a key takes is of the kind of its field's default. -/
theorem KeyKind.Takes.kin {k : Key} (mem : k ∈ keys) (takes : k.kind.Takes t v) :
    ∃ d, (defaultsOf k.sectionName).get? k.field = some d ∧ Kin d v := by
  have all : ∀ k ∈ keys, k.kind.suits ((defaultsOf k.sectionName).get? k.field) = true := by
    decide +kernel
  have kind := all k mem
  unfold KeyKind.suits at kind
  split at kind
  · next truth default =>
    rw [truth] at takes
    obtain ⟨b, rfl⟩ := takes
    exact ⟨_, default, trivial⟩
  · next whole default =>
    rw [whole] at takes
    obtain ⟨n, rfl, -⟩ := takes
    exact ⟨_, default, trivial⟩
  · next linter default =>
    rw [linter] at takes
    rcases takes with rfl | ⟨l, rfl⟩ <;> exact ⟨_, default, trivial⟩
  · next text default =>
    rw [text] at takes
    obtain rfl := takes
    exact ⟨_, default, trivial⟩
  · next text default =>
    rw [text] at takes
    obtain rfl := takes
    exact ⟨_, default, trivial⟩
  · cases kind

/-- It can be written if its text can. -/
theorem KeyKind.Takes.settable {kind : KeyKind} (takes : kind.Takes t v)
    (clean : kind = .text → Toml.Clean t) :
    Settable v := by
  cases kind with
  | truth =>
    obtain ⟨b, rfl⟩ := takes
    trivial
  | whole =>
    obtain ⟨n, rfl, small⟩ := takes
    exact small
  | linter =>
    have labels : ∀ l : LinterName, Toml.Clean l.label := fun l => by cases l <;> decide
    rcases takes with rfl | ⟨l, rfl⟩
    · exact (by decide : Toml.Clean "none".toList)
    · exact labels l
  | text =>
    obtain rfl := takes
    exact clean rfl

/-- The settings with a value put behind a key. -/
structure ChangedAt (c : Config) (k : Key) (v : Value) (config : Fields) : Prop where
  here : config.get? k.sectionName =
    some (.table (Fields.put k.field v (fieldsOf c.toFields k.sectionName)))
  others : ∀ name ∈ sections, name ≠ k.sectionName → config.get? name = c.toFields.get? name

theorem putKey_changed (c : Config) (notes : Fields) {k : Key} (mem : k ∈ keys) (v : Value) :
    ∃ config, Value.putKey k.name v (.table (c.toFields ++ notes)) = some (.table config) ∧
      ChangedAt c k v config := by
  obtain ⟨path, listed, -⟩ := key_path mem
  have own : ∀ name ∈ sections, Fields.get? (c.toFields ++ notes) name = c.toFields.get? name := by
    intro name listed
    obtain ⟨fs, here, -⟩ := c.shaped name listed
    rw [Fields.get?, List.lookup_append]
    change c.toFields.lookup name = _ at here
    rw [here]
    exact here.symm
  obtain ⟨fs, here, -⟩ := c.shaped k.sectionName listed
  refine ⟨Fields.put k.sectionName (.table (Fields.put k.field v fs)) (c.toFields ++ notes), ?_, ?_,
    ?_⟩
  · rw [Value.putKey, path, Value.putIn, own _ listed, here]
    rfl
  · rw [Fields.get?_put_self, fieldsOf_eq here]
  · intro name listed' other
    rw [Fields.get?_put_of_ne _ _ other, own name listed']

variable {c : Config} {k : Key}

theorem ChangedAt.shaped (at_ : ChangedAt c k v config) (mem : k ∈ keys)
    (takes : k.kind.Takes t v) :
    ShapedConfig config := by
  intro name listed
  obtain ⟨fs, here, shape⟩ := c.shaped name listed
  by_cases own : name = k.sectionName
  · subst own
    obtain ⟨d, default, kin⟩ := takes.kin mem
    exact ⟨_, at_.here, fieldsOf_eq here ▸ shape.put default kin⟩
  · exact ⟨fs, (at_.others name listed own).trans here, shape⟩

theorem ChangedAt.settable (at_ : ChangedAt c k v config) (takes : k.kind.Takes t v)
    (settable : SettableConfig c.toFields) (clean : k.kind = .text → Toml.Clean t) :
    SettableConfig config := by
  intro name listed f inside
  by_cases own : name = k.sectionName
  · subst own
    rw [fieldsOf_eq at_.here] at inside
    rcases mem_put inside with rfl | inside
    · exact takes.settable clean
    · exact settable _ listed f inside
  · rw [fieldsOf, at_.others name listed own] at inside
    exact settable name listed f inside

/-- The changed settings are read as the rule of the field assigns the value. -/
theorem ChangedAt.read (at_ : ChangedAt c k v config) (mem : k ∈ keys)
    (own : Config.read c.toValue = .valid c) :
    (Config.read (.table config)).toOption = (c.assignIn k.sectionName k.field v).toOption :=
  Config.read_put own (key_path mem).2.1 (key_path mem).2.2 at_.here at_.others

end Changed

/-! ## The file that is found -/

section Found

variable {h h' : Host} {cwd : Place} {path : Text} {start : Option Text}

theorem fileName_proper : '/' ∉ fileName ∧ Proper fileName := by decide

theorem projectFileName_proper : '/' ∉ projectFileName ∧ Proper projectFileName := by decide

theorem fileIn_endsIn (directory : Text) : EndsIn fileName (fileIn directory) :=
  EndsIn.child fileName_proper.1 _ fileName_proper.2

theorem fileIn_leaf (directory : Text) : Path.Posix.leaf (fileIn directory) = fileName :=
  (fileIn_endsIn directory).leaf fileName_proper.1 fileName_proper.2.1 fileName_proper.2.2.1

theorem fileIn_tidy (directory : Text) : fileIn (Path.Posix.tidy directory) = fileIn directory := by
  simp only [fileIn, Path.Posix.child, Path.tidy_tidy]

/-- What a search finds is a configuration file, or a project file. -/
theorem findIn_some {directories : List Text}
    (found : (findIn directories).perform h = (.ok (some path), h')) :
    ∃ directory ∈ directories, path = fileIn directory ∨
      path = Path.Posix.child directory projectFileName := by
  induction directories generalizing h with
  | nil => cases found
  | cons directory rest ih =>
    obtain ⟨there, h₁, -, found⟩ := Action.ok_of_bind found
    split at found
    · have same := Action.eq_of_pure found
      exact ⟨directory, List.mem_cons_self, .inl (Option.some.inj same).symm⟩
    · obtain ⟨configured, h₂, -, found⟩ := Action.ok_of_bind found
      split at found
      · have same := Action.eq_of_pure found
        exact ⟨directory, List.mem_cons_self, .inr (Option.some.inj same).symm⟩
      · obtain ⟨other, mem, shape⟩ := ih found
        exact ⟨other, List.mem_cons_of_mem directory mem, shape⟩

/-- The place of a configuration file is no project file's. -/
theorem placeOf_apart (directory other : Text) (cwd : Place) :
    placeOf cwd (Path.Posix.child directory projectFileName) ≠ placeOf cwd (fileIn other) := by
  intro same
  have project := FileSystem.placeOf_endsIn projectFileName_proper.1 projectFileName_proper.2
    (EndsIn.child projectFileName_proper.1 directory projectFileName_proper.2) cwd
  have own :=
    FileSystem.placeOf_endsIn fileName_proper.1 fileName_proper.2 (fileIn_endsIn other) cwd
  rw [same, own] at project
  exact absurd (Option.some.inj project) (by decide)

/-- The directory where a search starts. -/
def baseOf (start : Option Text) (h : Host) : Text :=
  match start with
  | some (c :: cs) => c :: cs
  | _ => h.directory

theorem startOf_perform (start : Option Text) (h : Host) :
    (startOf start).perform h = (.ok (baseOf start h), h) := by
  rcases start with _ | _ | ⟨c, cs⟩ <;> rfl

theorem find_perform (start : Option Text) (h : Host) :
    (find start).perform h = (findIn (Path.Posix.lineage (baseOf start h))).perform h := by
  unfold find
  rw [Action.perform_bind_ok (startOf_perform start h)]

/-- A search sees no difference in configuration files. -/
theorem find_agrees (start : Option Text) {P : Place → Prop}
    (apart : ∀ directory, ¬ P (placeOf cwd (Path.Posix.child directory projectFileName))) :
    Action.Agrees P cwd (find start) := by
  intro h g twins
  have same : baseOf start g = baseOf start h := by
    have directory : g.directory = h.directory := by
      rw [Host.directory, Host.directory, twins.leftCwd, twins.rightCwd]
    unfold baseOf
    rw [directory]
  rw [find_perform, find_perform, same]
  exact findIn_agrees (fun directory _ => apart directory) h g twins

/-- In the directory where a search starts a configuration file is found first. -/
theorem find_first (unfiled : h.Unfiled)
    (there : (h.files.find h.cwd (fileIn (baseOf start h))).isOk) :
    ∃ h', (find start).perform h = (.ok (some (fileIn (baseOf start h))), h') ∧ h.Calm h' := by
  obtain ⟨rest, shape⟩ := Path.lineage_eq (baseOf start h)
  have here : (isThere (fileIn (baseOf start h))).perform h = (.ok true, h) := by
    unfold isThere
    rw [Action.perform_bind_ok (Action.perform_get h)]
    cases found : h.files.find h.cwd (fileIn (baseOf start h)) with
    | ok e => rfl
    | error e => rw [found] at there; cases there
  rw [find_perform, shape, findIn, fileIn_tidy, Action.perform_bind_ok here]
  exact ⟨h, rfl, .refl unfiled⟩

/-- What writes a file changes the bytes at its place and nothing else. -/
theorem write_sameBut {fs fs' : FileSystem} {content : Bytes}
    (written : fs.write cwd path content = .ok fs')
    (there : fs.isFile cwd path) : FileSystem.SameBut (· = placeOf cwd path) fs fs' := by
  obtain ⟨p, x, led, file, -, others, before⟩ := FileSystem.write_get? written
  obtain rfl := FileSystem.resolve_place led
  refine ⟨others, ?_⟩
  rintro q rfl
  rcases before with ⟨none, -⟩ | ⟨-, old, before⟩
  · unfold FileSystem.isFile FileSystem.find at there
    rw [led] at there
    dsimp only [bind, Except.bind] at there
    rw [none] at there
    cases there
  · exact ⟨old, x, content, x, before, file⟩

/-- A file that was read without complaint can be read. -/
theorem readLayer_sound {layer : Layer} (done : (readLayer path).perform h = (.ok layer, h'))
    (sound : layer.error = none) :
    ∃ bytes, h.files.read h.cwd path = .ok bytes := by
  cases read : h.files.read h.cwd path with
  | ok bytes => exact ⟨bytes, rfl⟩
  | error e =>
    have failed : (readToml path).perform h = (.error (.file e path), h) := by
      unfold readToml
      rw [Action.perform_bind_error (Action.readFile_fails read)]
    unfold readLayer at done
    rw [Action.perform_orSystem, Action.perform_bind_error failed] at done
    unfold Action.orElse at done
    dsimp only at done
    split at done
    · obtain ⟨-, h₁, -, rest⟩ := Action.ok_of_bind done
      rw [← Action.eq_of_pure rest] at sound
      cases sound
    · cases done

theorem layer_none (start : Option Text) : layer none start = find start >>= fun found =>
    match found with
    | some p => readLayer p
    | none => pure {} := rfl

theorem layer_agrees (start : Option Text) :
    Action.Agrees (fun _ => False) cwd (layer none start) := by
  rw [layer_none]
  refine (find_agrees start fun _ => id).bind fun found => ?_
  split
  · exact readLayer_agrees id
  · exact .pure _

theorem twins_refl (unfiled : h.Unfiled) : h.Twins (fun _ => False) h.cwd h :=
  ⟨unfiled, unfiled, rfl, rfl, .refl _⟩

theorem Calm.twins (unfiled : h.Unfiled) (calm : h.Calm h') : h.Twins (fun _ => False) h.cwd h' :=
  (twins_refl unfiled).calm (.refl unfiled) calm

/-- Settings that are loaded without complaint come from a file that can be read, if from any. -/
theorem load_sound (unfiled : h.Unfiled) {loaded : Loaded}
    (loads : (load none start).perform h = (.ok loaded, h'))
    (sound : loaded.error = none) :
    h.Calm h' ∧ ∃ found h₁, (find start).perform h = (.ok found, h₁) ∧
      ∀ p, found = some p → ∃ bytes, h.files.read h.cwd p = .ok bytes := by
  unfold load at loads
  rw [Action.perform_bind_ok (Action.perform_get h)] at loads
  split at loads
  · cases loads
  · obtain ⟨base, h₁, first, loads⟩ := Action.ok_of_bind loads
    split at loads
    · cases loads
    · obtain ⟨notes, h₂, second, loads⟩ := Action.ok_of_bind loads
      have given := Action.eq_of_pure loads
      have last : h₂ = h' := (Prod.mk.inj loads).2
      subst last
      -- Both looks at the file see the same.
      have calm : h.Calm h₁ := by
        have looked := (layer_agrees start h h (twins_refl unfiled)).2.1
        rwa [first] at looked
      have calm' : h₁.Calm h₂ := by
        have looked := (layer_agrees start h₁ h₁ (twins_refl calm.unfiled)).2.1
        rwa [second] at looked
      refine ⟨calm.trans calm', ?_⟩
      rw [layer_none] at second
      obtain ⟨found, h₃, searched, layered⟩ := Action.ok_of_bind second
      have again := find_agrees start (P := fun _ => False) (fun _ => id) h h₁
        (Calm.twins unfiled calm)
      rw [searched] at again
      refine ⟨found, ((find start).perform h).2, Prod.ext again.1.symm rfl, ?_⟩
      rintro p rfl
      have readable := readLayer_sound layered (by rw [← sound, ← given])
      have calm₃ : h₁.Calm h₃ := again.2.2
      rwa [calm₃.files, calm₃.cwd, calm.files, calm.cwd] at readable

theorem makeDirectory_grows {fs fs' : FileSystem} (made : fs.makeDirectory cwd path = .ok fs') :
    fs.Grows fs' ∧ ∀ q, fs'.locked q = fs.locked q := by
  obtain ⟨p, -, free, rfl⟩ := FileSystem.makeDirectory_done made
  exact ⟨FileSystem.grows_set fun _ => rfl, fun q => FileSystem.locked_set_directory free⟩

/-- The configuration file of the start directory is chosen after its own directory was made, if
that was not there. -/
theorem fresh_done (done : (pathForWriting.fresh start).perform h = (.ok path, h')) :
    path = fileIn (baseOf start h) ∧ (h' = h ∨ ∃ fs, h' = { h with files := fs } ∧
      h.files.makeDirectory h.cwd (Path.Posix.child (baseOf start h) directoryName) = .ok fs) := by
  unfold pathForWriting.fresh at done
  rw [Action.perform_bind_ok (startOf_perform start h),
    Action.perform_bind_ok (Action.perform_get h)] at done
  split at done
  · next fs making =>
    have last : (Except.ok (fileIn (baseOf start h)), { h with files := fs }) =
        ((.ok path, h') : Except Fault Text × Host) :=
      done
    obtain ⟨same, rfl⟩ := Prod.mk.inj last
    exact ⟨(Except.ok.inj same).symm, .inr ⟨fs, rfl, making⟩⟩
  · have last : (Except.ok (fileIn (baseOf start h)), h) =
        ((.ok path, h') : Except Fault Text × Host) := by
      dsimp only at done
      split at done
      · cases done
      · exact done
    obtain ⟨same, rfl⟩ := Prod.mk.inj last
    exact ⟨(Except.ok.inj same).symm, .inl rfl⟩

/-- A configuration file that is found is chosen, and otherwise the one of the start directory. -/
theorem pathForWriting_done (done : (pathForWriting start).perform h = (.ok path, h')) :
    ∃ found h₁, (find start).perform h = (.ok found, h₁) ∧
      (found = some path ∧ Path.Posix.leaf path = fileName ∧ h' = h₁ ∨
        (∀ p, found = some p → Path.Posix.leaf p ≠ fileName) ∧
        (pathForWriting.fresh start).perform h₁ = (.ok path, h')) := by
  obtain ⟨found, h₁, searched, done⟩ := Action.ok_of_bind done
  refine ⟨found, h₁, searched, ?_⟩
  split at done
  · next p =>
    split at done
    · next own =>
      obtain ⟨same, last⟩ := Prod.mk.inj done
      obtain rfl := Except.ok.inj same
      exact .inl ⟨rfl, own, last.symm⟩
    · next other => exact .inr ⟨fun q same => Option.some.inj same ▸ other, done⟩
  · exact .inr ⟨nofun, done⟩

/-- Where a change is written to: the file that was found, or the one in the directory where the
search starts. -/
theorem pathForWriting_cases (unfiled : h.Unfiled)
    (done : (pathForWriting start).perform h = (.ok path, h')) :
    (∃ h₁, (find start).perform h = (.ok (some path), h₁) ∧ Path.Posix.leaf path = fileName ∧
      h.Calm h') ∨
    path = fileIn (baseOf start h) ∧ h'.Unfiled ∧ h'.cwd = h.cwd ∧ h'.environment = h.environment ∧
      h'.locale = h.locale ∧ h.files.Grows h'.files ∧ ∀ q,
      h'.files.locked q = h.files.locked q := by
  obtain ⟨found, h₁, searched, choice⟩ := pathForWriting_done done
  have looked := (find_agrees start (P := fun _ => False) (fun _ => id) h h
    (twins_refl unfiled)).2.1
  rw [searched] at looked
  have calm : h.Calm h₁ := looked
  rcases choice with ⟨rfl, own, rfl⟩ | ⟨-, fresh⟩
  · exact .inl ⟨h', searched, own, calm⟩
  · have base : baseOf start h₁ = baseOf start h := by
      unfold baseOf
      rw [calm.directory]
    obtain ⟨chosen, rfl | ⟨fs, rfl, making⟩⟩ := fresh_done fresh
    · exact .inr ⟨chosen.trans (congrArg fileIn base), calm.unfiled, calm.cwd, calm.environment,
        calm.locale, calm.files ▸ .refl _,
        fun _ => by rw [calm.files]⟩
    · obtain ⟨grows, locked⟩ := makeDirectory_grows making
      rw [calm.files] at grows locked
      exact .inr ⟨chosen.trans (congrArg fileIn base), calm.unfiled, calm.cwd, calm.environment,
        calm.locale, grows, locked⟩

/-- A configuration file is found again by every search from the same start, and by none changed. -/
def FoundAgain (start : Option Text) (path : Text) (h : Host) : Prop :=
  ∀ g, h.Calm g → ∃ g', (find start).perform g = (.ok (some path), g') ∧ g.Calm g'

/-- A file that was found and changed is found again. -/
theorem found_rewritten (unfiled : h.Unfiled) {h₁ : Host}
    (searched : (find start).perform h = (.ok (some path), h₁))
    (own : Path.Posix.leaf path = fileName) {bytes content : Bytes}
    (readable : h.files.read h.cwd path = .ok bytes) (calm : h.Calm h') {fs : FileSystem}
    (written : h'.files.write h'.cwd path content = .ok fs) :
    FoundAgain start path { h' with files := fs } := by
  intro g after
  have apart : ∀ directory, ¬ placeOf h.cwd (Path.Posix.child directory projectFileName) =
      placeOf h.cwd path := by
    intro directory
    rw [find_perform] at searched
    obtain ⟨d, -, rfl | rfl⟩ := findIn_some searched
    · exact placeOf_apart directory d h.cwd
    · have leaf := (EndsIn.child projectFileName_proper.1 d projectFileName_proper.2).leaf
        projectFileName_proper.1
        projectFileName_proper.2.1 projectFileName_proper.2.2.1
      rw [own] at leaf
      exact absurd leaf (by decide)
  have there : h.files.isFile h.cwd path := by
    unfold FileSystem.read at readable
    unfold FileSystem.isFile
    cases found : h.files.find h.cwd path with
    | error e => rw [found] at readable; cases readable
    | ok e =>
      rw [found] at readable
      obtain ⟨p, _ | ⟨old, x⟩⟩ := e
      · cases readable
      · rfl
  rw [calm.files, calm.cwd] at written
  have twins : h.Twins (· = placeOf h.cwd path) h.cwd g :=
    ⟨unfiled, after.unfiled, rfl, after.cwd.trans calm.cwd,
      after.files ▸ write_sameBut written there⟩
  have again := find_agrees start apart h g twins
  rw [searched] at again
  exact ⟨((find start).perform g).2, Prod.ext again.1 rfl, again.2.2⟩

/-- A file that was written in the directory where the search starts is found. -/
theorem found_written {content : Bytes} {fs : FileSystem}
    (written : h.files.write h.cwd (fileIn (baseOf start h)) content = .ok fs) :
    FoundAgain start (fileIn (baseOf start h)) { h with files := fs } := by
  intro g after
  have base : baseOf start g = baseOf start h := by
    unfold baseOf
    rw [after.directory]
    rfl
  rw [← base] at written ⊢
  refine find_first after.unfiled ?_
  obtain ⟨p, m, found⟩ := FileSystem.find_written written
  rw [after.files, after.cwd]
  show (fs.find h.cwd (fileIn (baseOf start g))).isOk = true
  rw [found]
  rfl

/-- What a load gives if the file of a configuration is found. -/
theorem load_foundAgain {config : Fields} (again : FoundAgain start path h) (unfiled : h.Unfiled)
    (shape : ShapedConfig config)
    (settable : SettableConfig config) (quiet : Quiet h.environment)
    (own : Path.Posix.leaf path = fileName)
    (read : h.files.read h.cwd path = .ok (Utf8.encode (fileText config))) :
    ((load none start).perform h).1 = match Config.read (.table config) with
      | .valid c => .ok { config := c, file := some path, error := none }
      | .invalid issues => .error (.invalid issues) := by
  have other : Path.Posix.leaf path ≠ projectFileName := own ▸ by decide
  have layered : ∀ g, h.Calm g → ∃ g', (layer none start).perform g =
      (.ok { fields := savedFields config, file := some path }, g') ∧ h.Calm g' := by
    intro g after
    obtain ⟨g', searched, calm⟩ := again g after
    have last := after.trans calm
    rw [layer_none, Action.perform_bind_ok searched]
    exact ⟨g', readLayer_saved shape settable.writable (by rw [last.files, last.cwd, read]) other,
      last⟩
  obtain ⟨h₁, first, calm⟩ := layered h (.refl unfiled)
  obtain ⟨h₂, second, -⟩ := layered h₁ calm
  rw [load_saved shape quiet first second]
  cases Config.read (.table config) <;> rfl

end Found

/-! ## Changing and loading -/

variable {h h₁ h' : Host} {start : Option Text} {loaded : Loaded} {name t path : Text} {v : Value}

theorem key?_some {k : Key} (known : key? name = some k) : k ∈ keys ∧ k.name = name := by
  have found : keys.find? (fun k => k.name = name) = some k := known
  have named := List.find?_some found
  exact ⟨List.mem_of_find?_eq_some found, of_decide_eq_true named⟩

/-- The notes of loaded settings are behind their sections. -/
theorem Loaded.toFields_notes (l : Loaded) : ∃ notes, l.toFields = l.config.toFields ++ notes :=
  ⟨_, List.append_assoc ..⟩

/-- The stages of a change: the settings are loaded, a path is chosen, and the changed settings are
saved there. -/
theorem assign_done (done : (assign name t start).perform h = (.ok (path, v), h')) :
    ∃ k loaded h₁ h₂, key? name = some k ∧ k.parse t = .ok v ∧
      (load none start).perform h = (.ok loaded, h₁) ∧
      (pathForWriting start).perform h₁ = (.ok path, h₂) ∧
      (save ((Value.putKey name v (.table loaded.toFields)).getD (.table loaded.toFields))
        path).perform h₂ = (.ok ⟨⟩, h') := by
  unfold assign at done
  split at done
  · cases done
  · next k known =>
    split at done
    · cases done
    · next w parsed =>
      obtain ⟨loaded, h₁, loads, done⟩ := Action.ok_of_bind done
      obtain ⟨written, h₂, placed, done⟩ := Action.ok_of_bind done
      obtain ⟨⟨⟩, h₃, saved, done⟩ := Action.ok_of_bind done
      have last : (Except.ok (written, w), h₃) =
        ((.ok (path, v), h') : Except Fault (Text × Value) × Host) := done
      obtain ⟨same, rfl⟩ := Prod.mk.inj last
      obtain ⟨rfl, rfl⟩ := Prod.mk.inj (Except.ok.inj same)
      exact ⟨k, loaded, h₁, h₂, known, parsed, loads, placed, saved⟩

/-- What an accepted change does: the value is put behind its key, and the changed settings are
written to a file that is found again. -/
theorem assign_writes (unfiled : h.Unfiled) (universal : Universal h)
    (legible : h.files.locked (FileSystem.placeOf h.cwd (fileIn (baseOf start h))) = false)
    (loads : (load none start).perform h = (.ok loaded, h₁)) (sound : loaded.error = none)
    (settable : SettableConfig loaded.config.toFields)
    (clean : ∀ k, key? name = some k → k.kind = .text → Toml.Clean t)
    (done : (assign name t start).perform h = (.ok (path, v), h')) :
    ∃ k config, key? name = some k ∧ k.kind.Takes t v ∧ ChangedAt loaded.config k v config ∧
      Path.Posix.leaf path = fileName ∧ h'.Unfiled ∧ h'.environment = h.environment ∧
      FoundAgain start path h' ∧ h'.files.read h'.cwd path =
        .ok (Utf8.encode (fileText config)) := by
  obtain ⟨k, loaded', h₁', h₂, known, parsed, loads', placed, saved⟩ := assign_done done
  obtain ⟨rfl, rfl⟩ : loaded = loaded' ∧ h₁ = h₁' := by
    rw [loads] at loads'
    obtain ⟨same, last⟩ := Prod.mk.inj loads'
    exact ⟨Except.ok.inj same, last⟩
  obtain ⟨mem, named⟩ := key?_some known
  have takes := parse_takes parsed
  obtain ⟨notes, noted⟩ := loaded.toFields_notes
  obtain ⟨config, put, changed⟩ := putKey_changed loaded.config notes mem v
  have whole : (Value.putKey name v (.table loaded.toFields)).getD (.table loaded.toFields) =
      .table config := by
    rw [← named, noted, put]
    rfl
  have shape := changed.shaped mem takes
  have settable' := changed.settable takes settable (clean k known)
  obtain ⟨calm, found, h₄, searched, readable⟩ := load_sound unfiled loads sound
  have placing := pathForWriting_cases calm.unfiled placed
  have locale : h₂.locale = h.locale := by
    rcases placing with ⟨-, -, -, calm'⟩ | ⟨-, -, -, -, same, -⟩
    · exact calm'.locale.trans calm.locale
    · exact same.trans calm.locale
  have encoded : h₂.locale (fileText config) = some (Utf8.encode (fileText config)) := by
    rw [locale, universal]
  have change : (Action.writeFile path (Utf8.encode (fileText config))).perform h₂ = _ :=
    Action.perform_change ..
  rw [whole, save_perform shape settable' encoded, change] at saved
  have writing : ∃ fs, h₂.files.write h₂.cwd path (Utf8.encode (fileText config)) = .ok fs ∧
      h' = { h₂ with files := fs } := by
    split at saved
    · next fs wrote => exact ⟨fs, wrote, (Prod.mk.inj saved).2.symm⟩
    · cases saved
  obtain ⟨fs, wrote, rfl⟩ := writing
  rcases placing with
    ⟨h₅, searched', own, calm'⟩ | ⟨rfl, unfiled', cwd, environment, -, grows, locked⟩
  · have same := (find_agrees start (P := fun _ => False) (fun _ => id) h h₁
      (Calm.twins unfiled calm)).1
    rw [searched, searched'] at same
    obtain ⟨bytes, read⟩ := readable path (Except.ok.inj same).symm
    rw [← calm.files, ← calm.cwd] at read
    have legible' : h₂.files.locked (FileSystem.placeOf h₂.cwd path) = false := by
      rw [calm'.files, calm'.cwd]
      exact FileSystem.unlocked_of_read read
    exact ⟨k, config, known, takes, changed, own, calm'.unfiled,
      calm'.environment.trans calm.environment,
      found_rewritten calm.unfiled searched' own read calm' wrote,
      FileSystem.read_written wrote legible'⟩
  · have base : baseOf start h₂ = baseOf start h₁ := by
      unfold baseOf
      rw [Host.directory, Host.directory, cwd]
    have base₁ : baseOf start h₁ = baseOf start h := by
      unfold baseOf
      rw [calm.directory]
    have legible' : h₂.files.locked (FileSystem.placeOf h₂.cwd (fileIn (baseOf start h₁))) =
        false := by
      rw [locked, cwd, calm.files, calm.cwd, base₁, legible]
    have again := @found_written h₂ start _ _ (base.symm ▸ wrote)
    rw [base] at again
    exact ⟨k, config, known, takes, changed, fileIn_leaf _, unfiled',
      environment.trans calm.environment, again,
      FileSystem.read_written wrote legible'⟩

/-- **An accepted setting that its field takes is loaded again**, and one that it does not take
makes the next load fail.  The settings before have to be loaded without complaint, and to be such
that they can be written. -/
theorem load_assign (unfiled : h.Unfiled) (universal : Universal h) (quiet : Quiet h.environment)
    (legible : h.files.locked (FileSystem.placeOf h.cwd (fileIn (baseOf start h))) = false)
    (loads : (load none start).perform h = (.ok loaded, h₁)) (sound : loaded.error = none)
    (stable : Config.read loaded.config.toValue = .valid loaded.config)
    (settable : SettableConfig loaded.config.toFields)
    (clean : ∀ k, key? name = some k → k.kind = .text → Toml.Clean t)
    (done : (assign name t start).perform h = (.ok (path, v), h')) :
    ∃ k, key? name = some k ∧
      (k.Fits t → ∃ c, loaded.config.assignIn k.sectionName k.field v = .valid c ∧
        Value.getKey name c.toValue = some (k.settled v) ∧
        ((load none start).perform h').1 = .ok { config := c, file := some path, error := none }) ∧
      (¬ k.Fits t → ∃ issues, ((load none start).perform h').1 = .error (.invalid issues)) := by
  obtain ⟨k, config, known, takes, changed, own, unfiled', environment, again, read⟩ :=
    assign_writes unfiled universal legible loads sound settable clean done
  obtain ⟨mem, named⟩ := key?_some known
  obtain ⟨fits, unfit⟩ := key_decides mem takes loaded.config
  rw [named] at fits
  have result := load_foundAgain again unfiled' (changed.shaped mem takes)
    (changed.settable takes settable (clean k known)) (environment.symm ▸ quiet) own read
  refine ⟨k, known, fun fit => ?_, fun not => ?_⟩
  · obtain ⟨c, assigned, value⟩ := fits fit
    rcases Checked.cases_of_toOption (changed.read mem stable) with
      ⟨c', whole, taken⟩ | ⟨e, e', -, refused⟩
    · obtain rfl := Checked.valid.inj (taken.symm.trans assigned)
      rw [whole] at result
      exact ⟨c', assigned, value, result⟩
    · cases refused.symm.trans assigned
  · obtain ⟨e, refused⟩ := unfit not
    rcases Checked.cases_of_toOption (changed.read mem stable) with
      ⟨c', -, taken⟩ | ⟨issues, e', whole, -⟩
    · cases taken.symm.trans refused
    · rw [whole] at result
      exact ⟨issues, result⟩

/-- The address of a mirror is set in an empty project; without the slash at its end, it is
loaded. -/
theorem mirror_loaded : ∃ k, key? "toolchain.source_url".toList = some k ∧
    (k.Fits "file:///mirror/".toList → ∃ c,
      Config.assignIn {} k.sectionName k.field (.text "file:///mirror/".toList) = .valid c ∧
      Value.getKey "toolchain.source_url".toList c.toValue =
        some (k.settled (.text "file:///mirror/".toList)) ∧
      ((load none none).perform ((assign "toolchain.source_url".toList
        "file:///mirror/".toList none).perform emptyProject).2).1 =
          .ok { config := c, file := some "/.solcheck/config.toml".toList, error := none }) ∧
    (¬ k.Fits "file:///mirror/".toList → ∃ issues,
      ((load none none).perform ((assign "toolchain.source_url".toList
        "file:///mirror/".toList none).perform emptyProject).2).1 = .error (.invalid issues)) :=
  have quiet : Quiet emptyProject.environment := fun _ none => absurd none List.not_mem_nil
  have settable : SettableConfig (Config.toFields {}) := by decide +kernel
  @load_assign emptyProject emptyProject _ none { config := {} } _ _ _ _ trivial (fun _ => rfl)
    quiet (by decide +kernel) rfl rfl rfl
    settable (fun _ _ _ => by decide) rfl

/-- A name of a directory with a line break is accepted, and written as it is: the next load finds
no TOML in the file, and gives the defaults. -/
theorem line_break_lost : ∃ h₁ h₂,
    (load none none).perform emptyProject = (.ok { config := {} }, emptyProject) ∧
    (assign "layout.contracts_dir".toList "a\nb".toList none).perform emptyProject =
      (.ok ("/.solcheck/config.toml".toList, .text "a\nb".toList), h₁) ∧
    (load none none).perform h₁ =
      (.ok { config := {}, error := some (.text "Failed to parse config file: not TOML".toList) },
        h₂) :=
  ⟨_, _, rfl, rfl, rfl⟩

/-- A level that is none is accepted, and the next load fails. -/
example : ∃ h₁ h₂ issues,
    (assign "logging.level".toList "loud".toList none).perform emptyProject =
      (.ok ("/.solcheck/config.toml".toList, .text "loud".toList), h₁) ∧
    (load none none).perform h₁ = (.error (.invalid issues), h₂) :=
  ⟨_, _, _, rfl, rfl⟩

end ContractCheck.Settings
