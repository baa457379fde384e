import ContractCheck.Proofs.Settings.Changed
import ContractCheck.Proofs.Text.Separators

/-! # What the environment gives

A variable gives a field of a section, or an object of JSON gives the section.  The names of
variables are in any case, and so are the keys of an object; a field of the section is given under a
spelling if something among them means it (`Gives`).  What the environment gives of a section holds
just that (`gives_of_mem`, `mem_of_gives`), unless the section's own variable is null, which takes
back all the others.
-/
namespace ContractCheck

namespace Text

/-! ## Lower case -/

theorem toLower_same {c : Char} (other : ¬ (65 ≤ c.toNat ∧ c.toNat ≤ 90)) : c.toLower = c := by
  have bounds : ('A'.val ≤ c.val ∧ c.val ≤ 'Z'.val) ↔ 65 ≤ c.toNat ∧ c.toNat ≤ 90 := Iff.rfl
  rw [Char.toLower]
  exact dif_neg (bounds.not.mpr other)

theorem toNat_toLower {c : Char} (upper : 65 ≤ c.toNat ∧ c.toNat ≤ 90) :
    c.toLower.toNat = c.toNat + 32 := by
  have bounds : ('A'.val ≤ c.val ∧ c.val ≤ 'Z'.val) ↔ 65 ≤ c.toNat ∧ c.toNat ≤ 90 := Iff.rfl
  rw [Char.toLower, dif_pos (bounds.mpr upper)]
  have sum : (c.val + ('a'.val - 'A'.val)).toNat = (c.toNat + 32) % 2 ^ 32 := UInt32.toNat_add ..
  exact sum.trans (by omega)

theorem lower_append (t r : Text) : lower (t ++ r) = lower t ++ lower r := List.flatMap_append

theorem lower_singleton (c : Char) : lower [c] =
    if c = '\u0130' then ['i', '\u0307'] else if c = '\u212a' then ['k'] else [c.toLower] :=
  List.flatMap_singleton ..

theorem lower_lower (t : Text) : lower (lower t) = lower t := by
  induction t with
  | nil => rfl
  | cons c t ih =>
    have step : lower (c :: t) = lower [c] ++ lower t := lower_append [c] t
    rw [step, lower_append, ih]
    congr 1
    rw [lower_singleton]
    split
    · decide
    · split
      · decide
      · next dotted kelvin =>
        -- A letter in lower case is still an ASCII letter, so that neither exception applies to it.
        by_cases upper : 65 ≤ c.toNat ∧ c.toNat ≤ 90
        · have small := toNat_toLower upper
          rw [lower_singleton, if_neg, if_neg, toLower_same (by omega)]
          · intro same
            rw [same] at small
            have : '\u212a'.toNat = 8490 := rfl
            omega
          · intro same
            rw [same] at small
            have : '\u0130'.toNat = 304 := rfl
            omega
        · rw [toLower_same upper, lower_singleton, if_neg dotted, if_neg kelvin, toLower_same upper]
end Text

namespace Fields

variable {fs : Fields} {key k : Text} {v : Value}

theorem mem_keys_put : k ∈ (put key v fs).keys ↔ k = key ∨ k ∈ fs.keys := by
  induction fs with
  | nil => simp [put, keys]
  | cons f fs ih =>
    obtain ⟨k', w⟩ := f
    unfold put
    split
    · next same =>
      subst same
      simp [keys]
    · have rest := ih
      simp only [keys, List.map_cons, List.mem_cons] at rest ⊢
      rw [rest]
      tauto

theorem nodup_put (distinct : fs.keys.Nodup) : (put key v fs).keys.Nodup := by
  induction fs with
  | nil => exact List.nodup_cons.mpr ⟨List.not_mem_nil, List.nodup_nil⟩
  | cons f fs ih =>
    obtain ⟨k', w⟩ := f
    obtain ⟨new, distinct⟩ := List.nodup_cons.mp distinct
    unfold put
    split
    · next same =>
      subst same
      exact List.nodup_cons.mpr ⟨new, distinct⟩
    · next other =>
      refine List.nodup_cons.mpr ⟨fun mem => ?_, ih distinct⟩
      exact (mem_keys_put.mp mem).elim other new

theorem isSome_get? : (fs.get? k).isSome ↔ k ∈ fs.keys := by
  constructor
  · intro some
    obtain ⟨v, here⟩ := Option.isSome_iff_exists.mp some
    exact List.mem_map_of_mem (mem_of_get? here)
  · intro mem
    induction fs with
    | nil => cases mem
    | cons f fs ih =>
      rw [get?_cons]
      split
      · rfl
      · next other => exact ih ((List.mem_cons.mp mem).resolve_left (Ne.symm other))

end Fields

namespace Settings

open Fields (put)

variable {fs under upper : Fields} {key k : Text} {v : Value}

/-! ## Laying over -/

/-- A value laid over what was there, if anything was. -/
def laidOver : Option Value → Value → Value
  | some below, v => overlayValue below v
  | none, v => v

theorem laidOver_table (below : Option Value) (fs : Fields) :
    ∃ whole, laidOver below (.table fs) = .table whole := by
  rcases below with _ | below
  · exact ⟨fs, rfl⟩
  · cases below <;> simp [laidOver, overlayValue]

/-- What is no table replaces what was there. -/
theorem laidOver_plain (below : Option Value) (plain : ∀ fs, v ≠ .table fs) :
    laidOver below v = v := by
  rcases below with _ | below
  · rfl
  · cases v <;> first | rfl | exact absurd rfl (plain _)

/-- **Keys are laid over one by one.** -/
theorem get?_overlay (distinct : upper.keys.Nodup) (under : Fields) (k : Text) :
    Fields.get? (overlay under upper) k =
    match upper.get? k with
    | some v => some (laidOver (under.get? k) v)
    | none => under.get? k := by
  induction upper generalizing under with
  | nil =>
    rw [overlay]
    rfl
  | cons f upper ih =>
    obtain ⟨k', v⟩ := f
    obtain ⟨new, distinct⟩ := List.nodup_cons.mp distinct
    have step : overlay under ((k', v) :: upper) =
        overlay (put k' (laidOver (under.get? k') v) under) upper := by
      rw [overlay]
      cases Fields.get? under k' <;> rfl
    rw [step, ih distinct, Fields.get?_cons]
    by_cases same : k' = k
    · subst same
      rw [if_pos rfl, Fields.get?_none new, Fields.get?_put_self]
    · rw [if_neg same, Fields.get?_put_of_ne _ _ (Ne.symm same)]

theorem mem_overlay (mem : (k, v) ∈ overlay under upper) :
    (k, v) ∈ under ∨ ∃ w, (k, w) ∈ upper ∧ ∃ below, v = laidOver below w := by
  induction upper generalizing under with
  | nil =>
    rw [overlay] at mem
    exact .inl mem
  | cons f upper ih =>
    obtain ⟨k', w⟩ := f
    have step : overlay under ((k', w) :: upper) =
        overlay (put k' (laidOver (under.get? k') w) under) upper := by
      rw [overlay]
      cases Fields.get? under k' <;> rfl
    rw [step] at mem
    rcases ih mem with mem | ⟨u, mem, laid⟩
    · rcases mem_put mem with same | mem
      · obtain ⟨rfl, rfl⟩ := Prod.mk.inj same
        exact .inr ⟨w, List.mem_cons_self, _, rfl⟩
      · exact .inl mem
    · exact .inr ⟨u, List.mem_cons_of_mem _ mem, laid⟩

theorem mem_keys_overlay : k ∈ (overlay under upper).keys ↔ k ∈ under.keys ∨ k ∈ upper.keys := by
  induction upper generalizing under with
  | nil => simp [overlay, Fields.keys]
  | cons f upper ih =>
    obtain ⟨k', w⟩ := f
    rw [overlay, ih, Fields.mem_keys_put]
    simp only [Fields.keys, List.map_cons, List.mem_cons]
    tauto

/-! ## Spelling -/

theorem nodup_respell (section_ : Text) (fs : Fields) : (respell section_ fs).keys.Nodup := by
  suffices from_ : ∀ acc : Fields, acc.keys.Nodup →
      (fs.foldl (fun acc f => put (fieldOf section_ f.1) f.2 acc) acc).keys.Nodup from from_ []
        List.nodup_nil
  induction fs with
  | nil => exact fun _ distinct => distinct
  | cons f fs ih => exact fun acc distinct => ih _ (Fields.nodup_put distinct)

/-- What is respelled is one of the fields that mean the key. -/
theorem of_mem_respell {section_ : Text} (mem : (k, v) ∈ respell section_ fs) :
    ∃ key, (key, v) ∈ fs ∧ fieldOf section_ key = k := by
  suffices from_ : ∀ acc : Fields,
      (k, v) ∈ fs.foldl (fun acc f => put (fieldOf section_ f.1) f.2 acc) acc →
      (k, v) ∈ acc ∨ ∃ key, (key, v) ∈ fs ∧
      fieldOf section_ key = k from (from_ [] mem).resolve_left List.not_mem_nil
  clear mem
  induction fs with
  | nil => exact fun _ mem => .inl mem
  | cons f fs ih =>
    intro acc mem
    rcases ih _ mem with mem | ⟨key, mem, means⟩
    · rcases mem_put mem with same | mem
      · obtain ⟨rfl, rfl⟩ := Prod.mk.inj same
        exact .inr ⟨f.1, List.mem_cons_self, rfl⟩
      · exact .inl mem
    · exact .inr ⟨key, List.mem_cons_of_mem f mem, means⟩

theorem mem_keys_respell {section_ : Text} (mem : key ∈ fs.keys) :
    fieldOf section_ key ∈ (respell section_ fs).keys := by
  suffices from_ : ∀ (k : Text) (acc : Fields),
      (k ∈ acc.keys ∨ ∃ key ∈ fs.keys, fieldOf section_ key = k) →
      k ∈ (fs.foldl (fun acc f => put (fieldOf section_ f.1) f.2 acc) acc).keys from from_ _ []
        (.inr ⟨key, mem, rfl⟩)
  clear mem
  induction fs with
  | nil =>
    rintro k acc (mem | ⟨key, mem, -⟩)
    · exact mem
    · cases mem
  | cons f fs ih =>
    rintro k acc (mem | ⟨key, mem, means⟩)
    · exact ih k _ (.inl (Fields.mem_keys_put.mpr (.inr mem)))
    · rcases List.mem_cons.mp mem with rfl | mem
      · exact ih k _ (.inl (Fields.mem_keys_put.mpr (.inl means.symm)))
      · exact ih k _ (.inr ⟨key, mem, means⟩)

/-! ## Fields from variables -/

variable {e : Environment} {section_ : Text}

/-- What begins the names of the variables for the fields of a section. -/
def fieldLead (section_ : Text) : Text := variableLead ++ section_ ++ variableSeparator

/-- A field is placed where its path says; a path that goes on makes a table of it, or is hidden. -/
theorem placeAt_cases (v : Value) (path : List Text) (fs : Fields) :
    (∃ k, path = [k] ∧ placeAt v path fs = put k v fs) ∨
    (∀ k, path ≠ [k]) ∧ (placeAt v path fs = fs ∨ ∃ k inner,
      placeAt v path fs = put k (.table inner) fs) := by
  match path with
  | [] => exact .inr ⟨nofun, .inl rfl⟩
  | [k] => exact .inl ⟨k, rfl, rfl⟩
  | k :: k' :: ks =>
    refine .inr ⟨nofun, ?_⟩
    rw [placeAt]
    split
    · exact .inr ⟨k, _, rfl⟩
    · exact .inr ⟨k, _, rfl⟩
    · exact .inl rfl

/-- The fields with what one variable gives. -/
def place (section_ : Text) (fs : Fields) (variable_ : Text × Text) : Option Fields :=
  if Text.startsWith variable_.1 (fieldLead section_) then
    let path := Text.splitOn variableSeparator (variable_.1.drop (fieldLead section_).length)
    (variableValue? section_ path variable_.2).map fun v => placeAt v path fs
  else some fs

/-- What is there after a variable was there before, is its own, or is a table. -/
theorem of_mem_place {variable_ : Text × Text} {fs' : Fields}
    (placed : place section_ fs variable_ = some fs')
    (mem : (k, v) ∈ fs') : (k, v) ∈ fs ∨ (∃ inner, v = .table inner) ∨
      variable_.1 = fieldLead section_ ++ k ∧ variableValue? section_ [k] variable_.2 = some v := by
  unfold place at placed
  split at placed
  · next starts =>
    obtain ⟨r, named⟩ := Text.startsWith_iff.mp starts
    obtain ⟨w, stands, rfl⟩ := Option.map_eq_some_iff.mp placed
    rcases placeAt_cases w (Text.splitOn variableSeparator
      (variable_.1.drop (fieldLead section_).length)) fs with
      ⟨key, path, put_⟩ | ⟨-, same | ⟨key, inner, put_⟩⟩
    · rw [put_] at mem
      rcases mem_put mem with same | mem
      · obtain ⟨rfl, rfl⟩ := Prod.mk.inj same
        rw [path] at stands
        rw [← named, List.drop_left] at path
        have whole : r = k := by
          have joined := Text.join_splitOn (by decide : variableSeparator ≠ []) r
          rw [path] at joined
          exact joined.symm
        exact .inr (.inr ⟨by rw [← named, whole], stands⟩)
      · exact .inl mem
    · rw [same] at mem
      exact .inl mem
    · rw [put_] at mem
      rcases mem_put mem with same | mem
      · exact .inr (.inl ⟨inner, (Prod.mk.inj same).2⟩)
      · exact .inl mem
  · rw [Option.some.inj placed]
    exact .inl mem

theorem mem_keys_place {variable_ : Text × Text} {fs' : Fields}
    (placed : place section_ fs variable_ = some fs')
    (there : k ∈ fs.keys ∨ variable_.1 = fieldLead section_ ++ k ∧ ¬ variableSeparator <:+: k) :
    k ∈ fs'.keys := by
  unfold place at placed
  split at placed
  · obtain ⟨w, -, rfl⟩ := Option.map_eq_some_iff.mp placed
    have own : variable_.1 = fieldLead section_ ++ k ∧ ¬ variableSeparator <:+: k →
        Text.splitOn variableSeparator (variable_.1.drop (fieldLead section_).length) = [k] :=
        fun ⟨named, free⟩ => by
      rw [named, List.drop_left, Text.splitOn_of_free free]
    rcases placeAt_cases w (Text.splitOn variableSeparator
      (variable_.1.drop (fieldLead section_).length)) fs with
      ⟨key, path, put_⟩ | ⟨more, same | ⟨key, inner, put_⟩⟩
    · rw [put_, Fields.mem_keys_put]
      exact there.symm.imp_left fun mine => List.head_eq_of_cons_eq ((own mine).symm.trans path)
    · rw [same]
      exact there.resolve_right fun mine => more k (own mine)
    · rw [put_, Fields.mem_keys_put]
      exact .inr (there.resolve_right fun mine => more k (own mine))
  · next other =>
    rw [← Option.some.inj placed]
    refine there.resolve_right fun ⟨named, _⟩ => other ?_
    rw [named]
    exact Text.startsWith_iff.mpr (List.prefix_append _ _)

/-- **Variables give a section just their own fields**, and tables where their names go on. -/
theorem of_mem_explode {fs : Fields} (given : explode section_ e = some fs) (mem : (k, v) ∈ fs) :
    (∃ inner, v = .table inner) ∨ ∃ t, (fieldLead section_ ++ k, t) ∈ e ∧
    variableValue? section_ [k] t = some v := by
  suffices from_ : ∀ acc : Fields, e.foldlM (place section_) acc = some fs →
    (k, v) ∈ acc ∨ (∃ inner, v = .table inner) ∨
      ∃ t, (fieldLead section_ ++ k, t) ∈ e ∧ variableValue? section_ [k] t = some v from
    (from_ [] given).resolve_left List.not_mem_nil
  clear given
  induction e with
  | nil =>
    intro acc done
    obtain rfl := Option.some.inj done
    exact .inl mem
  | cons x e ih =>
    intro acc done
    rw [List.foldlM_cons] at done
    obtain ⟨next, placed, done⟩ := Option.bind_eq_some_iff.mp done
    rcases ih next done with earlier | table | ⟨t, own, stands⟩
    · rcases of_mem_place placed earlier with earlier | table | ⟨named, stands⟩
      · exact .inl earlier
      · exact .inr (.inl table)
      · exact .inr (.inr ⟨x.2, by rw [← named]; exact List.mem_cons_self, stands⟩)
    · exact .inr (.inl table)
    · exact .inr (.inr ⟨t, List.mem_cons_of_mem x own, stands⟩)

theorem mem_keys_explode {fs : Fields} {t : Text} (given : explode section_ e = some fs)
    (own : (fieldLead section_ ++ k, t) ∈ e) (free : ¬ variableSeparator <:+: k) : k ∈ fs.keys := by
  suffices from_ : ∀ acc : Fields, e.foldlM (place section_) acc = some fs →
      (k ∈ acc.keys ∨ (fieldLead section_ ++ k, t) ∈ e) → k ∈ fs.keys from from_ [] given (.inr own)
  clear given own
  induction e with
  | nil =>
    intro acc done there
    obtain rfl := Option.some.inj done
    exact there.resolve_right List.not_mem_nil
  | cons x e ih =>
    intro acc done there
    rw [List.foldlM_cons] at done
    obtain ⟨next, placed, done⟩ := Option.bind_eq_some_iff.mp done
    refine ih next done ?_
    rcases there with earlier | own
    · exact .inl (mem_keys_place placed (.inl earlier))
    · rcases List.mem_cons.mp own with rfl | own
      · exact .inl (mem_keys_place placed (.inr ⟨rfl, free⟩))
      · exact .inr own

/-! ## Sections -/

/-- What the variables say of a field of a section under one of its spellings: a variable of its own
gives it, or an object of JSON for the whole section. -/
inductive Gives (e : Environment) (section_ k : Text) (v : Value) : Prop where
  | own (t : Text) (named : (fieldLead section_ ++ Text.lower k, t) ∈ lowerNames e)
      (stands : variableValue? section_ [Text.lower k] t = some v)
  | inside (t : Text) (whole : Fields) (key : Text)
      (named : (lowerNames e).lookup (variableLead ++ section_) = some t)
      (parsed : Json.read? t = some (.table whole)) (mem : (key, v) ∈ whole)
      (means : fieldOf section_ key = k)

/-- The variable of a whole section is null: then nothing else in the environment counts for the
section. -/
def Muted (e : Environment) (section_ : Text) : Prop :=
  ∃ t, (lowerNames e).lookup (variableLead ++ section_) = some t ∧ Json.read? t = some .null

/-- The spellings of the fields of a section mean themselves, also in lower case, and have no
separator in them. -/
theorem spelling_means : ∀ name ∈ sections, ∀ k ∈ spellings name,
    fieldOf name (Text.lower k) = k ∧ ¬ variableSeparator <:+: Text.lower k := by
  decide +kernel

theorem fieldOf_spelling (listed : k ∈ spellings section_) (means : fieldOf section_ key = k) :
    Text.lower key = Text.lower k := by
  unfold fieldOf at means
  cases found : (spellings section_).find? fun s => Text.lower s = Text.lower key with
  | some s =>
    rw [found] at means
    obtain rfl : s = k := means
    have same := List.find?_some found
    exact (of_decide_eq_true same).symm
  | none =>
    rw [found] at means
    obtain rfl : key = k := means
    exact rfl

/-- What the environment's table for a section is made of. -/
theorem sectionFrom?_table {table : Fields}
    (given : sectionFrom? (lowerNames e) section_ = some (some (.table table))) :
    ∃ whole fields, table = respell section_ whole ∧ explode section_ (lowerNames e) = some fields ∧
      ((lowerNames e).lookup (variableLead ++ section_) = none ∧ whole = fields ∨
        ∃ t under, (lowerNames e).lookup (variableLead ++ section_) = some t ∧
          Json.read? t = some (.table under) ∧
          whole = overlay under fields) := by
  unfold sectionFrom? at given
  split at given
  · next absent =>
    obtain ⟨fields, exploded, shape⟩ := Option.map_eq_some_iff.mp given
    split at shape
    · cases shape
    · exact ⟨fields, fields, (Value.table.inj (Option.some.inj shape)).symm, exploded,
        .inl ⟨absent, rfl⟩⟩
  · next t named =>
    split at given
    · cases given
    · cases given
    · next under parsed =>
      obtain ⟨fields, exploded, shape⟩ := Option.map_eq_some_iff.mp given
      exact ⟨_, fields, (Value.table.inj (Option.some.inj shape)).symm, exploded,
        .inr ⟨t, under, named, parsed, rfl⟩⟩
    · next v plain parsed =>
      obtain rfl := Option.some.inj (Option.some.inj given)
      exact absurd rfl (plain table)

theorem sectionFrom?_muted (muted : Muted e section_) :
    sectionFrom? (lowerNames e) section_ = some none := by
  obtain ⟨t, named, parsed⟩ := muted
  rw [sectionFrom?, named]
  dsimp only
  rw [parsed]

/-- Where the environment gives a section nothing, no variable says anything of it that counts. -/
theorem sectionFrom?_none (given : sectionFrom? (lowerNames e) section_ = some none)
    (heard : ¬ Muted e section_) :
    (lowerNames e).lookup (variableLead ++ section_) = none ∧
    explode section_ (lowerNames e) = some [] := by
  unfold sectionFrom? at given
  split at given
  · next absent =>
    obtain ⟨fields, exploded, shape⟩ := Option.map_eq_some_iff.mp given
    split at shape
    · next empty => exact ⟨absent, exploded.trans (congrArg some (List.isEmpty_iff.mp empty))⟩
    · cases shape
  · next t named =>
    split at given
    · cases given
    · next parsed => exact absurd ⟨t, named, parsed⟩ heard
    · obtain ⟨fields, exploded, shape⟩ := Option.map_eq_some_iff.mp given
      cases shape
    · cases given

theorem lower_of_mem_lowerNames {name t : Text} (mem : (name, t) ∈ lowerNames e) :
    Text.lower name = name := by
  suffices from_ : ∀ acc : Environment, (∀ v ∈ acc, Text.lower v.1 = v.1) →
    ∀ v ∈ e.foldl (fun acc v =>
      let name := Text.lower v.1
      if (acc.lookup name).isSome then acc.map fun w => if w.1 = name then (name, v.2) else w
      else acc ++ [(name, v.2)]) acc, Text.lower v.1 = v.1 from from_ [] nofun _ mem
  clear mem
  induction e with
  | nil => exact fun _ low => low
  | cons x e ih =>
    intro acc low
    refine ih _ fun w mem => ?_
    dsimp only at mem
    split at mem
    · obtain ⟨w, own, rfl⟩ := List.mem_map.mp mem
      split
      · exact Text.lower_lower x.1
      · exact low w own
    · rcases List.mem_append.mp mem with own | own
      · exact low w own
      · rw [List.mem_singleton.mp own]
        exact Text.lower_lower x.1

theorem lower_fieldLead : ∀ name ∈ sections, Text.lower (fieldLead name) = fieldLead name := by
  decide

/-- **What the environment gives under a spelling, one of its variables says**; if none does, it is
a table. -/
theorem gives_of_mem (mem_ : section_ ∈ sections) (listed : k ∈ spellings section_) {table : Fields}
    (given : sectionFrom? (lowerNames e) section_ = some (some (.table table)))
    (mem : (k, v) ∈ table) :
    Gives e section_ k v ∨ ∃ inner, v = .table inner := by
  obtain ⟨whole, fields, rfl, exploded, from_⟩ := sectionFrom?_table given
  obtain ⟨key, mem, means⟩ := of_mem_respell mem
  -- The names of variables are in lower case, and so is the part of one that means the field.
  have own : ∀ w, (key, w) ∈ fields → Gives e section_ k w ∨ ∃ inner, w = .table inner := by
    intro w own
    rcases of_mem_explode exploded own with table | ⟨t, named, stands⟩
    · exact .inr table
    · have low := lower_of_mem_lowerNames named
      rw [Text.lower_append, lower_fieldLead section_ mem_] at low
      have same : key = Text.lower k :=
        (List.append_cancel_left low).symm.trans (fieldOf_spelling listed means)
      rw [same] at named stands
      exact .inl (.own t named stands)
  rcases from_ with ⟨-, rfl⟩ | ⟨t, under, named, parsed, rfl⟩
  · exact own v mem
  · rcases mem_overlay mem with mem | ⟨w, placed, below, rfl⟩
    · exact .inl (.inside t under key named parsed mem means)
    · by_cases plain : ∀ fs, w ≠ .table fs
      · rw [laidOver_plain below plain]
        exact own w placed
      · obtain ⟨fs, same⟩ := not_forall.mp plain
        rw [not_not.mp same]
        exact .inr (laidOver_table below fs)

/-- **What one of the variables says, the environment gives.** -/
theorem mem_of_gives (mem_ : section_ ∈ sections) (listed : k ∈ spellings section_) {table : Fields}
    (given : sectionFrom? (lowerNames e) section_ = some (some (.table table)))
    (gives : Gives e section_ k v) :
    k ∈ table.keys := by
  obtain ⟨whole, fields, rfl, exploded, from_⟩ := sectionFrom?_table given
  obtain ⟨means, free⟩ := spelling_means section_ mem_ k listed
  cases gives with
  | own t named stands =>
    have there := mem_keys_explode exploded named free
    rw [← means]
    rcases from_ with ⟨-, rfl⟩ | ⟨-, under, -, -, rfl⟩
    · exact mem_keys_respell there
    · exact mem_keys_respell (mem_keys_overlay.mpr (.inr there))
  | inside t under key named parsed mem means =>
    rcases from_ with ⟨absent, -⟩ | ⟨t', under', named', parsed', rfl⟩
    · rw [absent] at named
      cases named
    · obtain rfl := Option.some.inj (named.symm.trans named')
      obtain rfl := Value.table.inj (Option.some.inj (parsed.symm.trans parsed'))
      rw [← means]
      exact mem_keys_respell (mem_keys_overlay.mpr (.inl (List.mem_map_of_mem mem)))

theorem not_gives (mem_ : section_ ∈ sections) (listed : k ∈ spellings section_)
    (heard : ¬ Muted e section_)
    (given : sectionFrom? (lowerNames e) section_ = some none) : ¬ Gives e section_ k v := by
  obtain ⟨absent, exploded⟩ := sectionFrom?_none given heard
  intro gives
  cases gives with
  | own t named stands =>
    have known := mem_keys_explode exploded named (spelling_means section_ mem_ k listed).2
    exact absurd known List.not_mem_nil
  | inside t under key named parsed mem means =>
    rw [absent] at named
    cases named

/-! ## All sections -/

/-- One section after the other is put to what the environment gives. -/
theorem foldlM_sections {f : Text → Option (Option Value)} {names : List Text} {acc upper : Fields}
    (distinct : names.Nodup) (fresh : ∀ name ∈ names, acc.get? name = none)
    (single : acc.keys.Nodup)
    (done : names.foldlM (fun (fs : Fields) s => (f s).map fun v =>
      match v with
      | some v => put s v fs
      | none => fs) acc = some upper) :
    upper.keys.Nodup ∧ (∀ name ∈ names, f name = some (upper.get? name)) ∧
    ∀ name ∉ names, upper.get? name = acc.get? name := by
  induction names generalizing acc with
  | nil =>
    obtain rfl := Option.some.inj done
    exact ⟨single, nofun, fun _ _ => rfl⟩
  | cons name names ih =>
    obtain ⟨new, distinct⟩ := List.nodup_cons.mp distinct
    obtain ⟨absent, fresh⟩ := List.forall_mem_cons.mp fresh
    rw [List.foldlM_cons] at done
    obtain ⟨next, step, done⟩ := Option.bind_eq_some_iff.mp done
    obtain ⟨given, found, rfl⟩ := Option.map_eq_some_iff.mp step
    -- Whatever is put for this section, it is not looked at again, and the others are as they were.
    cases given with
    | none =>
      obtain ⟨single, each, others⟩ := ih distinct fresh single done
      refine ⟨single, List.forall_mem_cons.mpr ⟨?_, each⟩, fun other out => ?_⟩
      · rw [others name new, absent, found]
      · exact others other fun mem => out (List.mem_cons_of_mem name mem)
    | some v =>
      have apart : ∀ other, other ≠ name → Fields.get? (put name v acc) other = acc.get? other :=
        fun other different =>
        Fields.get?_put_of_ne acc v different
      obtain ⟨single, each, others⟩ := ih distinct
        (fun other mem => (apart other fun same => new (same ▸ mem)).trans (fresh other mem))
        (Fields.nodup_put single) done
      refine ⟨single, List.forall_mem_cons.mpr ⟨?_, each⟩, fun other out => ?_⟩
      · rw [others name new, Fields.get?_put_self, found]
      · rw [others other fun mem => out (List.mem_cons_of_mem name mem)]
        exact apart other fun same => out (same ▸ List.mem_cons_self)

/-- **The environment gives each section what its variables make of it.** -/
theorem fromEnvironment?_some {upper : Fields} (given : fromEnvironment? e = some upper) :
    upper.keys.Nodup ∧ ∀ name ∈ sections, sectionFrom? (lowerNames e) name =
      some (upper.get? name) :=
  have single : (Fields.keys []).Nodup := List.nodup_nil
  have all := foldlM_sections (by decide) (fun _ _ => rfl) single given
  ⟨all.1, all.2.1⟩

theorem sectionFrom?_nodup {table : Fields}
    (given : sectionFrom? (lowerNames e) section_ = some (some (.table table))) :
    table.keys.Nodup := by
  obtain ⟨whole, -, rfl, -⟩ := sectionFrom?_table given
  exact nodup_respell section_ whole

end Settings
end ContractCheck
