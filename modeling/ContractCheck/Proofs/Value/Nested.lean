import ContractCheck.Value.Path
import ContractCheck.Host.Basic

/-! # Reading and writing behind dotted keys

Reading and writing behind a dotted key are the two halves of a lens (`putKey_lens`).  Every step of
a write goes below a key, into the table that is there or into one that is new (`Fields.Below`), and
each law is an induction on the path over that step: what was written is read, a path that parts
with the written one is read as before, and of two writes the last one counts.

A write fails exactly if a value on the way is no table (`Obstructed`).  In place it makes the
missing tables as it goes, so a write that fails might leave some behind.  It does not, since
nothing can stand in the way below a table that is new (`writeIn_eq`).  Values are trees: no table
stands in two places, so a change in one place is a change in no other.
-/
namespace ContractCheck

namespace Fields

variable {fs : Fields} {k : Text} {v : Value}

/-- Writing what is there changes nothing. -/
theorem put_of_get? (here : fs.get? k = some v) : put k v fs = fs := by
  induction fs with
  | nil => cases here
  | cons f fs ih =>
    obtain ⟨k', w⟩ := f
    by_cases same : k' = k
    · subst same
      have own : w = v := by simpa [get?] using here
      rw [put, if_pos rfl, own]
    · rw [get?, List.lookup_cons, beq_false_of_ne (Ne.symm same)] at here
      rw [put, if_neg same, ih here]

/-- The fields that a path goes on in below a key: those of the table that is there, or none if
there is nothing. -/
inductive Below (fs : Fields) (k : Text) : Fields → Prop where
  | table {inner : Fields} (here : fs.get? k = some (.table inner)) : Below fs k inner
  | fresh (missing : fs.get? k = none) : Below fs k []

theorem Below.getD {inner : Fields} (below : Below fs k inner) :
    (fs.get? k).getD (.table []) = .table inner := by
  cases below with
  | table here => rw [here, Option.getD_some]
  | fresh missing => rw [missing, Option.getD_none]

/-- A path goes on below a key, or there is a value that is no table. -/
theorem below_or_plain (fs : Fields) (k : Text) :
    (∃ inner, Below fs k inner) ∨ ∃ level, fs.get? k = some level ∧ level.fields? = none := by
  cases found : fs.get? k with
  | none => exact .inl ⟨[], .fresh found⟩
  | some level =>
    cases level with
    | table inner => exact .inl ⟨inner, .table found⟩
    | _ => exact .inr ⟨_, rfl, rfl⟩

end Fields

namespace Value

open Fields (put Below below_or_plain)

variable {fs fs' inner : Fields} {k k' : Text} {ks path other : List Text}
  {v d level new last : Value}

/-! ## Paths -/

/-- Neither of two paths leads on to the end of the other. -/
def Apart (p q : List Text) : Prop := ¬ p <+: q ∧ ¬ q <+: p

instance (p q : List Text) : Decidable (Apart p q) :=
  inferInstanceAs (Decidable (¬ p <+: q ∧ ¬ q <+: p))

theorem Apart.ne_nil (apart : Apart path other) : other ≠ [] := by
  intro ended
  subst ended
  exact apart.2 List.nil_prefix

/-- A path apart from another differs from it at the first part, or is apart from it behind that. -/
theorem Apart.cons (apart : Apart (k :: ks) other) :
    ∃ j rest, other = j :: rest ∧ (j = k → Apart ks rest) := by
  obtain ⟨j, rest, rfl⟩ := List.exists_cons_of_ne_nil apart.ne_nil
  refine ⟨j, rest, rfl, ?_⟩
  intro same
  subst same
  constructor
  · intro ahead
    exact apart.1 (List.cons_prefix_cons.mpr ⟨rfl, ahead⟩)
  · intro ahead
    exact apart.2 (List.cons_prefix_cons.mpr ⟨rfl, ahead⟩)

theorem pathOf_cons (key : Text) : ∃ k ks, pathOf key = k :: ks :=
  List.exists_cons_of_ne_nil (Text.splitOn_ne_nil ['.'] key)

/-! ## One step of a path -/

theorem getIn_table (k : Text) (ks : List Text) (fs : Fields) :
    getIn (k :: ks) (.table fs) = (fs.get? k).bind (getIn ks) := by
  rw [getIn]
  cases fs.get? k <;> rfl

theorem getIn_below (below : Below fs k inner) (more : ks ≠ []) :
    getIn (k :: ks) (.table fs) = getIn ks (.table inner) := by
  cases below with
  | table here => rw [getIn_table, here, Option.bind_some]
  | fresh missing =>
    obtain ⟨k', ks, rfl⟩ := List.exists_cons_of_ne_nil more
    rw [getIn_table, missing]
    rfl

theorem putIn_below (below : Below fs k inner) :
    putIn new (k :: k' :: ks) fs = (putIn new (k' :: ks) inner).map fun inner' =>
    put k (.table inner') fs := by
  cases below with
  | table here => rw [putIn, here]
  | fresh missing => rw [putIn, missing]

theorem putIn_plain (here : fs.get? k = some level) (plain : level.fields? = none) :
    putIn new (k :: k' :: ks) fs = none := by
  rw [putIn, here]
  cases level with
  | table inner => cases plain
  | _ => rfl

/-- A write that goes below a key has written there, and put the result in its place. -/
theorem putIn_some (written : putIn new (k :: k' :: ks) fs = some fs') :
    ∃ inner inner', Below fs k inner ∧ putIn new (k' :: ks) inner = some inner' ∧
      put k (.table inner') fs = fs' := by
  rcases below_or_plain fs k with ⟨inner, below⟩ | ⟨level, here, plain⟩
  · rw [putIn_below below] at written
    obtain ⟨inner', inside, same⟩ := Option.map_eq_some_iff.mp written
    exact ⟨inner, inner', below, inside, same⟩
  · cases (putIn_plain here plain).symm.trans written

/-- What a write has put below a key is where the next one goes on. -/
theorem below_put (fs inner : Fields) (k : Text) : Below (put k (.table inner) fs) k inner :=
  .table (Fields.get?_put_self fs k (.table inner))

/-! ## The laws along a path -/

/-- What was written is read. -/
theorem getIn_putIn (written : putIn new (k :: ks) fs = some fs') :
    getIn (k :: ks) (.table fs') = some new := by
  induction ks generalizing k fs fs' with
  | nil =>
    obtain rfl := Option.some.inj written
    rw [getIn_table, Fields.get?_put_self]
    rfl
  | cons k' ks ih =>
    obtain ⟨inner, inner', -, inside, rfl⟩ := putIn_some written
    rw [getIn_below (below_put fs inner' k) (List.cons_ne_nil k' ks)]
    exact ih inside

/-- A path apart from the written one is read as before. -/
theorem getIn_putIn_of_apart (written : putIn new (k :: ks) fs = some fs')
    (apart : Apart (k :: ks) other) :
    getIn other (.table fs') = getIn other (.table fs) := by
  induction ks generalizing k fs fs' other with
  | nil =>
    obtain rfl := Option.some.inj written
    obtain ⟨j, rest, rfl, further⟩ := apart.cons
    have different : j ≠ k := fun same => (further same).1 List.nil_prefix
    rw [getIn_table, getIn_table, Fields.get?_put_of_ne _ _ different]
  | cons k' ks ih =>
    obtain ⟨inner, inner', below, inside, rfl⟩ := putIn_some written
    obtain ⟨j, rest, rfl, further⟩ := apart.cons
    by_cases same : j = k
    · subst same
      -- The paths share this part, so they part in the tables below it.
      have apart' := further rfl
      rw [getIn_below (below_put fs inner' j) apart'.ne_nil, getIn_below below apart'.ne_nil]
      exact ih inside apart'
    · rw [getIn_table, getIn_table, Fields.get?_put_of_ne _ _ same]

/-- Of two writes the last one counts. -/
theorem putIn_putIn (written : putIn new (k :: ks) fs = some fs') :
    putIn last (k :: ks) fs' = putIn last (k :: ks) fs := by
  induction ks generalizing k fs fs' with
  | nil =>
    obtain rfl := Option.some.inj written
    exact congrArg some (Fields.put_put fs k new last)
  | cons k' ks ih =>
    obtain ⟨inner, inner', below, inside, rfl⟩ := putIn_some written
    have put_last (inner'' : Fields) :
        put k (.table inner'') (put k (.table inner') fs) = put k (.table inner'') fs :=
      Fields.put_put fs k (.table inner') (.table inner'')
    rw [putIn_below (below_put fs inner' k), putIn_below below, ih inside]
    simp only [put_last]

/-- Writing what is read changes nothing. -/
theorem putIn_getIn (there : getIn (k :: ks) (.table fs) = some v) :
    putIn v (k :: ks) fs = some fs := by
  induction ks generalizing k fs with
  | nil =>
    rw [getIn_table] at there
    obtain ⟨level, here, same⟩ := Option.bind_eq_some_iff.mp there
    obtain rfl := Option.some.inj same
    exact congrArg some (Fields.put_of_get? here)
  | cons k' ks ih =>
    rw [getIn_table] at there
    obtain ⟨level, here, inside⟩ := Option.bind_eq_some_iff.mp there
    cases level with
    | table inner =>
      rw [putIn_below (.table here), ih inside, Option.map_some, Fields.put_of_get? here]
    | _ => cases inside

/-! ## What stands in the way -/

/-- A value on the way to the end of a path is no table. -/
def Obstructed (path : List Text) (d : Value) : Prop :=
  ∃ way v, way <+: path ∧ way ≠ path ∧ getIn way d = some v ∧ v.fields? = none

theorem not_obstructed_nil : ¬ Obstructed [] d := by
  rintro ⟨way, v, ahead, short, -, -⟩
  exact short (List.prefix_nil.mp ahead)

theorem obstructed_of_plain (plain : d.fields? = none) : Obstructed (k :: ks) d :=
  ⟨[], d, List.nil_prefix, nofun, rfl, plain⟩

/-- What stands in the way of a path in a table stands in the way below its first key. -/
theorem obstructed_table : Obstructed (k :: ks) (.table fs) ↔ ∃ level, fs.get? k = some level ∧
    Obstructed ks level := by
  constructor
  · rintro ⟨way, v, ahead, short, found, plain⟩
    cases way with
    | nil =>
      obtain rfl := Option.some.inj found
      cases plain
    | cons j way =>
      obtain ⟨rfl, ahead'⟩ := List.cons_prefix_cons.mp ahead
      have short' : way ≠ ks := fun same => short (congrArg (j :: ·) same)
      rw [getIn_table] at found
      obtain ⟨level, here, found'⟩ := Option.bind_eq_some_iff.mp found
      exact ⟨level, here, way, v, ahead', short', found', plain⟩
  · rintro ⟨level, here, way, v, ahead, short, found, plain⟩
    have ahead' : k :: way <+: k :: ks := List.cons_prefix_cons.mpr ⟨rfl, ahead⟩
    have short' : k :: way ≠ k :: ks := fun same => short (List.cons.inj same).2
    refine ⟨k :: way, v, ahead', short', ?_, plain⟩
    rw [getIn_table, here]
    exact found

/-- Nothing stands in the way in a table that is new. -/
theorem not_obstructed_fresh : ¬ Obstructed path (.table []) := by
  cases path with
  | nil => exact not_obstructed_nil
  | cons k ks =>
    intro blocked
    obtain ⟨level, here, -⟩ := obstructed_table.mp blocked
    cases here

theorem obstructed_below (below : Below fs k inner) :
    Obstructed (k :: ks) (.table fs) ↔ Obstructed ks (.table inner) := by
  rw [obstructed_table]
  constructor
  · rintro ⟨level, found, blocked⟩
    cases below with
    | table here =>
      obtain rfl := Option.some.inj (here.symm.trans found)
      exact blocked
    | fresh missing => cases missing.symm.trans found
  · intro blocked
    cases below with
    | table here => exact ⟨.table inner, here, blocked⟩
    | fresh missing => exact absurd blocked not_obstructed_fresh

/-- **A write fails exactly if something stands in its way.** -/
theorem putIn_eq_none_iff : putIn new (k :: ks) fs = none ↔ Obstructed (k :: ks) (.table fs) := by
  induction ks generalizing k fs with
  | nil =>
    constructor
    · intro fails
      cases fails
    · intro blocked
      obtain ⟨level, -, blocked'⟩ := obstructed_table.mp blocked
      exact absurd blocked' not_obstructed_nil
  | cons k' ks ih =>
    rcases below_or_plain fs k with ⟨inner, below⟩ | ⟨level, here, plain⟩
    · rw [putIn_below below, Option.map_eq_none_iff, ih, obstructed_below below]
    · exact iff_of_true (putIn_plain here plain)
        (obstructed_table.mpr ⟨level, here, obstructed_of_plain plain⟩)

/-! ## Writing in place -/

/-- The fault of a write that meets a value that is no table. -/
def notTable : Fault := .wrongShape "a value on the way is no table".toList

/-- A write that changes tables as it goes: how it ended, and what has become of the value.  A table
that is missing on the way is put in its place before the write goes on into it, and it stays if the
write fails further on. -/
def writeIn (new : Value) : List Text → Value → Except Fault Unit × Value
  | [], v => (.ok (), v)
  | [k], .table fs => (.ok (), .table (put k new fs))
  | k :: k' :: ks, .table fs =>
    match Fields.get? fs k with
    | some level =>
      let below := writeIn new (k' :: ks) level
      (below.1, .table (put k below.2 fs))
    | none =>
      let below := writeIn new (k' :: ks) (.table [])
      (below.1, .table (put k below.2 (put k (.table []) fs)))
  | _ :: _, v => (.error notTable, v)

/-- Writes the value of a dotted key in place. -/
def writeKey (key : Text) (new d : Value) : Except Fault Unit × Value := writeIn new (pathOf key) d

theorem writeIn_plain (plain : d.fields? = none) :
    writeIn new (k :: ks) d = (.error notTable, d) := by
  cases d with
  | table fs => cases plain
  | _ => cases ks <;> rfl

/-- A write goes on in what there is below a key, or in a new table, and what that has become is put
in its place. -/
theorem writeIn_step (k k' : Text) (ks : List Text) (fs : Fields) :
    writeIn new (k :: k' :: ks) (.table fs) =
    let below := writeIn new (k' :: ks) ((fs.get? k).getD (.table []))
    (below.1, .table (put k below.2 fs)) := by
  rw [writeIn]
  cases fs.get? k with
  | none => simp only [Option.getD_none, Fields.put_put]
  | some level => rfl

/-- **In place the same is written, or nothing.** -/
theorem writeIn_eq : writeIn new (k :: ks) (.table fs) =
    match putIn new (k :: ks) fs with
    | some fs' => (.ok (), .table fs')
    | none => (.error notTable, .table fs) := by
  induction ks generalizing k fs with
  | nil => rfl
  | cons k' ks ih =>
    rw [writeIn_step]
    rcases below_or_plain fs k with ⟨inner, below⟩ | ⟨level, here, plain⟩
    · rw [below.getD, ih, putIn_below below]
      cases inside : putIn new (k' :: ks) inner with
      | some inner' => rfl
      | none =>
        -- The write has failed below the key, so the table there is not new.
        cases below with
        | table here => simp only [Fields.put_of_get? here, Option.map_none]
        | fresh missing => exact absurd (putIn_eq_none_iff.mp inside) not_obstructed_fresh
    · rw [here, Option.getD_some, writeIn_plain plain, putIn_plain here plain]
      simp only [Fields.put_of_get? here]

/-! ## Keys -/

section Keys

variable {key : Text} {d' : Value}

/-- A write behind a key is a write into the fields of a table. -/
theorem putKey_some (path : pathOf key = k :: ks) (done : putKey key new d = some d') :
    ∃ fs fs', d = .table fs ∧ putIn new (k :: ks) fs = some fs' ∧ d' = .table fs' := by
  cases d with
  | table fs =>
    rw [putKey, path] at done
    obtain ⟨fs', written, same⟩ := Option.map_eq_some_iff.mp done
    exact ⟨fs, fs', rfl, written, same.symm⟩
  | _ => cases done

theorem putKey_eq_none_iff : putKey key new d = none ↔ Obstructed (pathOf key) d := by
  obtain ⟨k, ks, path⟩ := pathOf_cons key
  rw [path]
  cases d with
  | table fs => rw [putKey, path, Option.map_eq_none_iff, putIn_eq_none_iff]
  | _ => exact iff_of_true rfl (obstructed_of_plain rfl)

theorem writeKey_eq (key : Text) (new d : Value) : writeKey key new d =
    match putKey key new d with
    | some d' => (.ok (), d')
    | none => (.error notTable, d) := by
  obtain ⟨k, ks, path⟩ := pathOf_cons key
  rw [writeKey, path]
  cases d with
  | table fs =>
    rw [writeIn_eq, putKey, path]
    cases putIn new (k :: ks) fs <;> rfl
  | _ => exact writeIn_plain rfl

/-- A value has come to stand behind a key, and nothing else has changed. -/
structure Written (key : Text) (new d d' : Value) : Prop where
  /-- It is what is read there. -/
  here : getKey key d' = some new
  /-- Behind every key apart from it there is what was there, or still nothing. -/
  elsewhere : ∀ other, Apart (pathOf key) (pathOf other) → getKey other d' = getKey other d
  /-- A further write behind the key gives what it gives without this one. -/
  again : ∀ last, ∃ d'', putKey key last d' = some d'' ∧ putKey key last d = some d''
  /-- If it stood there before, nothing at all has changed. -/
  same : getKey key d = some new → d' = d

theorem written_of_putKey (done : putKey key new d = some d') : Written key new d d' := by
  obtain ⟨k, ks, path⟩ := pathOf_cons key
  obtain ⟨fs, fs', rfl, written, rfl⟩ := putKey_some path done
  constructor
  case here =>
    rw [getKey, path]
    exact getIn_putIn written
  case elsewhere =>
    intro other apart
    rw [path] at apart
    exact getIn_putIn_of_apart written apart
  case again =>
    intro last
    -- What stands in the way of a write does not depend on what is written.
    have free : ¬ Obstructed (k :: ks) (.table fs) := by
      intro blocked
      cases written.symm.trans (putIn_eq_none_iff.mpr blocked)
    have possible : putIn last (k :: ks) fs ≠ none := fun fails => free (putIn_eq_none_iff.mp fails)
    obtain ⟨fs'', written'⟩ := Option.ne_none_iff_exists'.mp possible
    refine ⟨.table fs'', ?_, ?_⟩
    · rw [putKey, path, putIn_putIn written, written', Option.map_some]
    · rw [putKey, path, written', Option.map_some]
  case same =>
    intro there
    rw [getKey, path] at there
    have unchanged : some fs' = some fs := written.symm.trans (putIn_getIn there)
    rw [Option.some.inj unchanged]

/-- **Dotted keys are lenses.**  If a value on the way to the end of a key is no table, a write
behind the key fails, and in place it leaves everything as it was.  Otherwise it succeeds, in place
too: what was written is read there, every key that is neither on the way nor further on reads as
before, of two writes the last one counts, and writing what is there changes nothing. -/
theorem putKey_lens (key : Text) (new d : Value) :
    (Obstructed (pathOf key) d ∧ putKey key new d = none ∧
      writeKey key new d = (.error notTable, d)) ∨
    (¬ Obstructed (pathOf key) d ∧
      ∃ d', putKey key new d = some d' ∧ writeKey key new d = (.ok (), d') ∧
        Written key new d d') := by
  have inPlace := writeKey_eq key new d
  cases done : putKey key new d with
  | none =>
    rw [done] at inPlace
    exact .inl ⟨putKey_eq_none_iff.mp done, rfl, inPlace⟩
  | some d' =>
    rw [done] at inPlace
    have free : ¬ Obstructed (pathOf key) d := by
      intro blocked
      cases done.symm.trans (putKey_eq_none_iff.mpr blocked)
    exact .inr ⟨free, d', rfl, inPlace, written_of_putKey done⟩

end Keys

/-- A configuration in which a text stands in the place of a section. -/
def misshapen : Value :=
  .table [("validation".toList, .table [("linter".toList, .text "solhint".toList),
    ("validation_delay".toList, .int 1500)]),
    ("logging".toList, .text "debug".toList)]

/-- One field of its section is written and the one beside it stays, but nothing is written below
the text. -/
theorem misshapen_written :
    (∃ d', putKey "validation.linter".toList (.text "solium".toList) misshapen = some d' ∧
      getKey "validation.linter".toList d' = some (.text "solium".toList) ∧
      getKey "validation.validation_delay".toList d' = some (.int 1500)) ∧
    writeKey "logging.file.path".toList (.text "log".toList) misshapen =
      (.error notTable, misshapen) := by
  constructor
  · rcases putKey_lens "validation.linter".toList (.text "solium".toList) misshapen with
      ⟨-, fails, -⟩ | ⟨-, d', done, -, written⟩
    · cases fails
    · exact ⟨d', done, written.here,
        written.elsewhere "validation.validation_delay".toList (by decide)⟩
  · rcases putKey_lens "logging.file.path".toList (.text "log".toList) misshapen with
      ⟨-, -, inPlace⟩ | ⟨-, d', done, -⟩
    · exact inPlace
    · cases done

end Value
end ContractCheck
