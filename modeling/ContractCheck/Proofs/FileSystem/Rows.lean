import ContractCheck.Proofs.FileSystem.Alike
import ContractCheck.Proofs.Path.Named

/-! # Following rows of names

The place that a row of names leads to is made up of just these names (`placeOf_row`).  It does lead
there if the directories before its last name stand and the file system takes the path
(`resolve_row`), and the directories on the way can be made if nothing else is in the way
(`makeDirectories_open`).
-/
namespace ContractCheck.FileSystem

open ContractCheck.Path

variable {fs fs' : FileSystem} {cwd dir : Place} {lead names : List Text} {path name : Text}

/-- Whether the file system takes a path: it has no zero character, and neither it nor a name in it
is too long. -/
structure Fits (path : Text) : Prop where
  usable : '\x00' ∉ path
  short : (Utf8.encode path).length ≤ maxPath
  names : ∀ name ∈ Text.splitOn ['/'] path, tooLong name = false

instance (path : Text) : Decidable (Fits path) :=
  decidable_of_iff ('\x00' ∉ path ∧ (Utf8.encode path).length ≤ maxPath ∧
    ∀ name ∈ Text.splitOn ['/'] path, tooLong name = false) ⟨fun h => ⟨h.1, h.2.1, h.2.2⟩, fun h =>
      ⟨h.1, h.2, h.3⟩⟩

theorem Fits.front {front back : Text} (fits : Fits (front ++ '/' :: back)) : Fits front where
  usable mem := fits.usable (List.mem_append_left _ mem)
  short := by
    have whole := fits.short
    rw [Utf8.encode, List.flatMap_append, List.length_append] at whole
    exact Nat.le_of_add_right_le whole
  names name mem := by
    refine fits.names name ?_
    rw [Text.splitOn_append]
    exact List.mem_append_left _ mem

section Lead

variable (leads : IsLead lead)
include leads

/-- The names in front of a row lead nowhere. -/
theorem walk_row (fs : FileSystem) (names : List Text) :
    fs.walk [] ([] :: (lead ++ names)) = fs.walk [] names := by
  rcases leads with rfl | rfl <;> rfl

theorem makeAlong_row (fs : FileSystem) (names : List Text) :
    fs.makeAlong [] ([] :: (lead ++ names)) = fs.makeAlong [] names := by
  rcases leads with rfl | rfl <;> rfl

theorem lead_row (names : List Text) :
    FileSystem.lead [] ([] :: (lead ++ names)) = FileSystem.lead [] names := by
  rcases leads with rfl | rfl <;> rfl

end Lead

theorem isStill_of_proper (proper : Proper name) : isStill name = false := by
  simp [isStill, proper.1, proper.2.1]

theorem lead_proper (proper : ∀ s ∈ names, Proper s) (dir : Place) :
    FileSystem.lead dir names = dir ++ names := by
  induction names generalizing dir with
  | nil => rw [FileSystem.lead, List.append_nil]
  | cons name rest ih =>
    obtain ⟨own, rest'⟩ := List.forall_mem_cons.mp proper
    rw [FileSystem.lead, isStill_of_proper own, if_neg Bool.false_ne_true, if_neg own.2.2, ih rest',
      List.append_assoc]
    rfl

/-- **A row leads to the place of its names**, if anywhere. -/
theorem placeOf_row (row : Row lead names) (cwd : Place) :
    placeOf cwd (slashed (lead ++ names)) = names := by
  rw [placeOf, startOf, if_pos row.absolute, row.pieces, lead_row row.lead, lead_proper row.proper,
    List.nil_append]

/-- Names are followed through directories that stand. -/
theorem walk_through (proper : ∀ s ∈ names, Proper s) (short : ∀ s ∈ names, tooLong s = false)
    (stands : ∀ front, front <+: names → front ≠ names → fs.get? (dir ++ front) = some .directory) :
    fs.walk dir names = .ok (dir ++ names) := by
  induction names generalizing dir with
  | nil => rw [walk, List.append_nil]
  | cons name rest ih =>
    obtain ⟨own, proper⟩ := List.forall_mem_cons.mp proper
    obtain ⟨fits, short⟩ := List.forall_mem_cons.mp short
    have here := stands [] List.nil_prefix (List.cons_ne_nil name rest).symm
    rw [List.append_nil] at here
    rw [walk, here]
    dsimp only
    rw [isStill_of_proper own, if_neg Bool.false_ne_true, if_neg own.2.2,
      fits, if_neg Bool.false_ne_true, ih proper short, List.append_assoc, List.singleton_append]
    intro front ahead other
    rw [List.append_assoc, List.singleton_append]
    exact stands (name :: front) (List.cons_prefix_cons.mpr ⟨rfl, ahead⟩) fun same =>
      other (List.cons.inj same).2

theorem above_of_concat {front p : Place} {name : Text} (above : front <+: p ++ [name])
    (other : front ≠ p ++ [name]) :
    front <+: p := by
  rcases List.prefix_concat_iff.mp above with same | inside
  · exact absurd same other
  · exact inside

/-- What is led to through names stands in directories that stand. -/
theorem stands_of_led {p : Place} (led : fs.walk dir names = .ok p)
    (above : ∀ front, front <+: dir → front ≠ dir → fs.get? front = some .directory) :
    ∀ front, front <+: p → front ≠ p → fs.get? front = some .directory := by
  induction names generalizing dir with
  | nil =>
    obtain rfl := Except.ok.inj led
    exact above
  | cons name rest ih =>
    rw [walk] at led
    split at led
    · cases led
    · cases led
    · next stands =>
      split at led
      · exact ih led above
      · split at led
        · refine ih led fun front ahead other =>
            above front (ahead.trans (List.dropLast_prefix dir)) ?_
          rintro rfl
          -- Nothing but the root is the directory above itself.
          have lengths := ahead.length_le
          rw [List.length_dropLast] at lengths
          obtain rfl : front = [] := List.eq_nil_of_length_eq_zero (by omega)
          exact other rfl
        · split at led
          · cases led
          · refine ih led fun front ahead other => ?_
            have inside := above_of_concat ahead other
            by_cases same : front = dir
            · rw [same, stands]
            · exact above front inside same

/-- Names that were followed are not too long. -/
theorem short_of_walk {p : Place} (proper : ∀ s ∈ names, Proper s)
    (led : fs.walk dir names = .ok p) :
    ∀ s ∈ names, tooLong s = false := by
  induction names generalizing dir with
  | nil => exact nofun
  | cons name rest ih =>
    obtain ⟨own, behind⟩ := List.forall_mem_cons.mp proper
    rw [walk] at led
    split at led
    · cases led
    · cases led
    · rw [isStill_of_proper own, if_neg Bool.false_ne_true, if_neg own.2.2] at led
      split at led
      · cases led
      · next short => exact List.forall_mem_cons.mpr ⟨Bool.eq_false_iff.mpr short, ih behind led⟩

variable (row : Row lead names)
include row

theorem resolve_row_iff {p : Place} :
    fs.resolve cwd (slashed (lead ++ names)) = .ok p ↔ Takes (slashed (lead ++ names)) ∧
    fs.walk [] names = .ok p := by
  rw [resolve_iff, startOf, if_pos row.absolute, row.pieces, walk_row row.lead]

/-- **A row leads to its place** if the directories before its last name stand. -/
theorem resolve_row (fits : Fits (slashed (lead ++ names)))
    (stands : ∀ front, front <+: names → front ≠ names → fs.get? front = some .directory) :
    fs.resolve cwd (slashed (lead ++ names)) = .ok names := by
  have short : ∀ s ∈ names, tooLong s = false := fun s mem =>
    fits.names s (row.pieces ▸ List.mem_cons_of_mem _ (List.mem_append_right _ mem))
  have given : slashed (lead ++ names) ≠ [] := by
    intro none
    have absolute := row.absolute
    rw [none] at absolute
    cases absolute
  exact (resolve_row_iff row).mpr ⟨⟨fits.usable, given, fits.short⟩,
    walk_through row.proper short stands⟩

/-- A path that leads somewhere is one that the file system takes. -/
theorem fits_of_resolve {p : Place} (led : fs.resolve cwd (slashed (lead ++ names)) = .ok p) :
    Fits (slashed (lead ++ names)) := by
  obtain ⟨⟨usable, -, short⟩, led⟩ := (resolve_row_iff row).mp led
  refine ⟨usable, short, fun name mem => ?_⟩
  rw [row.pieces] at mem
  rcases List.mem_cons.mp mem with rfl | mem
  · decide
  · rcases List.mem_append.mp mem with front | own
    · rcases row.lead with rfl | rfl
      · cases front
      · rw [List.mem_singleton.mp front]
        decide
    · exact short_of_walk row.proper led name own

omit row

/-! ## Making the directories on the way -/

/-- Whether the directories that names lead through stand or can be made: nothing else is in the
way, and where one is missing the one above is not denied. -/
def Open (fs : FileSystem) (dir : Place) (names : List Text) : Prop :=
  ∀ front name, front ++ [name] <+: names → fs.get? (dir ++ front ++ [name]) = some .directory ∨
    fs.get? (dir ++ front ++ [name]) = none ∧ dir ++ front ∉ fs.denied

/-- The directories on the way, and nothing else, are made. -/
structure Paved (dir : Place) (names : List Text) (fs fs' : FileSystem) : Prop where
  stands : ∀ front, front <+: names → front ≠ [] → fs'.get? (dir ++ front) = some .directory
  apart : ∀ q, (∀ front, front <+: names → front ≠ [] → q ≠ dir ++ front) → fs'.get? q = fs.get? q
  denied : fs'.denied = fs.denied

theorem makeAlong_open (proper : ∀ s ∈ names, Proper s) (short : ∀ s ∈ names, tooLong s = false)
    (clear : fs.Open dir names) :
    (fs.makeAlong dir names).2 = none ∧ Paved dir names fs (fs.makeAlong dir names).1 := by
  induction names generalizing fs dir with
  | nil =>
    exact ⟨rfl, fun front ahead given => absurd (List.prefix_nil.mp ahead) given,
      fun _ _ => rfl, rfl⟩
  | cons name rest ih =>
    obtain ⟨own, proper⟩ := List.forall_mem_cons.mp proper
    obtain ⟨fits, short⟩ := List.forall_mem_cons.mp short
    have first := clear [] name (List.cons_prefix_cons.mpr ⟨rfl, List.nil_prefix⟩)
    rw [List.append_nil] at first
    -- The first directory stands, or is made; behind it the way is as clear as before.
    have further {fs' : FileSystem} (stands : fs'.get? (dir ++ [name]) = some .directory)
      (denied : fs'.denied = fs.denied)
      (apart : ∀ q, q ≠ dir ++ [name] → fs'.get? q = fs.get? q) :
        (fs'.makeAlong (dir ++ [name]) rest).2 = none ∧
        Paved dir (name :: rest) fs (fs'.makeAlong (dir ++ [name]) rest).1 := by
      have clear' : fs'.Open (dir ++ [name]) rest := by
        intro front x ahead
        have before := clear (name :: front) x (List.cons_prefix_cons.mpr ⟨rfl, ahead⟩)
        have same : dir ++ (name :: front) = dir ++ [name] ++ front := by simp
        rw [same] at before
        rwa [apart _ (by simp), denied]
      obtain ⟨done, stands', apart', denied'⟩ := ih proper short clear'
      refine ⟨done, fun front ahead given => ?_, fun q other => ?_, denied'.trans denied⟩
      · obtain ⟨x, front, rfl⟩ := List.exists_cons_of_ne_nil given
        obtain ⟨rfl, inner⟩ := List.cons_prefix_cons.mp ahead
        by_cases here : front = []
        · subst here
          rw [apart' _ (by simp), stands]
        · have below := stands' front inner here
          rwa [List.append_assoc, List.singleton_append] at below
      · rw [apart' q fun front ahead given => ?_, apart q (other [name] ?_ (by simp))]
        · exact List.cons_prefix_cons.mpr ⟨rfl, List.nil_prefix⟩
        · have later := other (name :: front) (List.cons_prefix_cons.mpr ⟨rfl, ahead⟩) (by simp)
          rwa [List.append_assoc, List.singleton_append]
    rw [makeAlong, isStill_of_proper own, if_neg Bool.false_ne_true, if_neg own.2.2, fits,
      if_neg Bool.false_ne_true]
    dsimp only
    rcases first with stands | ⟨none, allowed⟩
    · rw [stands]
      exact further stands rfl fun _ _ => rfl
    · rw [none]
      dsimp only
      rw [if_neg fun mem => allowed (List.contains_iff_mem.mp mem)]
      exact further (get?_set_self fs _ (by simp)) (denied_set fun _ => rfl) fun q other =>
        get?_set_of_ne fs _ other

/-- **A directory is made**, with those above it, if nothing is in the way. -/
theorem makeDirectories_open (row : Row lead names) (fits : Fits (slashed (lead ++ names)))
    (clear : fs.Open [] names) (cwd : Place) :
    (fs.makeDirectories cwd (slashed (lead ++ names))).2 = none ∧
      Paved [] names fs (fs.makeDirectories cwd (slashed (lead ++ names))).1 := by
  have short : ∀ s ∈ names, tooLong s = false := fun s mem =>
    fits.names s (row.pieces ▸ List.mem_cons_of_mem _ (List.mem_append_right _ mem))
  rw [makeDirectories, if_neg fun zero => fits.usable (List.contains_iff_mem.mp zero),
    if_neg (Nat.not_lt.mpr fits.short), startOf, if_pos row.absolute, row.pieces,
      makeAlong_row row.lead]
  exact makeAlong_open row.proper short clear

end ContractCheck.FileSystem
