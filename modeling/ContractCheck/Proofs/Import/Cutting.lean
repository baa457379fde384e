import ContractCheck.Import.Marking
import ContractCheck.Proofs.Text.Pieces
import Mathlib.Data.List.TakeDrop
import Mathlib.Data.List.TakeWhile

/-! # Where paths are cut

To mark a path is to put the marker in front of a name in it.  That name is the part before the
first dot of the last segment that has a dot (`Cut`).  A path with a dot is cut at exactly one place
(`Cut.eq_some`), and one without a dot at none.

The last segment that has a dot need not be the last segment.  What stands in front of it is all
that is looked through for dependencies.
-/
namespace ContractCheck.Import

open Layout (isSlash endsExtension)

variable {marker : Text} {dependencies : List Text} {path directory stem tail : Text}

/-- Whether a text is empty or ends with a slash, so that a name can follow. -/
def Closed (t : Text) : Prop := t = [] ∨ ∃ before c, isSlash c = true ∧ t = before ++ [c]

/-- The place at which a path is cut: behind the directory, in front of the name of the last segment
that has a dot. -/
structure Cut (path directory stem tail : Text) : Prop where
  whole : path = directory ++ (stem ++ '.' :: tail)
  closed : Closed directory
  bare : ∀ c ∈ stem, endsExtension c = false
  last : ∀ front c behind, isSlash c = true → tail = front ++ c :: behind → '.' ∉ behind

namespace Cut

theorem dot (h : Cut path directory stem tail) : '.' ∈ path := by simp [h.whole]

theorem stem_dotless (h : Cut path directory stem tail) : '.' ∉ stem :=
  fun mem => nomatch h.bare _ mem

theorem stem_slashless (h : Cut path directory stem tail) : ∀ c ∈ stem, isSlash c = false :=
  fun c mem => (Bool.or_eq_false_iff.mp (h.bare c mem)).1

/-- A slash that a dot follows is in the directory. -/
theorem directory_of_slash (h : Cut path directory stem tail) {front behind : Text} {c : Char}
    (slash : isSlash c = true) (split : path = front ++ c :: behind) (dot : '.' ∈ behind) :
    ∃ more, directory = front ++ c :: more ∧ behind = more ++ (stem ++ '.' :: tail) := by
  have other : c ≠ '.' := by
    rintro rfl
    cases slash
  rcases List.append_eq_append_iff.mp (h.whole.symm.trans split) with
    ⟨between, rfl, parts⟩ | ⟨between, rfl, parts⟩
  · -- The slash would stand behind the directory: not in the name, and no dot follows one
    -- behind the name.
    rcases List.append_eq_append_iff.mp parts with ⟨x, rfl, rest⟩ | ⟨x, rfl, rest⟩
    · cases x with
      | nil => exact absurd (List.cons.inj rest).1.symm other
      | cons y x => exact absurd dot (h.last x c behind slash (List.cons.inj rest).2)
    · cases x with
      | nil => exact absurd (List.cons.inj rest).1 other
      | cons y x =>
        obtain ⟨rfl, -⟩ := List.cons.inj rest
        exact nomatch (h.stem_slashless c (by simp)).symm.trans slash
  · cases between with
    | nil =>
      rw [List.nil_append] at parts
      cases stem with
      | nil => exact absurd (List.cons.inj parts).1 other
      | cons y stem =>
        obtain ⟨rfl, -⟩ := List.cons.inj parts
        exact nomatch (h.stem_slashless c (by simp)).symm.trans slash
    | cons y more =>
      obtain ⟨rfl, rest⟩ := List.cons.inj parts
      exact ⟨more, rfl, rest⟩

theorem directory_prefix (h : Cut path directory stem tail) {directory' stem' tail' : Text}
    (h' : Cut path directory' stem' tail') : directory <+: directory' := by
  rcases h.closed with rfl | ⟨front, c, slash, rfl⟩
  · exact List.nil_prefix
  · have split : path = front ++ c :: (stem ++ '.' :: tail) := by rw [h.whole]; simp
    obtain ⟨more, rfl, -⟩ := h'.directory_of_slash slash split (by simp)
    exact ⟨more, by simp⟩

/-- What has no dot can follow a path without changing where it is cut. -/
theorem append (h : Cut path directory stem tail) {more : Text} (dotless : '.' ∉ more) :
    Cut (path ++ more) directory stem (tail ++ more) where
  whole := by simp [h.whole]
  closed := h.closed
  bare := h.bare
  last front c behind slash split := by
    rcases List.append_eq_append_iff.mp split with ⟨between, -, rest⟩ | ⟨between, inside, rest⟩
    · -- The slash is in what follows.
      exact fun dot => dotless (by simp [rest, dot])
    · cases between with
      | nil =>
        rw [List.nil_append] at rest
        exact fun dot => dotless (by simp [← rest, dot])
      | cons x between =>
        obtain ⟨rfl, rfl⟩ := List.cons.inj rest
        have free := h.last front c between slash inside
        simp [free, dotless]

/-- A path is cut at one place only. -/
theorem unique (h : Cut path directory stem tail) {directory' stem' tail' : Text}
    (h' : Cut path directory' stem' tail') :
    directory = directory' ∧ stem = stem' ∧ tail = tail' := by
  have front := h.directory_prefix h'
  obtain rfl :=
    front.eq_of_length (Nat.le_antisymm front.length_le (h'.directory_prefix h).length_le)
  have names := congrArg (Text.cutFirst '.') (List.append_cancel_left (h.whole.symm.trans h'.whole))
  rw [Text.cutFirst_append h.stem_dotless, Text.cutFirst_append h'.stem_dotless] at names
  obtain ⟨rfl, rfl⟩ := Prod.mk.inj (Option.some.inj names)
  exact ⟨rfl, rfl, rfl⟩

end Cut

/-! ## Cutting finds the place -/

theorem moduleName?_dot (r : Text) : moduleName? ('.' :: r) = some ([], '.' :: r) := rfl

theorem moduleName?_slash {c : Char} (slash : isSlash c = true) (r : Text) :
    moduleName? (c :: r) = none := by
  have ends : endsExtension c = true := by simp [endsExtension, slash]
  have other : c ≠ '.' := by
    rintro rfl
    cases slash
  simp [moduleName?, List.span_eq_takeWhile_dropWhile, ends, other]

theorem moduleName?_cons {c : Char} (goes : endsExtension c = false) (r : Text) :
    moduleName? (c :: r) = (moduleName? r).map fun p => (c :: p.1, p.2) := by
  simp only [moduleName?, List.span_eq_takeWhile_dropWhile, List.takeWhile_cons,
    List.dropWhile_cons, goes,
    Bool.not_false, if_true]
  split <;> rfl

/-- A module name ends at a slash or a dot, and stands before the dot. -/
theorem moduleName?_parts {t name ext : Text} (cut : moduleName? t = some (name, ext)) :
    ∃ tail, ext = '.' :: tail ∧ t = name ++ '.' :: tail ∧ ∀ c ∈ name, endsExtension c = false := by
  induction t generalizing name with
  | nil => cases cut
  | cons c r ih =>
    cases ends : endsExtension c with
    | false =>
      rw [moduleName?_cons ends] at cut
      obtain ⟨⟨n, e⟩, there, same⟩ := Option.map_eq_some_iff.mp cut
      obtain ⟨rfl, rfl⟩ := Prod.mk.inj same
      obtain ⟨tail, ext, rfl, bare⟩ := ih there
      exact ⟨tail, ext, rfl, List.forall_mem_cons.mpr ⟨ends, bare⟩⟩
    | true =>
      rcases Bool.or_eq_true_iff.mp ends with slash | dot
      · rw [moduleName?_slash slash] at cut
        cases cut
      · obtain rfl := eq_of_beq dot
        rw [moduleName?_dot] at cut
        obtain ⟨rfl, rfl⟩ := Prod.mk.inj (Option.some.inj cut)
        exact ⟨r, rfl, rfl, nofun⟩

section Behind

variable {c : Char} {r : Text}

/-- A path is cut behind a slash as far to the right as it can be. -/
theorem cutBehindSlash?_later {parts : Text × Text × Text}
    (later : cutModule?.cutBehindSlash? r = some parts) :
    cutModule?.cutBehindSlash? (c :: r) = some (c :: parts.1, parts.2) := by
  rw [cutModule?.cutBehindSlash?, later]

/-- Where it cannot be cut further to the right, a slash and the name behind it decide. -/
theorem cutBehindSlash?_here (none : cutModule?.cutBehindSlash? r = none) :
    cutModule?.cutBehindSlash? (c :: r)
    = if isSlash c then (moduleName? r).map fun p => ([c], p.1, p.2) else Option.none := by
  rw [cutModule?.cutBehindSlash?, none]

end Behind

/-- A dot ends a name at the start of a text, or one behind a slash. -/
theorem named_of_dot {t : Text} (dot : '.' ∈ t) :
    (moduleName? t).isSome = true ∨ (cutModule?.cutBehindSlash? t).isSome = true := by
  induction t with
  | nil => cases dot
  | cons c r ih =>
    by_cases here : c = '.'
    · subst here
      exact .inl rfl
    · have named := ih (List.mem_of_ne_of_mem (Ne.symm here) dot)
      cases later : cutModule?.cutBehindSlash? r with
      | some parts =>
        rw [cutBehindSlash?_later later]
        exact .inr rfl
      | none =>
        rw [later] at named
        rw [cutBehindSlash?_here later]
        cases slash : isSlash c with
        | true => exact .inr (by simpa using named)
        | false =>
          rw [moduleName?_cons (by simp [endsExtension, slash, here])]
          exact .inl (by simpa using named)

/-- When no name behind a slash has a dot, no dot stands behind a slash. -/
theorem dotless_behind {t : Text} (none : cutModule?.cutBehindSlash? t = none)
    {front behind : Text} {c : Char}
    (slash : isSlash c = true) (split : t = front ++ c :: behind) : '.' ∉ behind := by
  induction front generalizing t with
  | nil =>
    intro dot
    subst split
    have named := named_of_dot dot
    cases later : cutModule?.cutBehindSlash? behind with
    | some parts => cases (cutBehindSlash?_later later).symm.trans none
    | none =>
      rw [List.nil_append, cutBehindSlash?_here later, if_pos slash, Option.map_eq_none_iff] at none
      simp [none, later] at named
  | cons x front ih =>
    subst split
    cases later : cutModule?.cutBehindSlash? (front ++ c :: behind) with
    | some parts => cases (cutBehindSlash?_later later).symm.trans none
    | none => exact ih later rfl

theorem cutBehindSlash?_cut {t ext : Text}
    (cut : cutModule?.cutBehindSlash? t = some (directory, stem, ext)) :
    ∃ tail, ext = '.' :: tail ∧ directory ≠ [] ∧ Cut t directory stem tail := by
  induction t generalizing directory stem ext with
  | nil => cases cut
  | cons c r ih =>
    cases later : cutModule?.cutBehindSlash? r with
    | some parts =>
      obtain ⟨front, name, rest⟩ := parts
      rw [cutBehindSlash?_later later] at cut
      obtain ⟨rfl, rfl, rfl⟩ := Option.some.inj cut
      obtain ⟨tail, ext, given, inner⟩ := ih later
      obtain ⟨front, x, slash, rfl⟩ := inner.closed.resolve_left given
      refine ⟨tail, ext, List.cons_ne_nil _ _, ?_, .inr ⟨c :: front, x, slash, rfl⟩,
        inner.bare, inner.last⟩
      rw [inner.whole]
      rfl
    | none =>
      rw [cutBehindSlash?_here later] at cut
      split at cut
      · next slash =>
        obtain ⟨⟨n, e⟩, here, same⟩ := Option.map_eq_some_iff.mp cut
        obtain ⟨rfl, rfl, rfl⟩ := same
        obtain ⟨tail, ext, rfl, bare⟩ := moduleName?_parts here
        refine ⟨tail, ext, List.cons_ne_nil _ _, rfl, .inr ⟨[], c, slash, rfl⟩, bare, ?_⟩
        rintro front x behind slash rfl
        exact dotless_behind later slash (List.append_assoc n ('.' :: front) (x :: behind)).symm
      · cases cut

theorem cutModule?_cut {ext : Text} (cut : cutModule? path = some (directory, stem, ext)) :
    ∃ tail, ext = '.' :: tail ∧ Cut path directory stem tail := by
  cases path with
  | nil => cases cut
  | cons c r =>
    rw [cutModule?] at cut
    split at cut
    · next parts later =>
      obtain rfl := Option.some.inj cut
      obtain ⟨tail, ext, -, there⟩ := cutBehindSlash?_cut later
      exact ⟨tail, ext, there⟩
    · next none =>
      obtain ⟨⟨n, e⟩, here, same⟩ := Option.map_eq_some_iff.mp cut
      obtain ⟨rfl, rfl, rfl⟩ := same
      obtain ⟨tail, ext, whole, bare⟩ := moduleName?_parts here
      refine ⟨tail, ext, whole, .inl rfl, bare, ?_⟩
      rintro front x behind slash rfl
      exact dotless_behind none slash
        (whole.trans (List.append_assoc n ('.' :: front) (x :: behind)).symm)

theorem isSome_cutModule? (dot : '.' ∈ path) : (cutModule? path).isSome = true := by
  cases path with
  | nil => cases dot
  | cons c r =>
    rw [cutModule?]
    split
    · rfl
    · next none =>
      have name := named_of_dot dot
      rw [none] at name
      simpa using name

/-- A path with a dot is cut. -/
theorem exists_cut (dot : '.' ∈ path) : ∃ directory stem tail, Cut path directory stem tail := by
  obtain ⟨⟨directory, stem, ext⟩, cut⟩ := Option.isSome_iff_exists.mp (isSome_cutModule? dot)
  obtain ⟨tail, -, there⟩ := cutModule?_cut cut
  exact ⟨directory, stem, tail, there⟩

/-- **A path is cut at its place.** -/
theorem Cut.eq_some (h : Cut path directory stem tail) :
    cutModule? path = some (directory, stem, '.' :: tail) := by
  obtain ⟨⟨d, n, ext⟩, cut⟩ := Option.isSome_iff_exists.mp (isSome_cutModule? h.dot)
  obtain ⟨t, rfl, there⟩ := cutModule?_cut cut
  obtain ⟨rfl, rfl, rfl⟩ := h.unique there
  exact cut

theorem Cut.of_eq_some (cut : cutModule? path = some (directory, stem, '.' :: tail)) :
    Cut path directory stem tail := by
  obtain ⟨_, same, there⟩ := cutModule?_cut cut
  obtain ⟨-, rfl⟩ := List.cons.inj same
  exact there

theorem cutModule?_dotless (dotless : '.' ∉ path) : cutModule? path = none := by
  cases cut : cutModule? path with
  | none => rfl
  | some parts =>
    obtain ⟨directory, stem, ext⟩ := parts
    obtain ⟨tail, -, there⟩ := cutModule?_cut cut
    exact absurd there.dot dotless

/-- A path is cut at its last slash when a name with a dot stands behind it. -/
theorem cut_last (bare : ∀ c ∈ stem ++ '.' :: tail, isSlash c = false) (first : '.' ∉ stem)
    (front : Text) :
    Cut (front ++ '/' :: (stem ++ '.' :: tail)) (front ++ ['/']) stem tail where
  whole := by simp
  closed := .inr ⟨front, '/', rfl, rfl⟩
  bare c mem := by
    have other : c ≠ '.' := by
      rintro rfl
      exact first mem
    simp [endsExtension, bare c (List.mem_append_left _ mem), other]
  last before c behind slash split := by
    have none := bare c (by simp [split])
    exact nomatch none.symm.trans slash

/-! ## Marked paths -/

/-- The marked form of a path. -/
def markedPath (marker : Text) (dependencies : List Text) (path : Text) : Text :=
  match cutModule? path with
  | some (directory, name, ext) => markPath marker dependencies directory name ext
  | none => path

/-- Whether the name at which a path is cut is not marked: it is behind a dependency, empty, or has
the marker. -/
def Spared (marker : Text) (dependencies : List Text) (directory stem : Text) : Prop :=
  isDependency directory dependencies = true ∨ stem = [] ∨ Text.startsWith stem marker = true

instance : Decidable (Spared marker dependencies directory stem) :=
  inferInstanceAs (Decidable (_ ∨ _ ∨ _))

theorem markedPath_dotless (dotless : '.' ∉ path) : markedPath marker dependencies path = path := by
  rw [markedPath, cutModule?_dotless dotless]

section Cut

variable (cut : Cut path directory stem tail)
include cut

theorem markedPath_spared (spared : Spared marker dependencies directory stem) :
    markedPath marker dependencies path = path := by
  have kept : (isDependency directory dependencies || stem.isEmpty || Text.startsWith stem marker) =
      true := by
    simpa [Spared, or_assoc] using spared
  rw [markedPath, cut.eq_some]
  dsimp only
  rw [markPath, if_pos kept, cut.whole, List.append_assoc]

theorem markedPath_marked (marked : ¬ Spared marker dependencies directory stem) :
    markedPath marker dependencies path = directory ++ (marker ++ (stem ++ '.' :: tail)) := by
  have changed : ¬ (isDependency directory dependencies || stem.isEmpty || Text.startsWith stem
      marker) = true := by
    simpa [Spared, or_assoc] using marked
  rw [markedPath, cut.eq_some]
  dsimp only
  rw [markPath, if_neg changed]
  simp

/-- A path stays as it is only for one of the reasons not to mark it. -/
theorem markedPath_eq_self_iff :
    markedPath marker dependencies path = path ↔ Spared marker dependencies directory stem := by
  refine ⟨fun same => ?_, markedPath_spared cut⟩
  by_contra marked
  have longer := congrArg List.length same
  rw [markedPath_marked cut marked, cut.whole] at longer
  have empty : marker = [] := by
    rw [← List.length_eq_zero_iff]
    simp only [List.length_append, List.length_cons] at longer
    omega
  exact marked (.inr (.inr (by rw [empty]; rfl)))

end Cut

/-- Marking changes a path only by the marker. -/
theorem markedPath_cases (marker : Text) (dependencies : List Text) (path : Text) :
    markedPath marker dependencies path = path ∨
      ∃ front behind, path = front ++ behind ∧ markedPath marker dependencies path =
        front ++ (marker ++ behind) := by
  by_cases dot : '.' ∈ path
  · obtain ⟨directory, stem, tail, cut⟩ := exists_cut dot
    by_cases spared : Spared marker dependencies directory stem
    · exact .inl (markedPath_spared cut spared)
    · exact .inr ⟨directory, stem ++ '.' :: tail, cut.whole, markedPath_marked cut spared⟩
  · exact .inl (markedPath_dotless dot)

theorem mem_markedPath {c : Char} (mem : c ∈ markedPath marker dependencies path) :
    c ∈ marker ∨ c ∈ path := by
  rcases markedPath_cases marker dependencies path with same | ⟨front, behind, rfl, same⟩
  · exact .inr (same ▸ mem)
  · rw [same] at mem
    simp only [List.mem_append] at mem ⊢
    tauto

/-- Marking takes nothing out of a path. -/
theorem subset_markedPath (path : Text) : path ⊆ markedPath marker dependencies path := by
  rcases markedPath_cases marker dependencies path with same | ⟨front, behind, rfl, same⟩
  · rw [same]
    exact List.Subset.refl _
  · rw [same]
    intro c mem
    simp only [List.mem_append] at mem ⊢
    tauto

/-- The last name of a path is marked, if it has none of the reasons not to be. -/
theorem markedPath_last {directory stem ext : Text}
    (bare : ∀ c ∈ stem ++ '.' :: ext, isSlash c = false) (first : '.' ∉ stem) (given : stem ≠ [])
    (own : isDependency (directory ++ ['/']) dependencies = false)
    (unmarked : Text.startsWith (stem ++ '.' :: ext) marker = false) :
    markedPath marker dependencies (directory ++ '/' :: (stem ++ '.' :: ext))
      = directory ++ '/' :: (marker ++ (stem ++ '.' :: ext)) := by
  have marked : ¬ Spared marker dependencies (directory ++ ['/']) stem := by
    rintro (dependency | empty | starts)
    · exact nomatch own.symm.trans dependency
    · exact given empty
    · have longer := (Text.startsWith_iff.mp starts).trans (List.prefix_append stem ('.' :: ext))
      exact nomatch unmarked.symm.trans (Text.startsWith_iff.mpr longer)
  rw [markedPath_marked (cut_last bare first directory) marked]
  simp

/-- **A marked path is marked no further**, if the marker has no dot and no slash. -/
theorem markedPath_markedPath (plain : ∀ c ∈ marker, endsExtension c = false) (path : Text) :
    markedPath marker dependencies (markedPath marker dependencies path) =
      markedPath marker dependencies path := by
  by_cases dot : '.' ∈ path
  · obtain ⟨directory, stem, tail, cut⟩ := exists_cut dot
    by_cases spared : Spared marker dependencies directory stem
    · rw [markedPath_spared cut spared, markedPath_spared cut spared]
    · have again : Cut (directory ++ (marker ++ (stem ++ '.' :: tail))) directory
          (marker ++ stem) tail :=
        ⟨by simp, cut.closed, List.forall_mem_append.mpr ⟨plain, cut.bare⟩, cut.last⟩
      rw [markedPath_marked cut spared]
      exact markedPath_spared again (.inr
        (.inr (Text.startsWith_iff.mpr (List.prefix_append marker stem))))
  · rw [markedPath_dotless dot, markedPath_dotless dot]

end ContractCheck.Import
