import ContractCheck.Layout
import ContractCheck.Proofs.Path.Resolving

/-! # Paths that systems can use

No system takes a path with a zero character in it.  The operations on paths only put slashes, dots
and what they are given together, so paths that are made of usable ones are usable.
-/
namespace ContractCheck.Path

/-- Whether a system can use a path: there is no zero character in it. -/
def Usable (p : Text) : Prop := '\x00' ∉ p

instance (p : Text) : Decidable (Usable p) := inferInstanceAs (Decidable (_ ∉ _))

variable {p q : Text}

theorem usable_append : Usable (p ++ q) ↔ Usable p ∧ Usable q := by
  simp [Usable]

theorem Usable.append (h : Usable p) (h' : Usable q) : Usable (p ++ q) := usable_append.mpr ⟨h, h'⟩

theorem usable_cons {c : Char} : Usable (c :: p) ↔ '\x00' ≠ c ∧ Usable p := by
  simp [Usable]

theorem Usable.subset (h : Usable q) (sub : p ⊆ q) : Usable p := fun mem => h (sub mem)

theorem Usable.tail {c : Char} (h : Usable (c :: p)) : Usable p := (usable_cons.mp h).2

/-! ## Pieces -/

theorem subset_join {sep : Text} {pieces : List Text} {piece : Text} (mem : piece ∈ pieces) :
    piece ⊆ Text.join sep pieces := by
  induction pieces with
  | nil => cases mem
  | cons first rest ih =>
    cases rest with
    | nil =>
      obtain rfl := List.mem_singleton.mp mem
      exact List.Subset.refl _
    | cons second rest =>
      rw [Text.join, List.append_assoc]
      rcases List.mem_cons.mp mem with rfl | mem
      · exact List.subset_append_left _ _
      · exact List.Subset.trans (ih mem)
          (List.Subset.trans (List.subset_append_right _ _) (List.subset_append_right _ _))

theorem Usable.join {sep : Text} (between : Usable sep) {pieces : List Text}
    (h : ∀ x ∈ pieces, Usable x) :
    Usable (Text.join sep pieces) := by
  induction pieces with
  | nil => exact List.not_mem_nil
  | cons first rest ih =>
    obtain ⟨here, others⟩ := List.forall_mem_cons.mp h
    cases rest with
    | nil => exact here
    | cons second rest => exact (here.append between).append (ih others)

theorem Usable.piece {sep : Char} (h : Usable p) {piece : Text}
    (mem : piece ∈ Text.splitOn [sep] p) :
    Usable piece := by
  refine h.subset ?_
  have inside : piece ⊆ Text.join [sep] (Text.splitOn [sep] p) := subset_join mem
  rwa [Text.join_splitOn (List.cons_ne_nil _ _)] at inside

theorem usable_slash : Usable ['/'] := by decide

theorem usable_here : Usable here := by decide

theorem usable_up : Usable up := by decide

theorem cutLastWhere_eq {test : Char → Bool} {before after : Text}
    (cut : Text.cutLastWhere test p = some (before, after)) : ∃ c, p = before ++ c :: after := by
  induction p generalizing before with
  | nil => cases cut
  | cons c r ih =>
    rw [Text.cutLastWhere] at cut
    split at cut
    · next a b found =>
      obtain ⟨rfl, rfl⟩ := Prod.mk.inj (Option.some.inj cut)
      obtain ⟨x, rfl⟩ := ih found
      exact ⟨x, rfl⟩
    · split at cut
      · obtain ⟨rfl, rfl⟩ := Prod.mk.inj (Option.some.inj cut)
        exact ⟨c, rfl⟩
      · cases cut

theorem usable_cut {c : Char} : Usable (p ++ c :: q) → Usable p ∧ Usable q :=
  fun h => ⟨(usable_append.mp h).1, (usable_append.mp h).2.tail⟩

theorem Usable.dropEndWhile {test : Char → Bool} (h : Usable p) :
    Usable (Text.dropEndWhile test p) := by
  refine h.subset fun x mem => ?_
  have mem := (List.dropWhile_sublist test).subset (List.mem_reverse.mp mem)
  exact List.mem_reverse.mp mem

/-! ## POSIX paths -/

theorem usable_root (p : Text) : Usable (Posix.root p) := by
  fun_cases Posix.root p <;> decide

theorem Usable.below (h : Usable p) (h' : Usable q) : Usable (Posix.join p q) := by
  unfold Posix.join
  split
  · exact h'
  · split
    · exact h.append h'
    · exact h.append (usable_cons.mpr ⟨by decide, h'⟩)

theorem usable_pushSegment {rooted : Bool} {before : List Text} {s : Text}
    (h : ∀ x ∈ before, Usable x)
    (own : Usable s) : ∀ x ∈ pushSegment rooted before s, Usable x := by
  unfold pushSegment
  split
  · exact h
  · split
    · split
      · split
        · exact nofun
        · exact List.forall_mem_singleton.mpr usable_up
      · split
        · exact List.forall_mem_cons.mpr ⟨usable_up, h⟩
        · exact (List.forall_mem_cons.mp h).2
    · exact List.forall_mem_cons.mpr ⟨own, h⟩

theorem usable_foldl {rooted : Bool} {segs before : List Text} (h : ∀ x ∈ before, Usable x)
    (own : ∀ s ∈ segs, Usable s) : ∀ x ∈ segs.foldl (pushSegment rooted) before, Usable x := by
  induction segs generalizing before with
  | nil => exact h
  | cons s segs ih =>
    obtain ⟨here, rest⟩ := List.forall_mem_cons.mp own
    exact ih (usable_pushSegment h here) rest

theorem Usable.normalise (h : Usable p) : Usable (Posix.normalise p) := by
  have segments : ∀ x ∈ collapse (!(Posix.root p).isEmpty) (Text.splitOn ['/'] p), Usable x :=
    fun x mem =>
    usable_foldl (List.forall_mem_nil Usable) (fun s inside => h.piece inside) x
      (List.mem_reverse.mp mem)
  unfold Posix.normalise
  dsimp only
  split
  · exact usable_here
  · exact (usable_root p).append (usable_slash.join segments)

theorem Usable.absolute (h : Usable p) (h' : Usable q) : Usable (Posix.absolute p q) :=
  (h.below h').normalise

theorem usable_cutName (h : Usable p) :
    Usable (Posix.cutName p).1 ∧ Usable (Posix.cutName p).2 := by
  unfold Posix.cutName
  split
  · next d n cut =>
    obtain ⟨c, rfl⟩ := cutLastWhere_eq cut
    obtain ⟨before, after⟩ := usable_cut h
    exact ⟨before.append usable_slash, after⟩
  · exact ⟨List.not_mem_nil, h⟩

theorem Usable.basename (h : Usable p) : Usable (Posix.basename p) := (usable_cutName h).2

theorem Usable.dirname (h : Usable p) : Usable (Posix.dirname p) := by
  unfold Posix.dirname
  dsimp only
  split
  · exact (usable_cutName h).1
  · exact (usable_cutName h).1.dropEndWhile

theorem Usable.withNames (h : ∀ n ∈ Posix.names p, Usable n) {ns : List Text}
    (sub : ns ⊆ Posix.names p) :
    Usable (Posix.withNames p ns) := by
  unfold Posix.withNames
  dsimp only
  split
  · exact usable_here
  · exact (usable_root p).append (usable_slash.join fun x mem => h x (sub mem))

theorem Usable.names (h : Usable p) : ∀ n ∈ Posix.names p, Usable n :=
  fun _ mem => h.piece (List.mem_of_mem_filter mem)

theorem Usable.tidy (h : Usable p) : Usable (Posix.tidy p) :=
  .withNames h.names (List.Subset.refl _)

theorem Usable.parent (h : Usable p) : Usable (Posix.parent p) :=
  .withNames h.names (List.dropLast_subset _)

end Path

/-! ## Layouts -/

namespace Layout

open ContractCheck.Path

variable {p old new : Text}

theorem usable_replaceFirst (h : Usable p) (h' : Usable new) : Usable (replaceFirst old new p) := by
  induction p with
  | nil =>
    unfold replaceFirst
    split
    · exact h'
    · exact h
  | cons c r ih =>
    unfold replaceFirst
    split
    · exact h'.append (h.subset (List.drop_subset _ _))
    · exact usable_cons.mpr ⟨(usable_cons.mp h).1, ih h.tail⟩

theorem usable_replaceLast (h : Usable p) (h' : Usable new) : Usable (replaceLast old new p) := by
  induction p with
  | nil =>
    unfold replaceLast
    split
    · exact h'
    · exact h
  | cons c r ih =>
    have passed : Usable (c :: replaceLast old new r) :=
      usable_cons.mpr ⟨(usable_cons.mp h).1, ih h.tail⟩
    unfold replaceLast
    split
    · split
      · exact h'
      · exact h'.append (by decide)
      · exact passed
    · exact passed

theorem usable_swapBetween {sep : Char} (slash : '\x00' ≠ sep) {source target : Text} (h : Usable p)
    (h' : Usable target) : Usable (swapBetween sep source target p) := by
  have named : Usable (sep :: target) := usable_cons.mpr ⟨slash, h'⟩
  have between : Usable (sep :: target ++ [sep]) :=
    named.append (usable_cons.mpr ⟨slash, List.not_mem_nil⟩)
  exact usable_replaceLast (usable_replaceFirst h between) named

theorem usable_swapSegment {source target : Text} (h : Usable p) (h' : Usable target) :
    Usable (swapSegment p source target) :=
  usable_swapBetween (by decide) (usable_swapBetween (by decide) h h') h'

theorem usable_splitPath (h : Usable p) : Usable (splitPath p).1 ∧ Usable (splitPath p).2 := by
  unfold splitPath
  cases cut : Text.cutLastWhere isSlash p with
  | none => exact ⟨List.not_mem_nil, h⟩
  | some parts =>
    obtain ⟨c, shape⟩ := cutLastWhere_eq cut
    exact usable_cut (shape ▸ h)

theorem usable_stagedPath {l : Layout} (temp : Usable l.temp) (marker : Usable l.marker)
    (h : Usable p) :
    Usable (l.stagedPath p) := by
  obtain ⟨directory, name⟩ := usable_splitPath h
  exact (usable_swapSegment directory temp).below (marker.append name)

theorem usable_replaceExtension {name ext : Text} (h : Usable name) (h' : Usable ext) :
    Usable (replaceExtension name ext) := by
  have whole : Usable (name ++ ext) := h.append h'
  unfold replaceExtension
  dsimp only
  split
  · next stem rest =>
    split
    · exact whole
    · refine Usable.append (h.subset fun x mem => ?_) h'
      have inside : x ∈ name.reverse.dropWhile fun c => !endsExtension c :=
        rest ▸ List.mem_cons_of_mem _ (List.mem_reverse.mp mem)
      exact List.mem_reverse.mp ((List.dropWhile_sublist _).subset inside)
  · exact whole

end Layout
end ContractCheck
