import Mathlib.Data.List.Basic

/-! # Stable sorting

A list is sorted stably if its members stand in order and those that are level, so that either may
stand before the other, keep the order that they had.  Merging does it (`stablySorted_mergeSort`),
and there is only one way to do it (`StablySorted.unique`).
-/
namespace ContractCheck

variable {α : Type} {le : α → α → Bool} {xs ys zs : List α}

/-- Whether either of two may stand before the other. -/
def level (le : α → α → Bool) (a b : α) : Bool := le a b && le b a

/-- The members of a list in order, with those that are level in the order of that list. -/
structure StablySorted (le : α → α → Bool) (xs sorted : List α) : Prop where
  perm : sorted.Perm xs
  ordered : sorted.Pairwise fun a b => le a b = true
  stable : ∀ x, sorted.filter (level le x) = xs.filter (level le x)

/-- An order in which any two can be compared. -/
structure Ranking (le : α → α → Bool) : Prop where
  trans : ∀ a b c, le a b = true → le b c = true → le a c = true
  total : ∀ a b, (le a b || le b a) = true

namespace Ranking

variable (ranking : Ranking le)
include ranking

theorem refl (a : α) : le a a = true := by
  have either := ranking.total a a
  rwa [Bool.or_self] at either

theorem level_self (a : α) : level le a a = true := by
  rw [level, ranking.refl, Bool.and_self]

/-- What is level with one thing is level with each other. -/
theorem pairwise_level (x : α) (xs : List α) :
    (xs.filter (level le x)).Pairwise fun a b => le a b = true := by
  refine List.pairwise_filter.mpr
    (List.Pairwise.imp (fun {a b} _ => ?_) (List.pairwise_of_forall fun _ _ => trivial))
  intro here there
  rw [level, Bool.and_eq_true] at here there
  exact ranking.trans a x b here.2 there.1

/-- What is level with one thing is level with the same things as it. -/
theorem level_congr {a b : α} (here : level le a b = true) (c : α) :
    level le a c = level le b c := by
  rw [level, Bool.and_eq_true] at here
  rw [Bool.eq_iff_iff, level, level, Bool.and_eq_true, Bool.and_eq_true]
  constructor
  · exact fun ⟨before, behind⟩ =>
      ⟨ranking.trans b a c here.2 before, ranking.trans c a b behind here.1⟩
  · exact fun ⟨before, behind⟩ =>
      ⟨ranking.trans a b c here.1 before, ranking.trans c b a behind here.2⟩

end Ranking

/-- **Merging sorts stably.** -/
theorem stablySorted_mergeSort (ranking : Ranking le) (xs : List α) :
    StablySorted le xs (xs.mergeSort le) where
  perm := List.mergeSort_perm xs le
  ordered := List.pairwise_mergeSort ranking.trans ranking.total xs
  stable x := by
    have kept := List.sublist_mergeSort ranking.trans ranking.total (ranking.pairwise_level x xs)
      List.filter_sublist
    have inside := kept.filter (level le x)
    rw [List.filter_filter, List.filter_congr fun a _ => Bool.and_self (level le x a)] at inside
    exact (inside.eq_of_length ((List.mergeSort_perm xs le).filter _).length_eq.symm).symm

namespace StablySorted

/-- It is enough to look at what is level with some member. -/
theorem of_mem (ranking : Ranking le) (perm : ys.Perm xs)
    (ordered : ys.Pairwise fun a b => le a b = true)
    (stable : ∀ x ∈ xs, ys.filter (level le x) = xs.filter (level le x)) :
    StablySorted le xs ys := by
  refine ⟨perm, ordered, fun x => ?_⟩
  by_cases found : ∃ y ∈ xs, level le x y = true
  · obtain ⟨y, mem, here⟩ := found
    rw [funext (ranking.level_congr here)]
    exact stable y mem
  · have none : ∀ y ∈ xs, ¬ level le x y = true := fun y mem here => found ⟨y, mem, here⟩
    rw [List.filter_eq_nil_iff.mpr none, List.filter_eq_nil_iff.mpr fun y mem =>
      none y (perm.mem_iff.mp mem)]

/-- **There is only one way to sort a list stably.** -/
theorem unique (ranking : Ranking le) (first : StablySorted le xs ys)
    (second : StablySorted le xs zs) : ys = zs := by
  obtain ⟨perm, ordered, stable⟩ := first
  obtain ⟨perm', ordered', stable'⟩ := second
  replace perm := perm.trans perm'.symm
  replace stable x := (stable x).trans (stable' x).symm
  clear perm' stable'
  induction ys generalizing zs with
  | nil => exact perm.nil_eq
  | cons y ys ih =>
    cases zs with
    | nil => exact perm.eq_nil
    | cons z zs =>
      obtain ⟨least, tail⟩ := List.pairwise_cons.mp ordered
      obtain ⟨least', tail'⟩ := List.pairwise_cons.mp ordered'
      -- Each of the two heads is behind the other one or the same, so they are level.
      have before : le y z = true := by
        rcases List.mem_cons.mp (perm.mem_iff.mpr List.mem_cons_self) with rfl | mem
        · exact ranking.refl z
        · exact least z mem
      have behind : le z y = true := by
        rcases List.mem_cons.mp (perm.mem_iff.mp List.mem_cons_self) with rfl | mem
        · exact ranking.refl y
        · exact least' y mem
      have heads := stable y
      rw [List.filter_cons_of_pos (ranking.level_self y),
        List.filter_cons_of_pos (by rw [level, before, behind, Bool.and_self])] at heads
      obtain ⟨rfl, -⟩ := List.cons.inj heads
      refine congrArg (y :: ·) (ih tail tail' perm.cons_inv fun x => ?_)
      have rest := stable x
      cases mem : level le x y with
      | true =>
        rw [List.filter_cons_of_pos mem, List.filter_cons_of_pos mem] at rest
        exact (List.cons.inj rest).2
      | false =>
        have out : ¬ level le x y = true := Bool.eq_false_iff.mp mem
        rwa [List.filter_cons_of_neg out, List.filter_cons_of_neg out] at rest

end StablySorted
end ContractCheck
