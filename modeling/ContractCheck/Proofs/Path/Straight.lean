import ContractCheck.Proofs.Path.Resolving

/-! # Paths that climb only at their start

When a path is resolved by its text alone, what is left of its climbing stands in front: only a
relative path has any.
-/
namespace ContractCheck.Path

variable {segs before : List Text}

/-- Whether segments climb only at their start. -/
def Straight (segs : List Text) : Prop := ∃ k rest, segs = List.replicate k up ++ rest ∧ up ∉ rest

theorem Straight.of_level (level : up ∉ segs) : Straight segs := ⟨0, segs, rfl, level⟩

/-- The last segment stands first: what there is to climb is behind all others. -/
def Settled (before : List Text) : Prop :=
  ∃ k rest, before = rest ++ List.replicate k up ∧ up ∉ rest

theorem Settled.pushSegment (h : Settled before) (rooted : Bool) (s : Text) :
    Settled (pushSegment rooted before s) := by
  obtain ⟨k, rest, rfl, level⟩ := h
  unfold Path.pushSegment
  split
  · exact ⟨k, rest, rfl, level⟩
  · split
    · cases rest with
      | nil =>
        cases k with
        | zero =>
          cases rooted
          · exact ⟨1, [], rfl, List.not_mem_nil⟩
          · exact ⟨0, [], rfl, List.not_mem_nil⟩
        | succ k => exact ⟨k + 2, [], if_pos rfl, List.not_mem_nil⟩
      | cons t rest =>
        obtain ⟨moves, level⟩ := List.ne_and_not_mem_of_not_mem_cons level
        exact ⟨k, rest, if_neg moves.symm, level⟩
    · next moves =>
        exact ⟨k, s :: rest, rfl, List.not_mem_cons_of_ne_of_not_mem (Ne.symm moves) level⟩

theorem straight_collapse (rooted : Bool) (segs : List Text) : Straight (collapse rooted segs) := by
  have settled : ∀ before : List Text, Settled before →
      Settled (segs.foldl (pushSegment rooted) before) := by
    induction segs with
    | nil => exact fun _ h => h
    | cons s segs ih => exact fun before h => ih _ (h.pushSegment rooted s)
  obtain ⟨k, rest, shape, level⟩ := settled [] ⟨0, [], rfl, List.not_mem_nil⟩
  refine ⟨k, rest.reverse, ?_, fun mem => level (List.mem_reverse.mp mem)⟩
  rw [collapse, shape, List.reverse_append, List.reverse_replicate]

theorem splitOn_join (plain : Plain segs) (given : segs ≠ []) :
    Text.splitOn ['/'] (Text.join ['/'] segs) = segs := by
  have pieces := splitOn_slashed plain
  rw [slashed_eq_join given, Text.splitOn_cons_sep] at pieces
  exact (List.cons.inj pieces).2

theorem plain_collapse (rooted : Bool) (p : Text) :
    Plain (collapse rooted (Text.splitOn ['/'] p)) := by
  have later : ∀ segs before : List Text, Plain segs → Plain before →
    Plain (segs.foldl (pushSegment rooted) before) := by
    intro segs
    induction segs with
    | nil => exact fun _ _ h => h
    | cons s segs ih =>
      intro before plain plain'
      obtain ⟨own, plain⟩ := List.forall_mem_cons.mp plain
      refine ih _ plain ?_
      have climbing : '/' ∉ up := by decide
      unfold pushSegment
      split
      · exact plain'
      · split
        · split
          · split
            · exact List.forall_mem_nil _
            · exact List.forall_mem_singleton.mpr climbing
          · split
            · exact List.forall_mem_cons.mpr ⟨climbing, plain'⟩
            · exact (List.forall_mem_cons.mp plain').2
        · exact List.forall_mem_cons.mpr ⟨own, plain'⟩
  intro s mem
  exact later _ [] (fun _ mem => Text.not_mem_of_mem_splitOn mem) (List.forall_mem_nil _) s
    (List.mem_reverse.mp mem)

/-- **A resolved path climbs only at its start.** -/
theorem straight_normalise (p : Text) : Straight (Text.splitOn ['/'] (Posix.normalise p)) := by
  by_cases absolute : Posix.isAbsolute p = true
  · -- Behind the root nothing is left to climb.
    have level : up ∉ Text.splitOn ['/']
        (Text.join ['/'] (collapse true (Text.splitOn ['/'] p))) := by
      by_cases given : collapse true (Text.splitOn ['/'] p) = []
      · rw [given]
        decide
      · rw [splitOn_join (plain_collapse true p) given]
        exact fun mem => (mem_collapse mem).2.2.2 rfl
    have other : up ≠ [] := by decide
    rw [normalise_of_absolute absolute]
    refine .of_level ?_
    rcases root_of_absolute absolute with root | root
    · rw [root, List.singleton_append, Text.splitOn_cons_sep]
      exact List.not_mem_cons_of_ne_of_not_mem other level
    · rw [root, List.cons_append, List.singleton_append, Text.splitOn_cons_sep,
        Text.splitOn_cons_sep]
      exact List.not_mem_cons_of_ne_of_not_mem other
        (List.not_mem_cons_of_ne_of_not_mem other level)
  · have relative : Posix.root p = [] := by
      fun_cases Posix.root p with
      | case4 => rfl
      | _ => exact absurd rfl absolute
    unfold Posix.normalise
    rw [relative]
    dsimp only
    rw [List.nil_append]
    split
    · exact .of_level (by decide)
    · next some =>
      rw [splitOn_join (plain_collapse _ p)]
      · exact straight_collapse _ _
      · intro none
        rw [none] at some
        exact some rfl

end ContractCheck.Path
