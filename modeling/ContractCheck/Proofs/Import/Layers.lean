import ContractCheck.Document
import Mathlib.Data.List.Nodup

/-! # Sources in layers

Sources lead on to other sources.  From a root they are found in layers: the root, what it leads to,
what these lead to, and so on, each path only in the first layer that has it (`layer`).  A queue of
sources that wait takes them in just this order (`walk_eq`).
-/
namespace ContractCheck.Import

/-- The paths of sources. -/
abbrev paths (sources : List Source) : List Text := sources.map Source.path

/-- The sources with a path that is not known, the first one of each path. -/
def firsts (known : List Source) : List Source → List Source
  | [] => []
  | s :: rest => if s.path ∈ paths known then firsts known rest else s :: firsts (known ++ [s]) rest

/-- Whether a source has a path that is known. -/
def isKnown (known : List Source) (s : Source) : Bool := decide (s.path ∈ paths known)

/-- The sources with a path that is not known. -/
def unknown (known waiting : List Source) : List Source := waiting.filter fun s => !isKnown known s

section Walk

variable (next : Source → List Source) (root : Source)

/-- What is known after some layers, and what the last of them leads to. -/
def layers : Nat → List Source × List Source
  | 0 => ([], [root])
  | n + 1 =>
    ((layers n).1 ++ firsts (layers n).1 (layers n).2,
      (firsts (layers n).1 (layers n).2).flatMap next)

/-- The sources above a layer. -/
def above (n : Nat) : List Source := (layers next root n).1

/-- A layer: the root, or what the layer before leads to and no earlier layer has. -/
def layer (n : Nat) : List Source := firsts (layers next root n).1 (layers next root n).2

/-- Takes sources that wait until none is left, and lets those wait that they lead to. -/
def walk : Nat → List Source → List Source → List Source
  | 0, _, known => known
  | n + 1, waiting, known =>
    match waiting.dropWhile (isKnown known) with
    | [] => known
    | s :: rest => walk n (rest ++ unknown (known ++ [s]) (next s)) (known ++ [s])

end Walk

variable {next : Source → List Source} {root s : Source} {known waiting rest : List Source}

/-! ## First sources of their paths -/

theorem firsts_known (there : s.path ∈ paths known) :
    firsts known (s :: rest) = firsts known rest := if_pos there

theorem firsts_new (new : s.path ∉ paths known) :
    firsts known (s :: rest) = s :: firsts (known ++ [s]) rest := if_neg new

theorem firsts_sublist (known waiting : List Source) : (firsts known waiting).Sublist waiting := by
  induction waiting generalizing known with
  | nil => exact List.Sublist.slnil
  | cons s rest ih =>
    by_cases there : s.path ∈ paths known
    · rw [firsts_known there]
      exact (ih known).cons s
    · rw [firsts_new there]
      exact (ih _).cons_cons s

/-- The paths of the first sources are those that were not known. -/
theorem mem_paths_firsts {path : Text} :
    path ∈ paths (firsts known waiting) ↔ path ∈ paths waiting ∧ path ∉ paths known := by
  induction waiting generalizing known with
  | nil => simp [firsts]
  | cons s rest ih =>
    by_cases there : s.path ∈ paths known
    · rw [firsts_known there, ih]
      have other : path = s.path → ¬ path ∉ paths known := fun same new => new (same ▸ there)
      simp only [paths, List.map_cons, List.mem_cons]
      tauto
    · rw [firsts_new there]
      simp only [paths, List.map_cons, List.mem_cons] at ih ⊢
      rw [ih]
      simp only [List.map_append, List.map_cons, List.map_nil, List.mem_append, List.mem_singleton]
      have new : path = s.path → path ∉ known.map Source.path := fun same => same ▸ there
      tauto

theorem nodup_firsts (once : (paths known).Nodup) :
    (paths (known ++ firsts known waiting)).Nodup := by
  induction waiting generalizing known with
  | nil => simpa [firsts] using once
  | cons s rest ih =>
    by_cases there : s.path ∈ paths known
    · rw [firsts_known there]
      exact ih once
    · have further : (paths (known ++ [s])).Nodup := by
        rw [paths, List.map_append]
        exact once.append (List.nodup_singleton _) (by simpa using there)
      rw [firsts_new there, List.append_cons]
      exact ih further

/-! ## Layers -/

theorem above_zero : above next root 0 = [] := rfl

theorem above_succ (n : Nat) : above next root (n + 1) = above next root n ++ layer next root n :=
  rfl

theorem layer_zero : layer next root 0 = [root] := rfl

theorem layer_succ (n : Nat) : layer next root (n + 1)
    = firsts (above next root (n + 1)) ((layer next root n).flatMap next) := rfl

/-- What stands above a layer are the layers before it. -/
theorem above_eq (n : Nat) : above next root n = (List.range n).flatMap (layer next root) := by
  induction n with
  | zero => rfl
  | succ n ih => rw [above_succ, ih, List.range_succ, List.flatMap_append, List.flatMap_singleton]

theorem nodup_above (n : Nat) : (paths (above next root n)).Nodup := by
  induction n with
  | zero => exact List.nodup_nil
  | succ n ih => exact nodup_firsts ih

/-- The root comes first. -/
theorem above_head (n : Nat) : ∃ others, above next root (n + 1) = root :: others := by
  induction n with
  | zero => exact ⟨[], rfl⟩
  | succ n ih =>
    obtain ⟨others, shape⟩ := ih
    exact ⟨others ++ layer next root (n + 1), by rw [above_succ, shape, List.cons_append]⟩

/-- Behind an empty layer all are empty. -/
theorem layer_nil {n : Nat} (last : layer next root n = []) (k : Nat) :
    layer next root (n + k) = [] := by
  induction k with
  | zero => exact last
  | succ k ih =>
    rw [← Nat.add_assoc, layer_succ, ih]
    rfl

/-- Layers that are bounded in number come to an end. -/
theorem exists_layer_nil {bound : Nat} (bounded : ∀ n, (above next root n).length ≤ bound) :
    ∃ n, layer next root n = [] := by
  by_contra none
  have given (n : Nat) : layer next root n ≠ [] := fun empty => none ⟨n, empty⟩
  have long (n : Nat) : n ≤ (above next root n).length := by
    induction n with
    | zero => exact Nat.zero_le _
    | succ n ih =>
      rw [above_succ, List.length_append]
      exact Nat.add_le_add ih (List.length_pos_iff.mpr (given n))
  exact absurd (long (bound + 1)) (Nat.not_le.mpr (Nat.lt_succ_of_le (bounded _)))

/-! ## Walking -/

theorem isKnown_of_mem (there : s.path ∈ paths known) : isKnown known s = true :=
  decide_eq_true there

theorem isKnown_of_not_mem (new : s.path ∉ paths known) : isKnown known s = false :=
  decide_eq_false new

theorem unknown_known (there : s.path ∈ paths known) :
    unknown known (s :: rest) = unknown known rest :=
  List.filter_cons_of_neg (by rw [isKnown_of_mem there]; decide)

theorem unknown_new (new : s.path ∉ paths known) :
    unknown known (s :: rest) = s :: unknown known rest :=
  List.filter_cons_of_pos (by rw [isKnown_of_not_mem new]; decide)

theorem dropWhile_known (there : s.path ∈ paths known) :
    (s :: rest).dropWhile (isKnown known) = rest.dropWhile (isKnown known) :=
  List.dropWhile_cons_of_pos (isKnown_of_mem there)

theorem dropWhile_new (new : s.path ∉ paths known) :
    (s :: rest).dropWhile (isKnown known) = s :: rest :=
  List.dropWhile_cons_of_neg (by rw [isKnown_of_not_mem new]; decide)

theorem unknown_append (front : List Source) :
    unknown known (front ++ waiting) = unknown known front ++ unknown known waiting :=
  List.filter_append ..

/-- What leaves a queue for fewer known sources would leave it for more. -/
theorem unknown_unknown (further : List Source) :
    unknown (known ++ further) (unknown known waiting) = unknown (known ++ further) waiting := by
  induction waiting with
  | nil => rfl
  | cons s rest ih =>
    by_cases there : s.path ∈ paths known
    · have still : s.path ∈ paths (known ++ further) := by
        rw [paths, List.map_append]
        exact List.mem_append_left _ there
      rw [unknown_known there, unknown_known still, ih]
    · rw [unknown_new there]
      by_cases then' : s.path ∈ paths (known ++ further)
      · rw [unknown_known then', unknown_known then', ih]
      · rw [unknown_new then', unknown_new then', ih]

/-- A queue without its known sources starts as the queue does from its first new source on. -/
theorem dropWhile_shape (waiting : List Source) :
    waiting.dropWhile (isKnown known) = [] ∧ unknown known waiting = [] ∨
      ∃ s rest, waiting.dropWhile (isKnown known) = s :: rest ∧ s.path ∉ paths known ∧
        unknown known waiting = s :: unknown known rest := by
  induction waiting with
  | nil => exact .inl ⟨rfl, rfl⟩
  | cons first others ih =>
    by_cases there : first.path ∈ paths known
    · rw [dropWhile_known there, unknown_known there]
      exact ih
    · exact .inr ⟨first, others, dropWhile_new there, there, unknown_new there⟩

theorem walk_new (new : s.path ∉ paths known) (n : Nat) : walk next (n + 1) (s :: rest) known
    = walk next n (rest ++ unknown (known ++ [s]) (next s)) (known ++ [s]) := by
  rw [walk, dropWhile_new new]

/-- What is known stays known. -/
theorem subset_walk (n : Nat) (waiting known : List Source) :
    known ⊆ walk next n waiting known := by
  induction n generalizing waiting known with
  | zero => exact List.Subset.refl known
  | succ n ih =>
    unfold walk
    split
    · exact List.Subset.refl known
    · exact List.Subset.trans (List.subset_append_left _ _) (ih _ _)

/-- What is known already need not wait. -/
theorem walk_unknown (n : Nat) (waiting known : List Source) :
    walk next n (unknown known waiting) known = walk next n waiting known := by
  induction n generalizing waiting known with
  | zero => rfl
  | succ n ih =>
    obtain ⟨none, empty⟩ | ⟨s, rest, shape, new, front⟩ := dropWhile_shape waiting
    · rw [empty, walk, walk, none, List.dropWhile_nil]
    · have later : unknown (known ++ [s]) (unknown known rest ++ unknown (known ++ [s]) (next s))
          = unknown (known ++ [s]) (rest ++ unknown (known ++ [s]) (next s)) := by
        rw [unknown_append, unknown_unknown, ← unknown_append]
      rw [front, walk_new new, ← ih, later, ih, walk, shape]

theorem walk_known (there : s.path ∈ paths known) (n : Nat) :
    walk next n (s :: rest) known = walk next n rest known := by
  rw [← walk_unknown n (s :: rest), unknown_known there, walk_unknown]

/-- A new source is taken, and what it leads to waits behind all others. -/
theorem walk_take (new : s.path ∉ paths known) (n : Nat) :
    walk next (n + 1) (s :: rest) known = walk next n (rest ++ next s) (known ++ [s]) := by
  have same : unknown (known ++ [s]) (unknown (known ++ [s]) (next s)) =
      unknown (known ++ [s]) (next s) := by
    simp only [unknown, List.filter_filter, Bool.and_self]
  rw [walk_new new, ← walk_unknown, unknown_append, same, ← unknown_append, walk_unknown]

/-- Sources at the front are taken before those that wait behind them. -/
theorem walk_front (front waiting known : List Source) (n : Nat) :
    walk next ((firsts known front).length + n) (front ++ waiting) known
      = walk next n (waiting ++ (firsts known front).flatMap next)
      (known ++ firsts known front) := by
  induction front generalizing waiting known with
  | nil => simp [firsts]
  | cons s rest ih =>
    by_cases there : s.path ∈ paths known
    · rw [firsts_known there, List.cons_append, walk_known there, ih]
    · rw [firsts_new there, List.cons_append, List.length_cons, Nat.add_right_comm, walk_take there,
        List.append_assoc, ih]
      simp

theorem walk_layers (n m : Nat) : walk next ((above next root n).length + m) [root] []
    = walk next m (layers next root n).2 (above next root n) := by
  induction n generalizing m with
  | zero => rw [above_zero, List.length_nil, Nat.zero_add]; rfl
  | succ n ih =>
    have front := @walk_front next (layers next root n).2 [] (layers next root n).1 m
    rw [List.append_nil, List.nil_append] at front
    rw [above_succ, List.length_append, Nat.add_assoc, ih]
    exact front

/-- **A queue takes the sources layer by layer**, and ends with the last layer if it may go on for
long enough. -/
theorem walk_eq {n fuel : Nat} (last : layer next root n = [])
    (enough : (above next root n).length ≤ fuel) :
    walk next fuel [root] [] = above next root n := by
  obtain ⟨m, rfl⟩ := Nat.exists_eq_add_of_le enough
  -- Nothing that waits then is new.
  have done (waiting known : List Source) (none : firsts known waiting = []) :
      walk next m waiting known = known := by
    have empty : unknown known waiting = [] := by
      obtain ⟨-, empty⟩ | ⟨s, rest, shape, new, -⟩ := dropWhile_shape waiting
      · exact empty
      · have waits : s ∈ waiting := (List.dropWhile_sublist _).subset (shape ▸ List.mem_cons_self)
        have first : s.path ∈ paths (firsts known waiting) :=
          mem_paths_firsts.mpr ⟨List.mem_map_of_mem waits, new⟩
        rw [none] at first
        cases first
    rw [← walk_unknown, empty]
    cases m <;> rfl
  rw [walk_layers]
  exact done _ _ last

end ContractCheck.Import
