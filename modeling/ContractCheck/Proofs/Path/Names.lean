import ContractCheck.Proofs.Path.Straight

/-! # The name at the end of a path

A name that is put in a directory stays at the end when the path is resolved, and is its last name.
The other way around, a resolved path is its last name in its directory.
-/
namespace ContractCheck.Path

variable {name p : Text}

/-! ## Tidy paths -/

theorem root_cases (p : Text) :
    Posix.root p = [] ∨ Posix.root p = ['/'] ∨ Posix.root p = ['/', '/'] := by
  fun_cases Posix.root p with
  | case1 => exact .inr (.inl rfl)
  | case2 => exact .inr (.inr rfl)
  | case3 => exact .inr (.inl rfl)
  | case4 => exact .inl rfl

theorem root_closed (p : Text) : Posix.root p = [] ∨ ∃ before, Posix.root p = before ++ ['/'] := by
  rcases root_cases p with root | root | root
  · exact .inl root
  · exact .inr ⟨[], root⟩
  · exact .inr ⟨['/'], root⟩

/-- Behind the root, a text that starts with no slash leaves the root as it is. -/
theorem root_append (p : Text) {t : Text} (other : ∀ r, t ≠ '/' :: r) :
    Posix.root (Posix.root p ++ t) = Posix.root p := by
  cases t with
  | nil => rcases root_cases p with root | root | root <;> rw [root] <;> rfl
  | cons c r =>
    have plain : c ≠ '/' := fun same => other r (same ▸ rfl)
    rcases root_cases p with root | root | root <;> rw [root] <;> simp [Posix.root, plain]

theorem join_names (p : Text) : ∀ r, Text.join ['/'] (Posix.names p) ≠ '/' :: r := by
  intro r same
  cases names : Posix.names p with
  | nil => rw [names] at same; cases same
  | cons n ns =>
    obtain ⟨inside, own⟩ := List.mem_filter.mp (names ▸ List.mem_cons_self : n ∈ Posix.names p)
    have given : n ≠ [] := (by simpa using own : n ≠ [] ∧ n ≠ here).1
    obtain ⟨c, s, rfl⟩ := List.exists_cons_of_ne_nil given
    have bare : '/' ∉ c :: s := Text.not_mem_of_mem_splitOn inside
    rw [names] at same
    have first : c = '/' := by
      cases ns with
      | nil => exact (List.cons.inj same).1
      | cons m ns => exact (List.cons.inj same).1
    exact bare (first ▸ List.mem_cons_self)

theorem names_root_append (p t : Text) : Posix.names (Posix.root p ++ t) = Posix.names t := by
  have slash : ∀ t, Posix.names ('/' :: t) = Posix.names t := fun t => by
    rw [Posix.names, Text.splitOn_cons_sep, List.filter_cons_of_neg (by simp)]
    rfl
  rcases root_cases p with root | root | root <;> rw [root] <;> simp [slash]

theorem own_of_mem_names {n : Text} (mem : n ∈ Posix.names p) : '/' ∉ n ∧ n ≠ [] ∧ n ≠ here :=
  ⟨Text.not_mem_of_mem_splitOn (List.mem_of_mem_filter mem), by simpa using List.of_mem_filter mem⟩

theorem names_joined {ns : List Text} (own : ∀ n ∈ ns, '/' ∉ n ∧ n ≠ [] ∧ n ≠ here) :
    Posix.names (Text.join ['/'] ns) = ns := by
  by_cases none : ns = []
  · rw [none]
    rfl
  · rw [Posix.names, splitOn_join (fun n mem => (own n mem).1) none, List.filter_eq_self]
    intro n mem
    exact decide_eq_true (own n mem).2

theorem names_join_names (p : Text) :
    Posix.names (Text.join ['/'] (Posix.names p)) = Posix.names p :=
  names_joined fun _ => own_of_mem_names

/-- Tidying a tidy path changes nothing. -/
theorem tidy_tidy (p : Text) : Posix.tidy (Posix.tidy p) = Posix.tidy p := by
  by_cases empty : (Posix.root p ++ Text.join ['/'] (Posix.names p)).isEmpty
  · have here : Posix.tidy p = Path.here := if_pos empty
    rw [here]
    decide
  · have shape : Posix.tidy p = Posix.root p ++ Text.join ['/'] (Posix.names p) := if_neg empty
    have names : Posix.names (Posix.tidy p) = Posix.names p := by
      rw [shape, names_root_append, names_join_names]
    have root : Posix.root (Posix.tidy p) = Posix.root p := by
      rw [shape, root_append p (join_names p)]
    rw [Posix.tidy, Posix.withNames, names, root]
    exact (if_neg empty).trans shape.symm

/-- The directories on the way up begin with the path, tidy. -/
theorem lineage_eq (p : Text) : ∃ rest, Posix.lineage p = Posix.tidy p :: rest := by
  unfold Posix.lineage
  rw [List.range_succ_eq_map, List.map_cons, Nat.sub_zero, List.take_length]
  exact ⟨_, rfl⟩

/-! ## Paths that end in a name -/

/-- A path that ends in a name: the name alone, or behind a slash. -/
def EndsIn (name p : Text) : Prop := p = name ∨ ∃ front, p = front ++ '/' :: name

namespace EndsIn

theorem append (h : EndsIn name p) {front : Text}
    (closed : front = [] ∨ ∃ before, front = before ++ ['/']) :
    EndsIn name (front ++ p) := by
  rcases h with rfl | ⟨rest, rfl⟩
  · rcases closed with rfl | ⟨before, rfl⟩
    · exact .inl rfl
    · exact .inr ⟨before, by simp⟩
  · exact .inr ⟨front ++ rest, by simp⟩

/-- From a directory the path ends in the same name. -/
theorem join (h : EndsIn name p) (dir : Text) : EndsIn name (Posix.join dir p) := by
  unfold Posix.join
  split
  · exact h
  · split
    · next closed =>
      refine h.append ?_
      rcases Bool.or_eq_true_iff.mp closed with empty | ends
      · exact .inl (List.isEmpty_iff.mp empty)
      · obtain ⟨before, shape⟩ := List.isSuffixOf_iff_suffix.mp ends
        exact .inr ⟨before, shape.symm⟩
    · rw [List.append_cons]
      exact h.append (.inr ⟨dir, rfl⟩)

theorem of_join (segs : List Text) : EndsIn name (Text.join ['/'] (segs ++ [name])) := by
  induction segs with
  | nil => exact .inl rfl
  | cons s segs ih =>
    have shape : Text.join ['/'] (s :: segs ++ [name]) =
        (s ++ ['/']) ++ Text.join ['/'] (segs ++ [name]) := by
      cases segs <;> rfl
    rw [shape]
    exact ih.append (.inr ⟨s, rfl⟩)

variable (bare : '/' ∉ name)
include bare

theorem basename (h : EndsIn name p) : Posix.basename p = name := by
  rcases h with rfl | ⟨front, rfl⟩
  · rw [Posix.basename, Posix.cutName, Text.cutLast_eq_none bare]
  · rw [Posix.basename, Posix.cutName, Text.cutLast_append bare]

/-- Its last piece is the name. -/
theorem pieces (h : EndsIn name p) : ∃ segs, Text.splitOn ['/'] p = segs ++ [name] := by
  rcases h with rfl | ⟨front, rfl⟩
  · exact ⟨[], Text.splitOn_of_not_mem bare⟩
  · exact ⟨_, by rw [Text.splitOn_append, Text.splitOn_of_not_mem bare]⟩

theorem leaf (h : EndsIn name p) (given : name ≠ []) (moves : name ≠ here) :
    Posix.leaf p = name := by
  obtain ⟨segs, pieces⟩ := h.pieces bare
  rw [Posix.leaf, Posix.names, pieces, List.filter_append]
  simp [given, moves]

/-- A name of its own stays when the path is resolved. -/
theorem normalise (h : EndsIn name p) (proper : Proper name) : EndsIn name (Posix.normalise p) := by
  obtain ⟨segs, pieces⟩ := h.pieces bare
  have resolved : EndsIn name (Text.join ['/']
    (collapse (!(Posix.root p).isEmpty) segs ++ [name])) := of_join _
  have ends := resolved.append (root_closed p)
  have given : ¬ (Posix.root p ++ Text.join ['/']
      (collapse (!(Posix.root p).isEmpty) segs ++ [name])).isEmpty := by
    intro empty
    rw [List.isEmpty_iff.mp empty] at ends
    rcases ends with same | ⟨front, same⟩
    · exact proper.1 same.symm
    · simp at same
  unfold Posix.normalise
  dsimp only
  rwa [pieces, collapse_concat proper, if_neg given]

theorem tidy (h : EndsIn name p) (proper : Proper name) : EndsIn name (Posix.tidy p) := by
  obtain ⟨segs, pieces⟩ := h.pieces bare
  have names : Posix.names p = (segs.filter fun s => s ≠ [] ∧ s ≠ here) ++ [name] := by
    rw [Posix.names, pieces, List.filter_append]
    simp [proper.1, proper.2.1]
  have ends : EndsIn name (Posix.root p ++ Text.join ['/'] (Posix.names p)) :=
    names ▸ (of_join _).append (root_closed p)
  have given : ¬ (Posix.root p ++ Text.join ['/'] (Posix.names p)).isEmpty := by
    intro empty
    rw [List.isEmpty_iff.mp empty] at ends
    rcases ends with same | ⟨front, same⟩
    · exact proper.1 same.symm
    · simp at same
  have shape : Posix.tidy p = Posix.root p ++ Text.join ['/'] (Posix.names p) := if_neg given
  rwa [shape]

theorem child (dir : Text) (proper : Proper name) : EndsIn name (Posix.child dir name) :=
  (EndsIn.join (.inl rfl) _).tidy bare proper

end EndsIn

/-- The name of a path in a directory is the name that was put there. -/
theorem basename_join (dir : Text) (bare : '/' ∉ name) :
    Posix.basename (Posix.join dir name) = name :=
  (EndsIn.join (.inl rfl) dir).basename bare

theorem leaf_join (dir : Text) (bare : '/' ∉ name) (proper : Proper name) :
    Posix.leaf (Posix.join dir name) = name :=
  (EndsIn.join (.inl rfl) dir).leaf bare proper.1 proper.2.1

/-- **What is resolved in a directory has the name that was put there.** -/
theorem leaf_absolute (cwd dir : Text) (bare : '/' ∉ name) (proper : Proper name) :
    Posix.leaf (Posix.absolute cwd (Posix.join dir name)) = name :=
  (((EndsIn.join (.inl rfl) dir).join cwd).normalise bare proper).leaf bare proper.1 proper.2.1

/-- A last name has no slash in it, and is not the directory itself. -/
theorem leaf_cases (p : Text) :
    Posix.leaf p = [] ∨ '/' ∉ Posix.leaf p ∧ Posix.leaf p ≠ [] ∧ Posix.leaf p ≠ here := by
  unfold Posix.leaf
  cases last : (Posix.names p).getLast? with
  | none => exact .inl rfl
  | some name =>
    obtain ⟨inside, own⟩ := List.mem_filter.mp (List.mem_of_getLast? last)
    exact .inr ⟨Text.not_mem_of_mem_splitOn inside, by simpa using own⟩

/-- An absolute path that resolving leaves as it is. -/
structure Resolved (p : Text) : Prop where
  absolute : Posix.isAbsolute p = true
  fixed : Posix.normalise p = p

instance (p : Text) : Decidable (Resolved p) :=
  decidable_of_iff (Posix.isAbsolute p = true ∧ Posix.normalise p = p)
    ⟨fun h => ⟨h.1, h.2⟩, fun h => ⟨h.absolute, h.fixed⟩⟩

/-- **A resolved path is its last name in its directory.** -/
theorem Resolved.join_dirname_leaf (h : Resolved p) (given : Posix.leaf p ≠ []) :
    Posix.join (Posix.dirname p) (Posix.leaf p) = p := by
  rcases row_of_resolved h.absolute h.fixed with root | ⟨body, filled, proper, plain, shape⟩
  · -- A root has no names.
    rcases root_of_absolute h.absolute with one | two
    · exact absurd (by rw [root, one]; decide) given
    · exact absurd (by rw [root, two]; decide) given
  · obtain ⟨front, name, rfl⟩ := (List.eq_nil_or_concat body).resolve_left filled
    rw [List.concat_eq_append] at proper plain shape
    have own : Proper name := proper name (by simp)
    have bare : '/' ∉ name := plain name (by simp)
    have split : p = slashed (leading p ++ front) ++ '/' :: name := by
      rw [← List.append_assoc, slashed_append] at shape
      simpa using shape
    have ends : EndsIn name p := .inr ⟨_, split⟩
    have relative := isAbsolute_of_not_mem bare
    rw [ends.leaf bare own.1 own.2.1]
    rcases List.eq_nil_or_concat front with rfl | ⟨before, last, rfl⟩
    · -- Before the name there are only the slashes of the root.
      rw [List.append_nil] at split
      have slashes : (slashed (leading p) ++ ['/']).all (· == '/') = true := by
        rcases isLead_leading p with lead | lead <;> rw [lead] <;> rfl
      generalize slashed (leading p) = front at split slashes
      subst split
      have head : Posix.dirname (front ++ '/' :: name) = front ++ ['/'] := by
        rw [Posix.dirname, Posix.cutName, Text.cutLast_append bare]
        exact if_pos slashes
      have closed : Text.endsWith (front ++ ['/']) ['/'] = true :=
        List.isSuffixOf_iff_suffix.mpr (List.suffix_append front ['/'])
      simp [Posix.join, head, relative, closed]
    · have inner : ∃ x, (leading p ++ before.concat last).getLast? = some x ∧ x ≠ [] := by
        refine ⟨last, by simp, (proper last (by simp)).1⟩
      have plain' : Plain (leading p ++ before.concat last) :=
        fun s mem => plain s (by simp at mem ⊢; tauto)
      rw [split, dirname_row plain' inner bare, join_slashed plain' inner relative]

end ContractCheck.Path
