import ContractCheck.Proofs.Text.Pieces

/-! # Separators of several characters

A text is split at a separator from the left, and occurrences that overlap count once.  So a text
can be split where a separator is known to stand only if none begins before it and reaches into it
(`Sealed`).  Then the text behind it is split as if it were alone (`splitOn_sealed`).
-/
namespace ContractCheck.Text

variable {sep t : Text}

/-- No separator begins in the text and is completed by a separator behind it. -/
def Sealed (sep t : Text) : Prop :=
  ∀ v, v ≠ [] → v <:+ t → v.length < sep.length → ¬ sep <+: v ++ sep

theorem Sealed.tail {c : Char} (h : Sealed sep (c :: t)) : Sealed sep t :=
  fun v given ends => h v given (ends.trans (List.suffix_cons c t))

theorem consFirst_append (c : Char) {ps : List Text} (given : ps ≠ []) (qs : List Text) :
    consFirst c (ps ++ qs) = consFirst c ps ++ qs := by
  obtain ⟨p, ps, rfl⟩ := List.exists_cons_of_ne_nil given
  rfl

theorem length_consFirst (c : Char) {ps : List Text} (given : ps ≠ []) :
    (consFirst c ps).length = ps.length := by
  obtain ⟨p, ps, rfl⟩ := List.exists_cons_of_ne_nil given
  rfl

/-- What belongs to a separator is passed over. -/
theorem splitFrom_skip (sep s r : Text) : splitFrom sep s.length (s ++ r) = splitOn sep r := by
  induction s with
  | nil => rfl
  | cons c s ih => exact ih

theorem splitOn_here (given : sep ≠ []) (r : Text) :
    splitOn sep (sep ++ r) = [] :: splitOn sep r := by
  obtain ⟨c, s, rfl⟩ := List.exists_cons_of_ne_nil given
  have found : startsWith (c :: (s ++ r)) (c :: s) = true :=
    startsWith_iff.mpr (List.prefix_append (c :: s) r)
  rw [List.cons_append, splitOn, splitFrom, if_pos found, List.length_cons, Nat.add_sub_cancel,
    splitFrom_skip]

/-- A separator is found before another one just as if nothing came behind. -/
theorem Sealed.startsWith_append (h : Sealed sep t) (given : t ≠ []) (r : Text) :
    startsWith (t ++ (sep ++ r)) sep = startsWith t sep := by
  rw [Bool.eq_iff_iff, startsWith_iff, startsWith_iff]
  refine ⟨fun found => ?_, fun found => found.trans (List.prefix_append t _)⟩
  rw [← List.append_assoc] at found
  by_cases long : sep.length ≤ t.length
  · rw [List.append_assoc] at found
    exact List.prefix_of_prefix_length_le found (List.prefix_append t _) long
  · have reaches : sep <+: t ++ sep :=
      List.prefix_of_prefix_length_le found (List.prefix_append _ r) (by simp)
    exact absurd reaches (h t given (List.suffix_refl t) (by omega))

theorem splitFrom_sealed (given : sep ≠ []) (h : Sealed sep t) (r : Text) {k : Nat}
    (le : k ≤ t.length) :
    splitFrom sep k (t ++ (sep ++ r)) = splitFrom sep k t ++ splitOn sep r := by
  induction t generalizing k with
  | nil =>
    obtain rfl := Nat.le_zero.mp le
    exact splitOn_here given r
  | cons c t ih =>
    cases k with
    | succ k => exact ih h.tail (Nat.le_of_succ_le_succ le)
    | zero =>
      have same := h.startsWith_append (List.cons_ne_nil c t) r
      rw [List.cons_append] at same ⊢
      rw [splitFrom, splitFrom, same]
      split
      · next found =>
        have short := (startsWith_iff.mp found).length_le
        rw [List.length_cons] at short
        rw [ih h.tail (by omega), List.cons_append]
      · rw [ih h.tail (Nat.zero_le _), consFirst_append c (splitFrom_ne_nil sep 0 t)]

/-- **A sealed text is split alone**, and so is what comes behind the separator after it. -/
theorem splitOn_sealed (given : sep ≠ []) (h : Sealed sep t) (r : Text) :
    splitOn sep (t ++ (sep ++ r)) = splitOn sep t ++ splitOn sep r :=
  splitFrom_sealed given h r (Nat.zero_le _)

/-- A separator at the end has an empty piece behind it. -/
theorem splitOn_append_self (given : sep ≠ []) (h : Sealed sep t) :
    splitOn sep (t ++ sep) = splitOn sep t ++ [[]] := by
  have split := splitOn_sealed given h []
  rwa [List.append_nil] at split

/-- A text in which the separator does not occur is one piece. -/
theorem splitOn_of_free (free : ¬ sep <:+: t) : splitOn sep t = [t] := by
  induction t with
  | nil => rfl
  | cons c t ih =>
    have here : ¬ startsWith (c :: t) sep = true :=
      fun found => free (startsWith_iff.mp found).isInfix
    have behind : splitFrom sep 0 t = [t] :=
      ih fun inside => free (inside.trans (List.suffix_cons c t).isInfix)
    rw [splitOn, splitFrom, if_neg here, behind, consFirst]

/-- Pieces that are joined are split again, if each of them is sealed and none has the separator in
it. -/
theorem splitOn_join (given : sep ≠ []) {pieces : List Text} (some : pieces ≠ [])
    (free : ∀ p ∈ pieces, ¬ sep <:+: p) (closed : ∀ p ∈ pieces, Sealed sep p) :
    splitOn sep (join sep pieces) = pieces := by
  induction pieces with
  | nil => exact absurd rfl some
  | cons p rest ih =>
    obtain ⟨first, free⟩ := List.forall_mem_cons.mp free
    obtain ⟨shut, closed⟩ := List.forall_mem_cons.mp closed
    cases rest with
    | nil => exact splitOn_of_free first
    | cons q rest =>
      rw [join, List.append_assoc, splitOn_sealed given shut, splitOn_of_free first,
        ih (List.cons_ne_nil q rest) free closed, List.singleton_append]

/-- Where two separators stand together, there is an empty piece, and it is not the last one. -/
theorem mem_dropLast_of_doubled (given : sep ≠ []) (closed : ∀ t, Sealed sep t)
    (doubled : sep ++ sep <:+: t) :
    [] ∈ (splitOn sep t).dropLast := by
  obtain ⟨u, r, rfl⟩ := doubled
  have shape : u ++ (sep ++ sep) ++ r = u ++ (sep ++ (sep ++ r)) := by simp
  rw [shape, splitOn_sealed given (closed u), splitOn_here given,
    List.dropLast_append_of_ne_nil (List.cons_ne_nil _ _),
    List.dropLast_cons_of_ne_nil (splitOn_ne_nil sep r)]
  exact List.mem_append_right _ List.mem_cons_self

/-- Joined pieces do not end with the separator, unless the last one is empty. -/
theorem endsWith_join (given : sep ≠ []) (closed : ∀ t, Sealed sep t) {pieces : List Text}
    (some : pieces ≠ []) (free : ∀ p ∈ pieces, ¬ sep <:+: p) (last : pieces.getLast? ≠ .some []) :
    endsWith (join sep pieces) sep = false := by
  refine Bool.eq_false_iff.mpr fun ends => ?_
  obtain ⟨t, shape⟩ := List.isSuffixOf_iff_suffix.mp ends
  have split := splitOn_join given some free fun p _ => closed p
  rw [← shape, splitOn_append_self given (closed t)] at split
  exact last (split ▸ List.getLast?_concat)

/-! ## How many pieces there are -/

theorem splitFrom_nil (sep : Text) (k : Nat) : splitFrom sep k [] = [[]] := by cases k <;> rfl

/-- Where fewer characters are passed over there are as many pieces or more, and less than a
separator costs one piece at most. -/
theorem length_splitFrom (sep t : Text) :
    (∀ j k, k ≤ j → (splitFrom sep j t).length ≤ (splitFrom sep k t).length) ∧
      ∀ k ≤ sep.length - 1, (splitOn sep t).length ≤ (splitFrom sep k t).length + 1 := by
  induction t with
  | nil =>
    refine ⟨fun j k _ => ?_, fun k _ => ?_⟩
    · simp only [splitFrom_nil, Nat.le_refl]
    · rw [splitOn, splitFrom_nil, splitFrom_nil]
      exact Nat.le_succ _
  | cons c t ih =>
    obtain ⟨fewer, one⟩ := ih
    have here : (splitOn sep (c :: t)).length = (splitFrom sep (sep.length - 1) t).length + 1 ∨
        (splitOn sep (c :: t)).length = (splitOn sep t).length := by
      rw [splitOn, splitFrom]
      split
      · exact .inl rfl
      · exact .inr (length_consFirst c (splitOn_ne_nil sep t))
    have behind (j : Nat) : (splitFrom sep j t).length ≤ (splitOn sep (c :: t)).length := by
      have most : (splitFrom sep j t).length ≤ (splitOn sep t).length := fewer j 0 (Nat.zero_le j)
      have lost := one (sep.length - 1) (Nat.le_refl _)
      omega
    constructor
    · intro j k le
      cases j with
      | zero =>
        obtain rfl := Nat.le_zero.mp le
        exact Nat.le_refl _
      | succ j =>
        cases k with
        | zero => exact behind j
        | succ k => exact fewer j k (Nat.le_of_succ_le_succ le)
    · intro k le
      cases k with
      | zero => exact Nat.le_succ _
      | succ k =>
        have reached := fewer (sep.length - 1) k (by omega)
        have lost := one k (by omega)
        rw [splitFrom]
        omega

/-- A text has as many pieces as any of its ends, or more. -/
theorem length_splitOn_back {r : Text} (ends : r <:+ t) :
    (splitOn sep r).length ≤ (splitOn sep t).length := by
  obtain ⟨u, rfl⟩ := ends
  induction u with
  | nil => exact Nat.le_refl _
  | cons c u ih =>
    exact Nat.le_trans ih ((length_splitFrom sep (c :: (u ++ r))).1 1 0 (Nat.zero_le 1))

/-- A text has as many pieces as any of its beginnings, or more. -/
theorem length_splitOn_front {r : Text} (starts : r <+: t) :
    (splitOn sep r).length ≤ (splitOn sep t).length := by
  obtain ⟨u, rfl⟩ := starts
  suffices all : ∀ k, (splitFrom sep k r).length ≤ (splitFrom sep k (r ++ u)).length from all 0
  induction r with
  | nil =>
    intro k
    rw [splitFrom_nil]
    exact List.length_pos_iff.mpr (splitFrom_ne_nil sep k u)
  | cons c r ih =>
    intro k
    cases k with
    | succ k => exact ih k
    | zero =>
      rw [List.cons_append, splitFrom, splitFrom]
      by_cases found : startsWith (c :: r) sep = true
      · have longer : startsWith (c :: (r ++ u)) sep = true :=
          startsWith_iff.mpr ((startsWith_iff.mp found).trans (List.prefix_append (c :: r) u))
        rw [if_pos found, if_pos longer]
        exact Nat.succ_le_succ (ih _)
      · rw [if_neg found, length_consFirst c (splitFrom_ne_nil sep 0 r)]
        split
        · exact Nat.le_trans ((length_splitFrom sep r).2 _ (Nat.le_refl _))
            (Nat.succ_le_succ (ih _))
        · rw [length_consFirst c (splitFrom_ne_nil sep 0 (r ++ u))]
          exact ih 0

theorem length_splitOn_within {r : Text} (inside : r <:+: t) :
    (splitOn sep r).length ≤ (splitOn sep t).length := by
  obtain ⟨u, v, rfl⟩ := inside
  exact Nat.le_trans (length_splitOn_back (List.suffix_append u r))
    (length_splitOn_front (List.prefix_append _ v))

/-- Each piece is a part of the text. -/
theorem within_of_mem_splitOn (given : sep ≠ []) {piece : Text} (mem : piece ∈ splitOn sep t) :
    piece <:+: t := by
  suffices inside : ∀ pieces : List Text, piece ∈ pieces → piece <:+: join sep pieces by
    have joined := inside _ mem
    rwa [join_splitOn given] at joined
  intro pieces mem
  induction pieces with
  | nil => cases mem
  | cons p rest ih =>
    cases rest with
    | nil => exact List.mem_singleton.mp mem ▸ List.infix_refl _
    | cons q rest =>
      rw [join, List.append_assoc]
      rcases List.mem_cons.mp mem with rfl | mem
      · exact (List.prefix_append _ _).isInfix
      · exact ((ih mem).trans (List.suffix_append sep _).isInfix).trans
          (List.suffix_append p _).isInfix

/-! ## Separators that are only begun -/

/-- What begins a separator behind a sealed text, and does not complete it, belongs to the last
piece. -/
theorem splitFrom_begun (h : Sealed sep t) {tail : Text} (begun : tail <+: sep)
    (short : tail.length < sep.length) {k : Nat} (le : k ≤ t.length) :
    ∃ front last, splitFrom sep k t = front ++ [last] ∧
      splitFrom sep k (t ++ tail) = front ++ [last ++ tail] := by
  induction t generalizing k with
  | nil =>
    obtain rfl := Nat.le_zero.mp le
    have free : ¬ sep <:+: tail := fun inside => absurd inside.length_le (Nat.not_le.mpr short)
    exact ⟨[], [], rfl, splitOn_of_free free⟩
  | cons c t ih =>
    cases k with
    | succ k => exact ih h.tail (Nat.le_of_succ_le_succ le)
    | zero =>
      have same : startsWith (c :: (t ++ tail)) sep = startsWith (c :: t) sep := by
        rw [Bool.eq_iff_iff, startsWith_iff, startsWith_iff]
        refine ⟨fun found => ?_, fun found => found.trans (List.prefix_append (c :: t) tail)⟩
        by_cases long : sep.length ≤ (c :: t).length
        · exact List.prefix_of_prefix_length_le found (List.prefix_append (c :: t) tail) long
        · have reaches : sep <+: c :: t ++ sep :=
            found.trans ((List.prefix_append_right_inj (c :: t)).mpr begun)
          exact absurd reaches (h (c :: t) (List.cons_ne_nil c t) (List.suffix_refl _)
            (Nat.not_le.mp long))
      rw [List.cons_append, splitFrom, splitFrom, same]
      split
      · next found =>
        have reach := (startsWith_iff.mp found).length_le
        rw [List.length_cons] at reach
        obtain ⟨front, last, before, after⟩ := ih h.tail (k := sep.length - 1) (by omega)
        exact ⟨[] :: front, last, by rw [before, List.cons_append], by rw [after, List.cons_append]⟩
      · obtain ⟨front, last, before, after⟩ := ih h.tail (Nat.zero_le _)
        rw [before, after]
        cases front with
        | nil => exact ⟨[], c :: last, rfl, rfl⟩
        | cons p front => exact ⟨(c :: p) :: front, last, rfl, rfl⟩

theorem splitOn_begun (h : Sealed sep t) {tail : Text} (begun : tail <+: sep)
    (short : tail.length < sep.length) :
    ∃ front last, splitOn sep t = front ++ [last] ∧
      splitOn sep (t ++ tail) = front ++ [last ++ tail] :=
  splitFrom_begun h begun short (Nat.zero_le _)

end ContractCheck.Text
