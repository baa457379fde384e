import ContractCheck.Layout
import ContractCheck.Proofs.Path.Rows

/-! # Mirrored directories

To swap a segment of a directory for another one is to change two of its segments at most: the first
one of that name that is not the last (`swapInner`), and the last one (`swapLast`).

So a directory comes back from its mirror (`mirror_mirror`), as long as it has no segment of the
name that it is mirrored to, however often and wherever it has the other one.
-/
namespace ContractCheck.Layout

open ContractCheck.Path

variable {source target : Text} {segs : List Text}

/-! ## Texts without slashes -/

theorem not_mem_of_bare {t : Text} (bare : ∀ c ∈ t, isSlash c = false) {c : Char}
    (slash : isSlash c = true) : c ∉ t :=
  fun mem => Bool.false_ne_true ((bare c mem).symm.trans slash)

theorem bare_of_not_mem {t : Text} (forward : '/' ∉ t) (back : '\\' ∉ t) :
    ∀ c ∈ t, isSlash c = false := by
  intro c mem
  have first : c ≠ '/' := by
    rintro rfl
    exact forward mem
  have second : c ≠ '\\' := by
    rintro rfl
    exact back mem
  simp [isSlash, first, second]

/-! ## Swapping in a text -/

theorem replaceFirst_here {old : Text} (given : old ≠ []) (new r : Text) :
    replaceFirst old new (old ++ r) = new ++ r := by
  obtain ⟨c, rest, rfl⟩ := List.exists_cons_of_ne_nil given
  have found : Text.startsWith (c :: (rest ++ r)) (c :: rest) = true :=
    Text.startsWith_iff.mpr ⟨r, rfl⟩
  rw [List.cons_append, replaceFirst, if_pos found, ← List.cons_append, List.drop_left]

theorem replaceFirst_cons {old r : Text} {c : Char} (none : ¬ old <+: c :: r) (new : Text) :
    replaceFirst old new (c :: r) = c :: replaceFirst old new r := by
  rw [replaceFirst, if_neg fun found => none (Text.startsWith_iff.mp found)]

theorem replaceLast_here {old : Text} (given : old ≠ []) (new : Text) :
    replaceLast old new old = new := by
  obtain ⟨c, rest, rfl⟩ := List.exists_cons_of_ne_nil given
  rw [replaceLast, if_pos (Text.startsWith_iff.mpr (List.prefix_refl _)), List.drop_length]

theorem replaceLast_cons {old r : Text} {c : Char} (none : c :: r ≠ old)
    (broken : c :: r ≠ old ++ ['\n'])
    (new : Text) : replaceLast old new (c :: r) = c :: replaceLast old new r := by
  rw [replaceLast]
  split
  · next found =>
    obtain ⟨rest, split⟩ := Text.startsWith_iff.mp found
    rw [← split, List.drop_left]
    split
    · exact absurd (split.symm.trans (List.append_nil old)) none
    · exact absurd split.symm broken
    · rfl
  · rfl

section Skip

variable {sep : Char} {x : Text}

theorem replaceFirst_skip (bare : sep ∉ x) (old new r : Text) :
    replaceFirst (sep :: old) new (x ++ r) = x ++ replaceFirst (sep :: old) new r := by
  induction x with
  | nil => rfl
  | cons c x ih =>
    obtain ⟨other, bare⟩ := List.ne_and_not_mem_of_not_mem_cons bare
    rw [List.cons_append, replaceFirst_cons fun found =>
      other (List.cons_prefix_cons.mp found).1, ih bare,
      List.cons_append]

theorem replaceLast_skip (bare : sep ∉ x) (old new r : Text) :
    replaceLast (sep :: old) new (x ++ r) = x ++ replaceLast (sep :: old) new r := by
  induction x with
  | nil => rfl
  | cons c x ih =>
    obtain ⟨other, bare⟩ := List.ne_and_not_mem_of_not_mem_cons bare
    have differs : ∀ rest : Text, c :: (x ++ r) ≠ sep :: rest :=
      fun rest eq => other (List.cons.inj eq).1.symm
    rw [List.cons_append, replaceLast_cons (differs old) (differs _), ih bare, List.cons_append]

/-- A directory without a kind of slash has nothing to swap between two of them. -/
theorem swapBetween_of_not_mem {directory : Text} (bare : sep ∉ directory) (source target : Text) :
    swapBetween sep source target directory = directory := by
  have first := replaceFirst_skip bare (source ++ [sep]) (sep :: target ++ [sep]) []
  have last := replaceLast_skip bare source (sep :: target) []
  rw [List.append_nil] at first last
  rw [swapBetween, List.cons_append, first]
  simp [replaceFirst, last, replaceLast]

end Skip

/-! ## Swapping segments -/

/-- The segments with the first `source` but the last segment made `target`. -/
def swapInner (source target : Text) : List Text → List Text
  | x :: y :: r => if x = source then target :: y :: r else x :: swapInner source target (y :: r)
  | segs => segs

/-- The segments with the last one made `target` if it is `source`. -/
def swapLast (source target : Text) : List Text → List Text
  | [] => []
  | [x] => [if x = source then target else x]
  | x :: y :: r => x :: swapLast source target (y :: r)

/-- The segments of the mirrored directory. -/
def mirror (source target : Text) (segs : List Text) : List Text :=
  swapLast source target (swapInner source target segs)

/-- What begins with a segment and a slash begins with no other segment. -/
theorem segment_unique {s x r : Text} (bare : '/' ∉ s) (plain : '/' ∉ x)
    (found : s ++ ['/'] <+: x ++ '/' :: r) : x = s := by
  obtain ⟨rest, eq⟩ := found
  have pieces := congrArg (Text.splitOn ['/']) eq
  rw [List.append_assoc, List.singleton_append, Text.splitOn_append_sep bare,
    Text.splitOn_append_sep plain] at pieces
  exact (List.cons.inj pieces).1.symm

/-- Between two slashes the first segment of the name is swapped. -/
theorem replaceFirst_slashed (bare : '/' ∉ source) (plain : Plain segs) :
    replaceFirst ('/' :: (source ++ ['/'])) ('/' :: (target ++ ['/'])) (slashed segs)
      = slashed (swapInner source target segs) := by
  induction segs with
  | nil => simp [replaceFirst, swapInner]
  | cons x segs ih =>
    obtain ⟨here, rest⟩ := List.forall_mem_cons.mp plain
    cases segs with
    | nil =>
      have absent : ¬ '/' :: (source ++ ['/']) <+: '/' :: (x ++ []) := by
        intro found
        have mem : '/' ∈ x ++ [] := (List.cons_prefix_cons.mp found).2.subset (by simp)
        exact here (by simpa using mem)
      rw [slashed_cons, slashed_nil, replaceFirst_cons absent, replaceFirst_skip here]
      simp [replaceFirst, swapInner]
    | cons y r =>
      by_cases same : x = source
      · subst same
        have found : slashed (x :: y :: r) = '/' :: (x ++ ['/']) ++ (y ++ slashed r) := by simp
        rw [found, replaceFirst_here (List.cons_ne_nil _ _), swapInner, if_pos rfl]
        simp
      · have absent : ¬ '/' :: (source ++ ['/']) <+: '/' :: (x ++ slashed (y :: r)) := fun found =>
          same (segment_unique bare here (List.cons_prefix_cons.mp found).2)
        rw [slashed_cons, replaceFirst_cons absent, replaceFirst_skip here, ih rest, swapInner,
          if_neg same,
          slashed_cons]

/-- No line feed stands at the end of the last segment. -/
def EndsInLine (segs : List Text) : Prop := ∀ x, segs.getLast? = some x → x.getLast? ≠ some '\n'

/-- At the end the last segment is swapped if it has the name. -/
theorem replaceLast_slashed (bare : '/' ∉ source) (plain : Plain segs) (ends : EndsInLine segs) :
    replaceLast ('/' :: source) ('/' :: target) (slashed segs) =
      slashed (swapLast source target segs) := by
  induction segs with
  | nil => rfl
  | cons x segs ih =>
    obtain ⟨here, rest⟩ := List.forall_mem_cons.mp plain
    cases segs with
    | nil =>
      by_cases same : x = source
      · subst same
        rw [slashed_cons, slashed_nil, List.append_nil,
          replaceLast_here (List.cons_ne_nil _ _), swapLast,
          if_pos rfl]
        simp
      · have whole : '/' :: (x ++ []) ≠ '/' :: source := by simpa using same
        have broken : '/' :: (x ++ []) ≠ '/' :: source ++ ['\n'] := by
          intro eq
          have eq : x = source ++ ['\n'] := by simpa using eq
          exact ends x rfl (by rw [eq, List.getLast?_concat])
        rw [slashed_cons, slashed_nil, replaceLast_cons whole broken,
          replaceLast_skip here, swapLast,
          if_neg same]
        simp [replaceLast]
    | cons y r =>
      have differs : ∀ s : Text, '/' ∉ s → '/' :: (x ++ slashed (y :: r)) ≠ '/' :: s := by
        intro s bare eq
        exact bare ((List.cons.inj eq).2 ▸ by simp)
      have broken : '/' ∉ source ++ ['\n'] := by simpa using bare
      rw [slashed_cons, replaceLast_cons (differs _ bare) (differs _ broken), replaceLast_skip here,
        ih rest ends, swapLast, slashed_cons]

/-! ## What segments a mirrored directory has -/

theorem swapInner_cons {x y : Text} {r : List Text} (other : x ≠ source) :
    swapInner source target (x :: y :: r) = x :: swapInner source target (y :: r) := if_neg other

theorem swapInner_ne_nil (given : segs ≠ []) : swapInner source target segs ≠ [] := by
  obtain ⟨x, r, rfl⟩ := List.exists_cons_of_ne_nil given
  cases r with
  | nil => exact given
  | cons y r =>
    rw [swapInner]
    split <;> exact List.cons_ne_nil _ _

theorem swapLast_cons {x : Text} (given : segs ≠ []) :
    swapLast source target (x :: segs) = x :: swapLast source target segs := by
  obtain ⟨y, r, rfl⟩ := List.exists_cons_of_ne_nil given
  rfl

theorem swapLast_of_not_mem (absent : source ∉ segs) : swapLast source target segs = segs := by
  induction segs with
  | nil => rfl
  | cons x segs ih =>
    obtain ⟨other, absent⟩ := List.ne_and_not_mem_of_not_mem_cons absent
    cases segs with
    | nil => rw [swapLast, if_neg other.symm]
    | cons y r => rw [swapLast, ih absent]

theorem getLast?_swapInner : (swapInner source target segs).getLast? = segs.getLast? := by
  induction segs with
  | nil => rfl
  | cons x segs ih =>
    cases segs with
    | nil => rfl
    | cons y r =>
      by_cases same : x = source
      · rw [swapInner, if_pos same, List.getLast?_cons_cons, List.getLast?_cons_cons]
      · have given : swapInner source target (y :: r) ≠ [] :=
          swapInner_ne_nil (List.cons_ne_nil y r)
        obtain ⟨z, rest, shape⟩ := List.exists_cons_of_ne_nil given
        rw [swapInner_cons same, List.getLast?_cons_cons, ← ih, shape, List.getLast?_cons_cons]

theorem getLast?_swapLast :
    (swapLast source target segs).getLast? = segs.getLast?.map fun x =>
    if x = source then target else x := by
  induction segs with
  | nil => rfl
  | cons x segs ih =>
    cases segs with
    | nil => rfl
    | cons y r =>
      rw [List.getLast?_cons_cons, ← ih]
      cases r <;> simp [swapLast]

/-- The last segment is the target, or stays as it is. -/
theorem getLast?_mirror {x : Text} (last : (mirror source target segs).getLast? = some x) :
    x = target ∨ segs.getLast? = some x := by
  rw [mirror, getLast?_swapLast, getLast?_swapInner] at last
  obtain ⟨y, there, rfl⟩ := Option.map_eq_some_iff.mp last
  by_cases same : y = source
  · exact .inl (if_pos same)
  · exact .inr (by rw [if_neg same, there])

theorem mem_swapInner {x : Text} (mem : x ∈ swapInner source target segs) :
    x = target ∨ x ∈ segs := by
  induction segs with
  | nil => exact .inr mem
  | cons z segs ih =>
    cases segs with
    | nil => exact .inr mem
    | cons y r =>
      by_cases same : z = source
      · rw [swapInner, if_pos same] at mem
        exact (List.mem_cons.mp mem).imp_right (List.mem_cons_of_mem _)
      · rw [swapInner_cons same] at mem
        rcases List.mem_cons.mp mem with rfl | mem
        · exact .inr List.mem_cons_self
        · exact (ih mem).imp_right (List.mem_cons_of_mem _)

theorem mem_swapLast {x : Text} (mem : x ∈ swapLast source target segs) :
    x = target ∨ x ∈ segs := by
  induction segs with
  | nil => cases mem
  | cons z segs ih =>
    cases segs with
    | nil =>
      rw [swapLast, List.mem_singleton] at mem
      by_cases same : z = source
      · exact .inl (mem.trans (if_pos same))
      · exact .inr (List.mem_singleton.mpr (mem.trans (if_neg same)))
    | cons y r =>
      rcases List.mem_cons.mp mem with rfl | mem
      · exact .inr List.mem_cons_self
      · exact (ih mem).imp_right (List.mem_cons_of_mem _)

/-- A mirrored directory has no new segments but the target. -/
theorem mem_mirror {x : Text} (mem : x ∈ mirror source target segs) : x = target ∨ x ∈ segs :=
  (mem_swapLast mem).elim .inl mem_swapInner

theorem plain_mirror (plain : Plain segs) (bare : '/' ∉ target) :
    Plain (mirror source target segs) :=
  fun _ mem => (mem_mirror mem).elim (fun eq => eq ▸ bare) (plain _)

/-! ## Mirroring -/

theorem swapLast_ne_nil (given : segs ≠ []) : swapLast source target segs ≠ [] := by
  obtain ⟨x, r, rfl⟩ := List.exists_cons_of_ne_nil given
  cases r <;> exact List.cons_ne_nil _ _

theorem mirror_ne_nil (given : segs ≠ []) : mirror source target segs ≠ [] :=
  swapLast_ne_nil (swapInner_ne_nil given)

theorem mirror_single (x : Text) : mirror source target [x] = [if x = source then target else x] :=
  rfl

theorem mirror_here (given : segs ≠ []) :
    mirror source target (source :: segs) = target :: swapLast source target segs := by
  obtain ⟨y, r, rfl⟩ := List.exists_cons_of_ne_nil given
  rw [mirror, swapInner, if_pos rfl, swapLast_cons given]

theorem mirror_cons {x : Text} (other : x ≠ source) (given : segs ≠ []) :
    mirror source target (x :: segs) = x :: mirror source target segs := by
  obtain ⟨y, r, rfl⟩ := List.exists_cons_of_ne_nil given
  rw [mirror, swapInner_cons other, swapLast_cons (swapInner_ne_nil given), mirror]

theorem swapLast_swapLast (absent : target ∉ segs) :
    swapLast target source (swapLast source target segs) = segs := by
  induction segs with
  | nil => rfl
  | cons x segs ih =>
    obtain ⟨other, absent⟩ := List.ne_and_not_mem_of_not_mem_cons absent
    cases segs with
    | nil => by_cases same : x = source <;> simp [swapLast, same, other.symm]
    | cons y r =>
      have given := List.cons_ne_nil y r
      rw [swapLast_cons given, swapLast_cons (swapLast_ne_nil given), ih absent]

/-- **A directory comes back from its mirror** if it has no segment of the name that it is mirrored
to. -/
theorem mirror_mirror (source : Text) (absent : target ∉ segs) :
    mirror target source (mirror source target segs) = segs := by
  induction segs with
  | nil => rfl
  | cons x segs ih =>
    obtain ⟨other, absent⟩ := List.ne_and_not_mem_of_not_mem_cons absent
    cases segs with
    | nil =>
      by_cases same : x = source
      · simp [mirror_single, same]
      · simp [mirror_single, same, other.symm]
    | cons y r =>
      have given := List.cons_ne_nil y r
      by_cases same : x = source
      · subst same
        rw [mirror_here given, mirror_here (swapLast_ne_nil given), swapLast_swapLast absent]
      · rw [mirror_cons same given, mirror_cons other.symm (mirror_ne_nil given), ih absent]

/-- A directory with one segment of the name has the other one in its place. -/
theorem mirror_once {before after : List Text} (first : source ∉ before) (last : source ∉ after) :
    mirror source target (before ++ source :: after) = before ++ target :: after := by
  induction before with
  | nil =>
    cases after with
    | nil => simp [mirror_single]
    | cons y r =>
      rw [List.nil_append, mirror_here (List.cons_ne_nil y r), swapLast_of_not_mem last]; rfl
  | cons x before ih =>
    obtain ⟨other, first⟩ := List.ne_and_not_mem_of_not_mem_cons first
    rw [List.cons_append, mirror_cons other.symm (by simp), ih first, List.cons_append]

/-- The mirrored directory, as a text. -/
theorem swapSegment_slashed (bare : '/' ∉ source) (plain : Plain segs) (swapped : '/' ∉ target)
    (ends : EndsInLine segs) (forward : '\\' ∉ slashed (mirror source target segs)) :
    swapSegment (slashed segs) source target = slashed (mirror source target segs) := by
  have inner : Plain (swapInner source target segs) :=
    fun _ mem => (mem_swapInner mem).elim (fun eq => eq ▸ swapped) (plain _)
  have ends : EndsInLine (swapInner source target segs) :=
    fun x last => ends x (getLast?_swapInner.symm.trans last)
  have between : swapBetween '/' source target (slashed segs) =
      slashed (mirror source target segs) := by
    rw [swapBetween, List.cons_append, List.cons_append, replaceFirst_slashed bare plain,
      replaceLast_slashed bare inner ends, mirror]
  rw [swapSegment, between, swapBetween_of_not_mem forward]

/-! ## Staged copies -/

/-- A path is cut at its last slash. -/
theorem splitPath_append {directory name : Text} (bare : ∀ c ∈ name, isSlash c = false) :
    splitPath (directory ++ '/' :: name) = (directory, name) := by
  rw [splitPath, Text.cutLastWhere_append rfl bare]
  rfl

/-- The staged copy lies in the mirrored directory, with the marker in front of its name. -/
theorem stagedPath_slashed {l : Layout} {name : Text} (bare : ∀ c ∈ name, isSlash c = false)
    (marked : '/' ∉ l.marker ++ name) (plain : Plain (mirror l.contracts l.temp segs))
    (mirrored : l.toStagingDir (slashed segs) = slashed (mirror l.contracts l.temp segs))
    (ends : ∃ x, (mirror l.contracts l.temp segs).getLast? = some x ∧ x ≠ []) :
    l.stagedPath (slashed segs ++ '/' :: name)
      = slashed (mirror l.contracts l.temp segs) ++ '/' :: (l.marker ++ name) := by
  rw [stagedPath, splitPath_append bare]
  simp only [mirrored]
  exact join_slashed plain ends (isAbsolute_of_not_mem marked)

end ContractCheck.Layout
