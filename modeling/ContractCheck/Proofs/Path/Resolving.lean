import ContractCheck.Proofs.Path.Rows

/-! # Resolved paths

What is left of an absolute path when it is resolved are segments with names of their own
(`Proper`), behind one slash or two.
-/
namespace ContractCheck.Path

variable {segs : List Text}

/-- A segment that is not empty and does not mean the directory itself or the one above. -/
def Proper (s : Text) : Prop := s ≠ [] ∧ s ≠ here ∧ s ≠ up

instance (s : Text) : Decidable (Proper s) := inferInstanceAs (Decidable (_ ∧ _))

/-- A text with a character that is no dot is a name of its own. -/
theorem proper_of_mem {s : Text} {c : Char} (mem : c ∈ s) (other : c ≠ '.') : Proper s := by
  refine ⟨?_, ?_, ?_⟩
  · rintro rfl
    cases mem
  · rintro rfl
    exact other (by simpa [here] using mem)
  · rintro rfl
    exact other (by simpa [up] using mem)

/-! ## What is left of segments -/

theorem pushSegment_of_proper {s : Text} (proper : Proper s) (rooted : Bool) (before : List Text) :
    pushSegment rooted before s = s :: before := by
  obtain ⟨given, moves, climbs⟩ := proper
  unfold pushSegment
  rw [if_neg (not_or_intro given moves), if_neg climbs]

/-- What is pushed has a name of its own, or was pushed before. -/
theorem mem_pushSegment {before : List Text} {s x : Text} (proper : ∀ y ∈ before, Proper y)
    (mem : x ∈ pushSegment true before s) : x ∈ before ∨ x = s ∧ Proper s := by
  unfold pushSegment at mem
  split at mem
  · exact .inl mem
  · next stays =>
    obtain ⟨given, moves⟩ := not_or.mp stays
    split at mem
    · cases before with
      | nil => cases mem
      | cons y r =>
        dsimp only at mem
        rw [if_neg (proper y List.mem_cons_self).2.2] at mem
        exact .inl (List.mem_cons_of_mem _ mem)
    · next climbs =>
      rcases List.mem_cons.mp mem with rfl | mem
      · exact .inr ⟨rfl, given, moves, climbs⟩
      · exact .inl mem

theorem foldl_pushSegment {before : List Text} (proper : ∀ y ∈ before, Proper y) {x : Text}
    (mem : x ∈ segs.foldl (pushSegment true) before) : x ∈ before ∨ x ∈ segs ∧ Proper x := by
  induction segs generalizing before with
  | nil => exact .inl mem
  | cons s segs ih =>
    have next : ∀ y ∈ pushSegment true before s, Proper y := by
      intro y inside
      rcases mem_pushSegment proper inside with old | ⟨rfl, new⟩
      · exact proper y old
      · exact new
    rcases ih next mem with old | ⟨inside, new⟩
    · rcases mem_pushSegment proper old with old | ⟨rfl, new⟩
      · exact .inl old
      · exact .inr ⟨List.mem_cons_self, new⟩
    · exact .inr ⟨List.mem_cons_of_mem _ inside, new⟩

/-- What is left are segments with names of their own. -/
theorem mem_collapse {x : Text} (mem : x ∈ collapse true segs) : x ∈ segs ∧ Proper x :=
  (foldl_pushSegment (List.forall_mem_nil Proper) (List.mem_reverse.mp mem)).resolve_left
    List.not_mem_nil

/-- Segments with names of their own stay. -/
theorem foldl_of_proper (proper : ∀ s ∈ segs, Proper s) (before : List Text) :
    segs.foldl (pushSegment true) before = segs.reverse ++ before := by
  induction segs generalizing before with
  | nil => rfl
  | cons s segs ih =>
    obtain ⟨here, rest⟩ := List.forall_mem_cons.mp proper
    rw [List.foldl_cons, pushSegment_of_proper here, ih rest]
    simp

theorem collapse_of_proper (proper : ∀ s ∈ segs, Proper s) : collapse true segs = segs := by
  rw [collapse, foldl_of_proper proper, List.append_nil, List.reverse_reverse]

theorem collapse_concat {s : Text} (proper : Proper s) {rooted : Bool} (segs : List Text) :
    collapse rooted (segs ++ [s]) = collapse rooted segs ++ [s] := by
  rw [collapse, List.foldl_append, List.foldl_cons, pushSegment_of_proper proper]
  simp [collapse]

/-! ## Roots -/

/-- An absolute path starts with one slash or two. -/
theorem root_of_absolute {p : Text} (absolute : Posix.isAbsolute p = true) :
    Posix.root p = ['/'] ∨ Posix.root p = ['/', '/'] := by
  fun_cases Posix.root p with
  | case1 => exact .inl rfl
  | case2 => exact .inr rfl
  | case3 => exact .inl rfl
  | case4 =>
    cases p with
    | nil => cases absolute
    | cons c r =>
      obtain rfl : '/' = c := by simpa [Posix.isAbsolute, Text.startsWith] using absolute
      simp_all

theorem normalise_of_absolute {p : Text} (absolute : Posix.isAbsolute p = true) :
    Posix.normalise p = Posix.root p ++ Text.join ['/'] (collapse true (Text.splitOn ['/'] p)) := by
  have given : Posix.root p ≠ [] := by
    rcases root_of_absolute absolute with root | root <;> simp [root]
  have rooted : (!(Posix.root p).isEmpty) = true := by simpa using given
  simp [Posix.normalise, rooted, given]

/-! ## Rows behind a root -/

/-- The empty segments that a row may start with: none, or one. -/
def IsLead (lead : List Text) : Prop := lead = [] ∨ lead = [[]]

section Lead

variable {lead : List Text} (leads : IsLead lead)
include leads

/-- Empty segments in front are passed over. -/
theorem collapse_lead (segs : List Text) :
    collapse true ([] :: (lead ++ segs)) = collapse true segs := by
  rcases leads with rfl | rfl <;> rfl

/-- Behind the root the segments of a row follow. -/
theorem lead_append_join (given : segs ≠ []) :
    '/' :: (slashed lead ++ Text.join ['/'] segs) = slashed (lead ++ segs) := by
  rw [slashed_append, slashed_eq_join given]
  rcases leads with rfl | rfl <;> simp

theorem root_row {s : Text} (given : s ≠ []) (bare : '/' ∉ s) :
    Posix.root (slashed (lead ++ s :: segs)) = '/' :: slashed lead := by
  obtain ⟨c, r, rfl⟩ := List.exists_cons_of_ne_nil given
  have other : c ≠ '/' := (List.ne_of_not_mem_cons bare).symm
  rcases leads with rfl | rfl <;> simp [Posix.root, other]

/-- A row is resolved segment by segment. -/
theorem normalise_row (first : ∃ s rest, segs = s :: rest ∧ s ≠ []) (plain : Plain (lead ++ segs)) :
    Posix.normalise (slashed (lead ++ segs))
      = '/' :: (slashed lead ++ Text.join ['/'] (collapse true segs)) := by
  obtain ⟨s, rest, rfl, given⟩ := first
  have absolute : Posix.isAbsolute (slashed (lead ++ s :: rest)) = true := by
    rcases leads with rfl | rfl <;> rfl
  have bare : '/' ∉ s := plain s (List.mem_append_right _ List.mem_cons_self)
  rw [normalise_of_absolute absolute, splitOn_slashed plain, collapse_lead leads,
    root_row leads given bare,
    List.cons_append]

/-- A resolved row has only segments with names of their own. -/
theorem proper_of_resolved (first : ∃ s rest, segs = s :: rest ∧ s ≠ [])
    (plain : Plain (lead ++ segs))
    (resolved : Posix.normalise (slashed (lead ++ segs)) = slashed (lead ++ segs)) :
    ∀ x ∈ segs, Proper x := by
  rw [normalise_row leads first plain] at resolved
  have some : collapse true segs ≠ [] := by
    intro none
    obtain ⟨s, rest, rfl, given⟩ := first
    have lengths := congrArg List.length resolved
    simp [none, Text.join] at lengths
    exact given lengths.1
  rw [lead_append_join leads some] at resolved
  have left : Plain (lead ++ collapse true segs) := by
    refine List.forall_mem_append.mpr ⟨fun x mem => plain x (List.mem_append_left _ mem),
      fun x mem => ?_⟩
    exact plain x (List.mem_append_right _ (mem_collapse mem).1)
  have same := List.append_cancel_left (slashed_inj left plain resolved)
  exact fun x mem => (mem_collapse (same.symm ▸ mem)).2

end Lead

/-! ## Resolved paths as rows -/

/-- The empty segments with which the row of a resolved path starts. -/
def leading (p : Text) : List Text := if Posix.root p = ['/', '/'] then [[]] else []

theorem plain_leading (p : Text) : Plain (leading p) := by
  intro s mem
  unfold leading at mem
  split at mem
  · obtain rfl := List.mem_singleton.mp mem
    exact List.not_mem_nil
  · cases mem

theorem isLead_leading (p : Text) : IsLead (leading p) := by
  unfold leading
  split
  · exact .inr rfl
  · exact .inl rfl

theorem root_eq_leading {p : Text} (absolute : Posix.isAbsolute p = true) :
    Posix.root p = '/' :: slashed (leading p) := by
  rcases root_of_absolute absolute with root | root <;> simp [leading, root]

/-- A resolved path is a row of segments with names of their own, behind one slash or two, unless it
is a root. -/
theorem row_of_resolved {p : Text} (absolute : Posix.isAbsolute p = true)
    (resolved : Posix.normalise p = p) :
    p = Posix.root p ∨ ∃ body, body ≠ [] ∧ (∀ s ∈ body, Proper s) ∧ Plain (leading p ++ body) ∧
      p = slashed (leading p ++ body) := by
  have shape := (normalise_of_absolute absolute).symm.trans resolved
  by_cases given : collapse true (Text.splitOn ['/'] p) = []
  · rw [given, Text.join, List.append_nil] at shape
    exact .inl shape.symm
  · have plain : Plain (collapse true (Text.splitOn ['/'] p)) :=
      fun s mem => Text.not_mem_of_mem_splitOn (mem_collapse mem).1
    refine .inr ⟨_, given, fun s mem => (mem_collapse mem).2,
      List.forall_mem_append.mpr ⟨plain_leading p, plain⟩, ?_⟩
    rw [← lead_append_join (isLead_leading p) given, ← List.cons_append,
      ← root_eq_leading absolute, shape]

/-! ## Resolving below a directory -/

section Below

variable {base inner : List Text} (own : ∀ x ∈ inner, Proper x)
  (named : ∃ x rest, base = x :: rest ∧ Proper x)
include own named

/-- A segment that does not leave a directory does the same below any other one. -/
theorem pushSegment_below {s : Text} (stays : base <:+ pushSegment true (inner ++ base) s) :
    ∃ inner', (∀ x ∈ inner', Proper x) ∧ ∀ other, pushSegment true (inner ++ other) s =
      inner' ++ other := by
  by_cases passed : s = [] ∨ s = here
  · refine ⟨inner, own, fun other => ?_⟩
    unfold pushSegment
    rw [if_pos passed]
  · by_cases climbs : s = up
    · subst climbs
      cases inner with
      | nil =>
        -- The last segment of the directory itself would be taken away.
        obtain ⟨x, rest, rfl, proper⟩ := named
        have gone : pushSegment true (x :: rest) up = rest := by
          unfold pushSegment
          rw [if_neg passed, if_pos rfl]
          exact if_neg proper.2.2
        rw [List.nil_append, gone] at stays
        have longer := stays.length_le
        rw [List.length_cons] at longer
        omega
      | cons x inner =>
        obtain ⟨here, rest⟩ := List.forall_mem_cons.mp own
        refine ⟨inner, rest, fun other => ?_⟩
        unfold pushSegment
        rw [if_neg passed, if_pos rfl]
        exact if_neg here.2.2
    · obtain ⟨given, moves⟩ := not_or.mp passed
      have proper : Proper s := ⟨given, moves, climbs⟩
      exact ⟨s :: inner, List.forall_mem_cons.mpr ⟨proper, own⟩,
        fun other => pushSegment_of_proper proper true (inner ++ other)⟩

/-- Segments that do not leave a directory do the same below any other one. -/
theorem foldl_below (stays : ∀ part, part <+: segs →
    base <:+ part.foldl (pushSegment true) (inner ++ base)) :
    ∃ inner', ∀ other, segs.foldl (pushSegment true) (inner ++ other) = inner' ++ other := by
  induction segs generalizing inner with
  | nil => exact ⟨inner, fun other => rfl⟩
  | cons s segs ih =>
    obtain ⟨next, own', moves⟩ :=
      pushSegment_below own named (stays [s] (List.prefix_append [s] segs))
    have later : ∀ part, part <+: segs → base <:+ part.foldl (pushSegment true) (next ++ base) := by
      intro part front
      have step := stays (s :: part) (List.cons_prefix_cons.mpr ⟨rfl, front⟩)
      rwa [List.foldl_cons, moves base] at step
    obtain ⟨inner', same⟩ := ih own' later
    refine ⟨inner', fun other => ?_⟩
    rw [List.foldl_cons, moves other, same other]

end Below

end ContractCheck.Path
