import ContractCheck.Proofs.Layout.Mirror
import ContractCheck.Proofs.Path.Resolving

/-! # Projects

A project has a tree of contracts and a tree of staged copies side by side.  Below both, paths that
do not leave them lead to the same places (`collapse_tree`).
-/
namespace ContractCheck.Layout

open ContractCheck.Path

/-- A single name for a directory. -/
structure Single (t : Text) : Prop where
  proper : Proper t
  bare : ∀ c ∈ t, isSlash c = false

/-- A layout whose trees of contracts and of staged copies have single names. -/
structure Named (l : Layout) : Prop where
  contracts : Single l.contracts
  temp : Single l.temp

/-- A place for a project, which is not inside a contracts directory. -/
structure Home (l : Layout) (home : Text) : Prop where
  absolute : Posix.isAbsolute home = true
  resolved : Posix.normalise home = home
  contracts : l.contracts ∉ Text.splitOn ['/'] home

/-- The contracts directory of a project. -/
def contractsIn (l : Layout) (home : Text) : Text := Posix.join home l.contracts

/-- A file below the contracts directory of a project, and below no other one. -/
structure Contract (l : Layout) (home file : Text) : Prop where
  resolved : Posix.normalise file = file
  inside : ∃ inner, file = l.contractsIn home ++ '/' :: inner ∧
    l.contracts ∉ Text.splitOn ['/'] inner
  forward : '\\' ∉ file
  inLine : '\n' ∉ file

/-! ## Projects as rows -/

variable {l : Layout} {home file : Text}

theorem Single.not_mem {t : Text} (h : Single t) {c : Char} (slash : isSlash c = true) : c ∉ t :=
  not_mem_of_bare h.bare slash

/-- The segments of a project's place. -/
structure HomeRow (l : Layout) (lead outer : List Text) : Prop where
  lead : IsLead lead
  proper : ∀ s ∈ outer, Proper s
  plain : Plain outer
  contracts : l.contracts ∉ outer

/-- The segments of a directory below a tree of a project. -/
def below (lead outer : List Text) (tree : Text) (inner : List Text) : List Text :=
  lead ++ (outer ++ tree :: inner)

/-- The segments of a file below the contracts directory of a project. -/
structure ContractRow (l : Layout) (lead outer inner : List Text) (name file : Text) : Prop where
  row : file = slashed (below lead outer l.contracts inner) ++ '/' :: name
  proper : ∀ s ∈ inner, Proper s
  plain : Plain inner
  bare : ∀ c ∈ name, isSlash c = false
  contracts : l.contracts ∉ inner
  forward : '\\' ∉ file
  inLine : '\n' ∉ file

theorem Home.row (h : Home l home) (names : Named l) :
    ∃ lead outer, HomeRow l lead outer ∧
      l.contractsIn home = slashed (below lead outer l.contracts []) := by
  have relative := isAbsolute_of_not_mem (names.contracts.not_mem (c := '/') rfl)
  rcases row_of_resolved h.absolute h.resolved with rooted | ⟨outer, given, proper, plain, row⟩
  · refine ⟨leading home, [], ⟨isLead_leading home, nofun, nofun, nofun⟩, ?_⟩
    rcases root_of_absolute h.absolute with root | root <;>
      · rw [root] at rooted
        subst rooted
        simp [contractsIn, Posix.join, relative, Text.endsWith, leading, root, below]
  · have pieces : ∀ s ∈ outer, s ∈ Text.splitOn ['/'] home := by
      intro s mem
      rw [row, splitOn_slashed plain]
      exact List.mem_cons_of_mem _ (List.mem_append_right _ mem)
    have bare : Plain outer := fun s mem => plain s (List.mem_append_right _ mem)
    obtain ⟨front, x, rfl⟩ := (List.eq_nil_or_concat outer).resolve_left given
    have ends : ∃ y, (leading home ++ front.concat x).getLast? = some y ∧ y ≠ [] := by
      refine ⟨x, ?_, (proper x (by simp)).1⟩
      rw [List.concat_eq_append, ← List.append_assoc, List.getLast?_concat]
    refine ⟨leading home, front.concat x,
      ⟨isLead_leading home, proper, bare, fun mem => h.contracts (pieces _ mem)⟩, ?_⟩
    have joined : l.contractsIn home = slashed (leading home ++ front.concat x) ++
        '/' :: l.contracts := by
      rw [contractsIn]
      conv => lhs; rw [row]
      exact join_slashed plain ends relative
    rw [joined]
    simp [below]

section Tree

variable {lead outer inner : List Text} {tree : Text} (around : HomeRow l lead outer)
  (single : Single tree)
include around single

theorem first_below (inner : List Text) :
    ∃ s rest, outer ++ tree :: inner = s :: rest ∧ s ≠ [] := by
  cases outer with
  | nil => exact ⟨tree, inner, rfl, single.proper.1⟩
  | cons s rest => exact ⟨s, rest ++ tree :: inner, rfl, (around.proper s List.mem_cons_self).1⟩

theorem plain_below (plain : Plain inner) : Plain (below lead outer tree inner) := by
  have bare : '/' ∉ tree := single.not_mem rfl
  have leads : Plain lead := by
    rcases around.lead with rfl | rfl
    · exact nofun
    · exact fun s mem => List.mem_singleton.mp mem ▸ List.not_mem_nil
  exact List.forall_mem_append.mpr
    ⟨leads, List.forall_mem_append.mpr ⟨around.plain, List.forall_mem_cons.mpr ⟨bare, plain⟩⟩⟩

omit around in
theorem ends_below (proper : ∀ s ∈ inner, Proper s) :
    ∃ x, (below lead outer tree inner).getLast? = some x ∧ x ≠ [] := by
  have last : (below lead outer tree inner).getLast? = (tree :: inner).getLast? := by
    rw [below, ← List.append_assoc, List.getLast?_append_of_ne_nil _ (List.cons_ne_nil _ _)]
  obtain ⟨x, there⟩ : ∃ x, (tree :: inner).getLast? = some x :=
    ⟨_, List.getLast?_eq_some_getLast (List.cons_ne_nil tree inner)⟩
  have names := List.forall_mem_cons.mpr ⟨single.proper, proper⟩
  exact ⟨x, last.trans there, (names x (List.mem_of_getLast? there)).1⟩

/-- What a path leads to from a directory below a tree. -/
theorem normalise_below (plain : Plain inner) (proper : ∀ s ∈ inner, Proper s) {path name : Text}
    (relative : Posix.isAbsolute path = false) (bare : '/' ∉ name) :
    Posix.normalise (Posix.join (Posix.dirname
      (slashed (below lead outer tree inner) ++ '/' :: name)) path)
      = '/' :: (slashed lead ++
          Text.join ['/'] (collapse true
            (outer ++ tree :: (inner ++ Text.splitOn ['/'] path)))) := by
  have rows := plain_below around single plain
  have ends : ∃ x, (below lead outer tree inner).getLast? = some x ∧ x ≠ [] :=
    ends_below single proper
  have shape : below lead outer tree inner ++ Text.splitOn ['/'] path
      = lead ++ (outer ++ tree :: (inner ++ Text.splitOn ['/'] path)) := by
    simp [below]
  rw [dirname_row rows ends bare, join_slashed rows ends relative, row_append, shape]
  refine normalise_row around.lead (first_below around single _) (shape ▸ ?_)
  exact List.forall_mem_append.mpr ⟨rows, fun s mem => Text.not_mem_of_mem_splitOn mem⟩

end Tree

section Files

variable {lead outer : List Text} (around : HomeRow l lead outer) (names : Named l)
include around names

theorem Contract.row (h : Contract l home file)
    (place : l.contractsIn home = slashed (below lead outer l.contracts [])) :
    ∃ inner name, ContractRow l lead outer inner name file := by
  obtain ⟨path, shape, contracts⟩ := h.inside
  have whole : file = slashed (lead ++ (outer ++ l.contracts :: Text.splitOn ['/'] path)) := by
    rw [shape, place, row_append]
    simp [below]
  have plain : Plain (below lead outer l.contracts (Text.splitOn ['/'] path)) :=
    plain_below around names.contracts fun s mem => Text.not_mem_of_mem_splitOn mem
  have proper :=
    proper_of_resolved around.lead (first_below around names.contracts _) plain (whole ▸ h.resolved)
  obtain ⟨inner, name, pieces⟩ := (List.eq_nil_or_concat (Text.splitOn ['/'] path)).resolve_left
    (Text.splitOn_ne_nil _ _)
  rw [List.concat_eq_append] at pieces
  rw [pieces] at whole contracts plain proper
  have row : file = slashed (below lead outer l.contracts inner) ++ '/' :: name := by
    rw [whole]
    simp [below]
  have slash : '/' ∉ name := plain name (by simp [below])
  have back : '\\' ∉ name := fun mem => h.forward (row ▸ by simp [mem])
  exact ⟨inner, name, row, fun s mem => proper s (by simp [mem]),
    fun s mem => plain s (by simp [below, mem]),
    bare_of_not_mem slash back, fun mem => contracts (List.mem_append_left _ mem),
    h.forward, h.inLine⟩

/-- The directory below the contracts directory has its mirror below the temporary one. -/
theorem mirror_below {inner : List Text} (absent : l.contracts ∉ inner) :
    mirror l.contracts l.temp (below lead outer l.contracts inner) =
      below lead outer l.temp inner := by
  have front : l.contracts ∉ lead ++ outer := by
    intro mem
    rcases List.mem_append.mp mem with mem | mem
    · rcases around.lead with rfl | rfl
      · cases mem
      · exact names.contracts.proper.1 (List.mem_singleton.mp mem)
    · exact around.contracts mem
  rw [below, below, ← List.append_assoc, ← List.append_assoc, mirror_once front absent]

/-- Where the staged copy of a file is. -/
theorem ContractRow.stagedPath {inner : List Text} {name : Text}
    (h : ContractRow l lead outer inner name file) (marker : '/' ∉ l.marker) :
    l.stagedPath file = slashed (below lead outer l.temp inner) ++ '/' :: (l.marker ++ name) := by
  have mirrored := mirror_below around names h.contracts
  have ends : EndsInLine (below lead outer l.contracts inner) := by
    intro x last feed
    refine h.inLine (h.row ▸ List.mem_append_left _ ?_)
    exact mem_slashed (List.mem_of_getLast? last) (List.mem_of_getLast? feed)
  have forward : '\\' ∉ slashed (below lead outer l.temp inner) := by
    refine not_mem_slashed (by decide) fun s mem inside => ?_
    rcases mem_mirror (mirrored ▸ mem) with rfl | old
    · exact names.temp.not_mem rfl inside
    · exact h.forward (h.row ▸ List.mem_append_left _ (mem_slashed old inside))
  have marked : '/' ∉ l.marker ++ name := by
    intro mem
    rcases List.mem_append.mp mem with mem | mem
    · exact marker mem
    · exact not_mem_of_bare h.bare rfl mem
  have directory : l.toStagingDir (slashed (below lead outer l.contracts inner))
      = slashed (mirror l.contracts l.temp (below lead outer l.contracts inner)) :=
    swapSegment_slashed (names.contracts.not_mem rfl) (plain_below around names.contracts h.plain)
      (names.temp.not_mem rfl) ends (mirrored.symm ▸ forward)
  have copy := stagedPath_slashed h.bare marked
    (mirrored.symm ▸ plain_below around names.temp h.plain) directory
    (mirrored.symm ▸ ends_below names.temp h.proper)
  rwa [mirrored, ← h.row] at copy

end Files

/-! ## Paths below a tree -/

section Leads

variable {lead outer inner inner' : List Text} (around : HomeRow l lead outer)
include around

/-- What stays below the contracts directory leads to the same place below any tree of the
project. -/
theorem collapse_tree (contracts : Proper l.contracts) {segs : List Text}
    (proper : ∀ s ∈ inner, Proper s)
    (stays : ∀ part, part <+: segs →
      outer ++ [l.contracts] <+: collapse true (outer ++ l.contracts :: (inner ++ part))) :
    ∃ inner', ∀ tree, Proper tree →
      collapse true (outer ++ tree :: (inner ++ segs)) = outer ++ tree :: inner' := by
  have stack : ∀ tree part, Proper tree → collapse true (outer ++ tree :: (inner ++ part))
      = (part.foldl (pushSegment true) (inner.reverse ++ (outer ++ [tree]).reverse)).reverse := by
    intro tree part single
    have front : ∀ s ∈ outer ++ tree :: inner, Proper s :=
      List.forall_mem_append.mpr ⟨around.proper, List.forall_mem_cons.mpr ⟨single, proper⟩⟩
    have split : outer ++ tree :: (inner ++ part) = (outer ++ tree :: inner) ++ part := by simp
    rw [split, collapse, List.foldl_append, foldl_of_proper front]
    simp
  have own : ∀ x ∈ inner.reverse, Proper x := fun x mem => proper x (List.mem_reverse.mp mem)
  have named : ∃ x rest, (outer ++ [l.contracts]).reverse = x :: rest ∧ Proper x :=
    ⟨l.contracts, outer.reverse, by simp, contracts⟩
  have within : ∀ part, part <+: segs → (outer ++ [l.contracts]).reverse
      <:+ part.foldl (pushSegment true) (inner.reverse ++ (outer ++ [l.contracts]).reverse) := by
    intro part front
    have below := stays part front
    rw [stack _ _ contracts] at below
    have reversed := List.reverse_suffix.mpr below
    rwa [List.reverse_reverse] at reversed
  obtain ⟨next, same⟩ := foldl_below own named within
  refine ⟨next.reverse, fun tree single => ?_⟩
  rw [stack _ _ single, same]
  simp

/-- What a path leads to below a tree has no slash in its segments. -/
theorem plain_of_leads {tree directory : Text} (plain : Plain inner)
    (leads : collapse true (outer ++ tree :: (inner ++ Text.splitOn ['/'] directory)) =
      outer ++ tree :: inner')
    (bare : '/' ∉ tree) : Plain inner' := by
  intro s mem
  have left : s ∈ collapse true (outer ++ tree :: (inner ++ Text.splitOn ['/'] directory)) := by
    rw [leads]
    simp [mem]
  have given := (mem_collapse left).1
  simp only [List.mem_append, List.mem_cons] at given
  rcases given with old | rfl | old | new
  · exact around.plain s old
  · exact bare
  · exact plain s old
  · exact Text.not_mem_of_mem_splitOn new

/-- Where a path leads from a file below a tree, when its directory leads to another one below
it. -/
theorem leads_below {tree directory file name : Text} (single : Single tree) (plain : Plain inner)
    (proper : ∀ s ∈ inner, Proper s) (bare : '/' ∉ file) (own : Proper name) (bare' : '/' ∉ name)
    (relative : ∃ c r, directory = c :: r ∧ c ≠ '/')
    (leads : collapse true (outer ++ tree :: (inner ++ Text.splitOn ['/'] directory))
      = outer ++ tree :: inner') :
    Posix.normalise (Posix.join (Posix.dirname
      (slashed (below lead outer tree inner) ++ '/' :: file))
        (directory ++ '/' :: name))
      = slashed (below lead outer tree inner') ++ '/' :: name := by
  obtain ⟨c, r, rfl, other⟩ := relative
  have start : Posix.isAbsolute (c :: r ++ '/' :: name) = false := by
    rw [Bool.eq_false_iff]
    exact fun absolute => other (List.cons_prefix_cons.mp (Text.startsWith_iff.mp absolute)).1.symm
  have pieces : outer ++ tree :: (inner ++ Text.splitOn ['/'] (c :: r ++ '/' :: name))
      = (outer ++ tree :: (inner ++ Text.splitOn ['/'] (c :: r))) ++ [name] := by
    rw [Text.splitOn_append, Text.splitOn_of_not_mem bare']
    simp
  rw [normalise_below around single plain proper start bare, pieces, collapse_concat own, leads,
    lead_append_join around.lead (by simp)]
  simp [below]

/-- A row of a file below the contracts directory tells its directory and its name. -/
theorem segments_unique (contracts : Single l.contracts) {file name name' : Text}
    (h : ContractRow l lead outer inner name file) (plain : Plain inner') (bare : '/' ∉ name')
    (same : file = slashed (below lead outer l.contracts inner') ++ '/' :: name') :
    inner' = inner ∧ name' = name := by
  have concat : ∀ inner name, slashed (below lead outer l.contracts inner) ++ '/' :: name
      = slashed (below lead outer l.contracts (inner ++ [name])) := by simp [below]
  have own : '/' ∉ name := not_mem_of_bare h.bare rfl
  have rows := h.row.symm.trans same
  rw [concat, concat] at rows
  have segments := slashed_inj
    (plain_below around contracts (List.forall_mem_append.mpr ⟨h.plain, by simpa using own⟩))
    (plain_below around contracts (List.forall_mem_append.mpr ⟨plain, by simpa using bare⟩)) rows
  have tails : inner ++ [name] = inner' ++ [name'] := by simpa [below] using segments
  obtain ⟨rfl, last⟩ := List.append_inj' tails rfl
  exact ⟨rfl, (List.singleton_inj.mp last).symm⟩

end Leads

end ContractCheck.Layout
