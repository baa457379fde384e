import ContractCheck.Proofs.Host.Opening

/-! # What an activity touches

An activity that moves, writes and removes some of what is in the file system leaves everything else
as it is, apart from the log and from directories that it makes on some way (`Host.Changes`).  If it
is about a few files, it also lets no more and no less be done in any directory (`Host.Touches`).
For that the files have to stand apart: none of them is a directory or above anything, and the log
is written to neither there nor below (`Host.Apart`).  They still do after each of the operations
(`Apart.relocate`, `Apart.set`, `Apart.erase`, `Apart.write`, `Apart.makeDirectories`).
-/
namespace ContractCheck

open ContractCheck.Action
open FileSystem (Clear OnWay)

variable {h h' h'' : Host} {touched touched' made : Place → Prop} {σ : List Place} {p q : Place}

/-- A change of files that can be made is all that is done. -/
theorem Action.perform_change_ok {f : FileSystem → Place → Text → Except FileError FileSystem}
    {path : Text} {fs : FileSystem}
    (changed : f h.files h.cwd path = .ok fs) :
    (Action.change f path).perform h = (.ok ⟨⟩, { h with files := fs }) := by
  rw [perform_change, changed]

namespace Host

/-- A host after an activity that changed what is at some places: elsewhere only the log was
written, and directories were made on its way and on another one. -/
structure Changes (touched made : Place → Prop) (h h' : Host) : Prop where
  shows : h.Shows [] h'
  atLog : ∀ q, h'.AtLog q → h.AtLog q
  onLogWay : ∀ q, h'.OnLogWay q → h.OnLogWay q
  entry : ∀ q, ¬ touched q → h'.files.get? q = h.files.get? q ∨
    (h.AtLog q ∧ h.files.get? q ≠ some .directory ∧ ∃ content x,
      h'.files.get? q = some (.file content x)) ∨
    ((h.OnLogWay q ∨ made q) ∧ h.files.get? q = none ∧ h'.files.get? q = some .directory)

/-- A host after such an activity by which no directory was denied or allowed. -/
structure Touches (touched made : Place → Prop) (h h' : Host) : Prop extends
    h.Changes touched made h' where
  denied : h'.files.denied = h.files.denied

/-- A host in which some places hold no directories and stand above nothing, and writing to the log
changes nothing there or below. -/
structure Apart (σ : List Place) (h : Host) : Prop where
  ready : h.LogReady
  free : ∀ p ∈ σ, h.files.get? p ≠ some .directory
  clear : ∀ p ∈ σ, Clear h.files.get? p
  aside : ∀ p ∈ σ, ∀ q, p <+: q → ¬ h.LogArea q

namespace Changes

theorem refl (touched made : Place → Prop) (h : Host) : h.Changes touched made h :=
  ⟨.refl h, fun _ => id, fun _ => id, fun _ _ => .inl rfl⟩

theorem widen {made' : Place → Prop} (changes : h.Changes touched made h')
    (more : ∀ q, touched q → touched' q) (more' : ∀ q, made q → made' q) :
    h.Changes touched' made' h' :=
  { changes with
    entry := fun q other => (changes.entry q fun inside => other (more q inside)).imp_right
      (Or.imp_right (And.imp_left (Or.imp_right (more' q)))) }

theorem mono (changes : h.Changes touched made h') (more : ∀ q, touched q → touched' q) :
    h.Changes touched' made h' := changes.widen more fun _ => id

theorem trans (first : h.Changes touched made h') (second : h'.Changes touched made h'') :
    h.Changes touched made h'' where
  shows := first.shows.trans second.shows
  atLog q := first.atLog q ∘ second.atLog q
  onLogWay q := first.onLogWay q ∘ second.onLogWay q
  entry q other := by
    rcases first.entry q other with same | ⟨inside, free, content, x, file⟩ | ⟨way, none, directory⟩
    · rw [← same]
      exact (second.entry q other).imp_right
        (Or.imp (And.imp_left (first.atLog q)) (And.imp_left (Or.imp_left (first.onLogWay q))))
    · rcases second.entry q other with same | ⟨-, -, file'⟩ | ⟨-, none, -⟩
      · exact .inr (.inl ⟨inside, free, content, x, same.trans file⟩)
      · exact .inr (.inl ⟨inside, free, file'⟩)
      · cases none.symm.trans file
    · rcases second.entry q other with same | ⟨-, free, -⟩ | ⟨-, none', -⟩
      · exact .inr (.inr ⟨way, none, same.trans directory⟩)
      · exact absurd directory free
      · cases none'.symm.trans directory

/-- What changes files only. -/
theorem files {fs : FileSystem} (entry : ∀ q, ¬ touched q → fs.get? q = h.files.get? q ∨
    made q ∧ h.files.get? q = none ∧ fs.get? q = some .directory) :
    h.Changes touched made { h with files := fs } :=
  ⟨.files h fs, fun _ => id, fun _ => id, fun q other => (entry q other).imp_right
    fun new => .inr ⟨.inr new.1, new.2⟩⟩

variable (changes : h.Changes touched made h')
include changes

theorem cwd : h'.cwd = h.cwd := changes.shows.cwd

theorem area (q : Place) : h'.LogArea q → h.LogArea q :=
  Or.imp (changes.atLog q) (changes.onLogWay q)

end Changes

namespace Touches

theorem refl (touched made : Place → Prop) (h : Host) : h.Touches touched made h :=
  ⟨.refl .., rfl⟩

theorem widen {made' : Place → Prop} (touches : h.Touches touched made h')
    (more : ∀ q, touched q → touched' q) (more' : ∀ q, made q → made' q) :
    h.Touches touched' made' h' := ⟨touches.toChanges.widen more more', touches.denied⟩

theorem mono (touches : h.Touches touched made h') (more : ∀ q, touched q → touched' q) :
    h.Touches touched' made h' := touches.widen more fun _ => id

theorem trans (first : h.Touches touched made h') (second : h'.Touches touched made h'') :
    h.Touches touched made h'' :=
  ⟨first.toChanges.trans second.toChanges, second.denied.trans first.denied⟩

/-- What changes files only. -/
theorem files {fs : FileSystem} (denied : fs.denied = h.files.denied)
    (entry : ∀ q, ¬ touched q → fs.get? q = h.files.get? q) :
    h.Touches touched made { h with files := fs } :=
  ⟨.files fun q other => .inl (entry q other), denied⟩

/-- **Writing to the log touches nothing.** -/
theorem of_written {level : LogLevel} {owner message : Text} {context : Fields}
    (done : (Log.write level owner message context).perform h = (.ok ⟨⟩, h')) :
    h.Touches (fun _ => False) (fun _ => False) h' := by
  obtain ⟨logged, opened, within⟩ := Log.write_within done
  exact
    { shows := logged.shows
      atLog := logged.atLog
      onLogWay := fun q ⟨settings, _, planned, _⟩ => absurd ⟨settings, planned⟩ opened
      denied := within.denied
      entry := fun q _ => (within.entry q).imp_right (Or.imp_right (And.imp_left .inl)) }

variable (touches : h.Touches touched made h')
include touches

/-- A file that stands apart and is not touched stays as it is. -/
theorem same (apart : h.Apart σ) (apart' : h'.Apart σ) (mem : p ∈ σ) (other : ¬ touched p) :
    h'.files.get? p = h.files.get? p := by
  rcases touches.entry p other with same | ⟨inside, -⟩ | ⟨-, -, directory⟩
  · exact same
  · exact absurd (.inl inside) (apart.aside p mem p List.prefix_rfl)
  · exact absurd directory (apart'.free p mem)

/-- No directory goes, if nothing but files that stand apart is touched. -/
theorem directory (apart : h.Apart σ) (inside : ∀ q, touched q → q ∈ σ) (q : Place)
    (stands : h.files.get? q = some .directory) : h'.files.get? q = some .directory := by
  have other : ¬ touched q := fun mem => apart.free q (inside q mem) stands
  rcases touches.entry q other with same | ⟨-, free, -⟩ | ⟨-, none, -⟩
  · rw [same, stands]
  · exact absurd stands free
  · cases none.symm.trans stands

theorem standing {dir : Text} (apart : h.Apart σ) (inside : ∀ q, touched q → q ∈ σ)
    (standing : h.files.Standing h.cwd dir) :
    h'.files.Standing h'.cwd dir := by
  rw [touches.cwd]
  exact standing.keeps (touches.directory apart inside)

end Touches

namespace Apart

variable (apart : h.Apart σ)
include apart

theorem not_root (mem : p ∈ σ) : p ≠ [] := by
  rintro rfl
  exact apart.free [] mem rfl

/-- A file that stands apart is not above a directory. -/
theorem not_above {dir : Place} (mem : p ∈ σ) (stands : h.files.get? dir = some .directory) :
    ¬ p <+: dir :=
  (apart.clear p mem).not_above (apart.free p mem) stands

/-- Nothing in a directory is below a file that stands apart. -/
theorem eq_of_above {name : Text} {dir : Place} (mem : p ∈ σ)
    (stands : h.files.get? dir = some .directory)
    (above : p <+: dir ++ [name]) : p = dir ++ [name] := by
  by_contra other
  have inside := FileSystem.prefix_dropLast above other
  rw [List.dropLast_concat] at inside
  exact apart.not_above mem stands inside

/-- What stands apart still does after a change at some places of it, which puts no directory
there. -/
theorem files {fs : FileSystem} (free : ∀ z ∈ σ, touched z → fs.get? z ≠ some .directory)
    (below : ∀ p ∈ σ, ∀ q, p <+: q → q ≠ p → touched q → fs.get? q = none)
    (rest : ∀ z, ¬ touched z → fs.get? z = h.files.get? z) : { h with files := fs }.Apart σ where
  ready := ready_of_same rfl rfl apart.ready
  free z mem := by
    by_cases here : touched z
    · exact free z mem here
    · rw [show ({ h with files := fs } : Host).files.get? z = fs.get? z from rfl, rest z here]
      exact apart.free z mem
  clear z mem q inside other := by
    by_cases here : touched q
    · exact below z mem q inside other here
    · exact (rest q here).trans (apart.clear z mem q inside other)
  aside := apart.aside

section Moved

variable {name : Text} {dir : Place} {n : Node} (mem : p ∈ σ) (mem' : dir ++ [name] ∈ σ)
  (other : p ≠ dir ++ [name])
  (stands : h.files.get? dir = some .directory) (given : h.files.get? p = some n)
include mem mem' other stands given

/-- **A file that is moved into a directory is what changes.** -/
theorem relocate (made : Place → Prop) :
    { h with files := h.files.relocate p (dir ++ [name]) }.Apart σ ∧
    h.Touches (fun z => z = p ∨ z = dir ++ [name]) made
      { h with files := h.files.relocate p (dir ++ [name]) } ∧
    (h.files.relocate p (dir ++ [name])).get? (dir ++ [name]) = some n ∧
    (h.files.relocate p (dir ++ [name])).get? p = none := by
  have arrived : (h.files.relocate p (dir ++ [name])).get? (dir ++ [name]) = some n :=
    (FileSystem.get?_relocate_target (apart.not_root mem) (apart.not_root mem')).trans given
  have gone : (h.files.relocate p (dir ++ [name])).get? p = none := by
    refine FileSystem.get?_relocate_source (apart.not_root mem) fun above => ?_
    cases (apart.clear _ mem' p above other).symm.trans given
  have rest : ∀ z, ¬ (z = p ∨ z = dir ++ [name]) →
      (h.files.relocate p (dir ++ [name])).get? z = h.files.get? z := by
    intro z apart'
    obtain ⟨left, right⟩ := not_or.mp apart'
    exact FileSystem.get?_relocate_clear (apart.clear p mem) (apart.clear _ mem') left right
  have denied := FileSystem.denied_relocate (apart.clear p mem) (apart.free p mem)
    (apart.clear _ mem') (apart.free _ mem')
  refine ⟨apart.files ?_ ?_ rest, .files denied rest, arrived, gone⟩
  · rintro z - (rfl | rfl)
    · rw [gone]
      exact (Option.some_ne_none _).symm
    · rw [arrived, ← given]
      exact apart.free p mem
  · rintro z mem'' q above differs (rfl | rfl)
    · exact gone
    · exact absurd (apart.eq_of_above mem'' stands above).symm differs

end Moved

/-- A file that is written in a directory is what changes. -/
theorem set (made : Place → Prop) {dir : Place} {name : Text} (mem : dir ++ [name] ∈ σ)
    (stands : h.files.get? dir = some .directory) (content : Bytes) (x : Mode) :
    { h with files := h.files.set (dir ++ [name]) (.file content x) }.Apart σ ∧
    h.Touches (· = dir ++ [name]) made
      { h with files := h.files.set (dir ++ [name]) (.file content x) } := by
  have rest : ∀ z, ¬ z = dir ++ [name] → (h.files.set (dir ++ [name]) (.file content x)).get? z =
    h.files.get? z := fun z =>
    FileSystem.get?_set_of_ne _ _
  have denied := FileSystem.denied_set (n := .file content x) fun directory =>
    absurd directory (apart.free _ mem)
  refine ⟨apart.files ?_ ?_ rest, .files denied rest⟩
  · rintro z - rfl
    rw [FileSystem.get?_set_self _ _ (by simp)]
    simp
  · rintro z mem q above differs rfl
    exact absurd (apart.eq_of_above mem stands above).symm differs

/-- A file that is removed is what changes. -/
theorem erase (made : Place → Prop) (mem : p ∈ σ) : { h with files := h.files.erase p }.Apart σ ∧
    h.Touches (· = p) made { h with files := h.files.erase p } ∧
    (h.files.erase p).get? p = none := by
  have gone : (h.files.erase p).get? p = none := by
    rw [FileSystem.get?_erase _ _ (apart.not_root mem),
      if_pos (List.isPrefixOf_iff_prefix.mpr List.prefix_rfl)]
  have rest : ∀ z, ¬ z = p → (h.files.erase p).get? z = h.files.get? z := fun z =>
    FileSystem.get?_erase_clear (apart.clear p mem)
  refine ⟨apart.files ?_ ?_ rest,
    .files (FileSystem.denied_erase (apart.clear p mem) (apart.free p mem)) rest, gone⟩
  · rintro z - rfl
    rw [gone]
    exact (Option.some_ne_none _).symm
  · rintro z - q - - rfl
    exact gone

/-- **Writing to the log leaves what stands apart.** -/
theorem write (made : Place → Prop) (level : LogLevel) (owner message : Text) (context : Fields) :
    ∃ h', (Log.write level owner message context).perform h = (.ok ⟨⟩, h') ∧ h'.Apart σ ∧
      h.Touches (fun _ => False) made h' := by
  obtain ⟨h', performed, -⟩ := Log.write_logs level owner message context h apart.ready
  have touches := Touches.of_written performed
  -- At the places that stand apart and below them the log is not.
  have rest : ∀ p ∈ σ, ∀ q, p <+: q → h'.files.get? q = h.files.get? q := by
    intro p mem q below
    rcases touches.entry q not_false with same | ⟨inside, -⟩ | ⟨way | nowhere, -⟩
    · exact same
    · exact absurd (.inl inside) (apart.aside p mem q below)
    · exact absurd (.inr way) (apart.aside p mem q below)
    · exact nowhere.elim
  refine ⟨h', performed, ⟨touches.shows.ready apart.ready, fun p mem => ?_,
    fun p mem q below other => ?_,
    fun p mem q below area => apart.aside p mem q below (touches.area q area)⟩,
      touches.widen (fun _ => id) fun _ => False.elim⟩
  · rw [rest p mem p List.prefix_rfl]
    exact apart.free p mem
  · rw [rest p mem q below]
    exact apart.clear p mem q below other

end Apart

/-- Directories that are made leave what stands apart in a tree as it is, unless they take its
place. -/
theorem Apart.makeDirectories {path : Text} (touched : Place → Prop) (tree : h.files.IsTree)
    (start : h.files.get? (FileSystem.startOf h.cwd path) = some .directory)
    (ready : h.LogReady) (aside : ∀ p ∈ σ, ∀ q, p <+: q → ¬ h.LogArea q)
    (free : ∀ p ∈ σ, (h.files.makeDirectories h.cwd path).1.get? p ≠ some .directory)
    (way : ∀ q, OnWay h.cwd path q → made q) :
    { h with files := (h.files.makeDirectories h.cwd path).1 }.Apart σ ∧
      h.Touches touched made { h with files := (h.files.makeDirectories h.cwd path).1 } := by
  have within := FileSystem.makeDirectories_within (fun _ => False) h.files h.cwd path
  refine ⟨⟨ready_of_same rfl rfl ready, free,
    fun p mem => (tree.makeDirectories start).clear (free p mem), aside⟩,
    .files fun q _ => ?_, within.denied⟩
  rcases within.entry q with same | ⟨nowhere, -⟩ | ⟨on, new⟩
  · exact .inl same
  · exact nowhere.elim
  · exact .inr ⟨way q on, new⟩

end Host
end ContractCheck
