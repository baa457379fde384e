import ContractCheck.Proofs.FileSystem.Rewriting

/-! # Moves

What is moved is given another name, or else copied and removed.  Of a file, a move that is done
leaves the bytes at the place it leads to and nothing where they were, however it was done
(`move_file_done`); one that is not done may have left a copy, with the file still in its place
(`move_file_failed`).  A directory that could not be given another name, and whose copy or removal
was broken off, may have lost some of what is in it, and some may stand in a copy where nothing
stood (`move_directory_failed`).
-/
namespace ContractCheck.FileSystem

open ContractCheck.Path (Usable)

variable {fs fs' : FileSystem} {cwd dir p q z : Place} {source target goal path : Text}
  {e : FileError}

/-! ## Moves of files -/

section File

variable {content : Bytes} {x : Mode}

/-- Whether the bytes of a file stand at another place than before, and all else is as it was. -/
structure Carries (p q : Place) (content : Bytes) (x : Mode) (fs fs' : FileSystem) : Prop where
  other : p ≠ q
  rewrites : Rewrites [p, q] fs fs'
  arrived : fs'.get? q = some (.file content x)

variable (tree : fs.IsTree) (stands : fs.get? cwd = some .directory)
  (found : fs.find cwd source = .ok (p, .file content x))
include tree stands found

/-- A file that is given another name takes the place of no directory. -/
theorem rename_file_done (done : fs.rename cwd source goal = .ok fs') :
    ∃ q, fs.resolve cwd goal = .ok q ∧ (p = q ∧ fs' = fs ∨ Carries p q content x fs fs') := by
  obtain ⟨p', n, q, found', led, ⟨same, rfl⟩ | ⟨other, free, rfl⟩⟩ := rename_cases done
  · obtain ⟨rfl, -⟩ := Prod.mk.inj (Except.ok.inj (found.symm.trans found'))
    exact ⟨q, led, .inl ⟨same, rfl⟩⟩
  · obtain ⟨rfl, rfl⟩ := Prod.mk.inj (Except.ok.inj (found.symm.trans found'))
    obtain ⟨rewrites, arrived, -⟩ := relocate_rewrites tree (find_iff.mp found).2 (free nofun)
      (resolve_inside tree stands led) other
    exact ⟨q, led, .inr ⟨other, rewrites, arrived⟩⟩

/-- A copy of a file is all that a copy changes. -/
theorem copyFile_done (done : fs.copyFile cwd source goal = .ok fs') :
    ∃ q, fs.resolve cwd goal = .ok q ∧ Rewrites [q] fs fs' ∧
      fs'.get? q = some (.file content x) := by
  unfold copyFile at done
  rw [found] at done
  dsimp only [bind, Except.bind] at done
  split at done
  · cases led : fs.resolve cwd goal with
    | error e => rw [led] at done; cases done
    | ok q =>
      rw [led] at done
      dsimp only at done
      split at done
      · cases done
      · next fs₁ written =>
        obtain rfl := Except.ok.inj done
        obtain ⟨q', m, led', there, denied, rest, before⟩ := write_get? written
        obtain rfl := Except.ok.inj (led.symm.trans led')
        have free : fs.get? q ≠ some .directory := by
          rcases before with ⟨none, -⟩ | ⟨-, old, file⟩
          · rw [none]; nofun
          · rw [file]; nofun
        have below : q ≠ [] := by
          rintro rfl
          exact free rfl
        refine ⟨q, rfl, ⟨?_, fun z other => ?_, ?_, ?_⟩, get?_set_self _ _ below⟩
        · exact (denied_set fun directory => nomatch there.symm.trans directory).trans denied
        · have other := List.mem_singleton.not.mp other
          rw [get?_set_of_ne _ _ other, rest z other]
        · intro z mem
          rwa [List.mem_singleton.mp mem]
        · intro z mem _
          rw [List.mem_singleton.mp mem]
          exact resolve_inside tree stands led
  · cases done

/-- A file that is copied and removed has moved. -/
theorem moveFile_done (done : fs.moveFile cwd source goal = (fs', none))
    (moves : ∀ q, fs.resolve cwd goal = .ok q → p ≠ q) :
    ∃ q, fs.resolve cwd goal = .ok q ∧ Carries p q content x fs fs' := by
  unfold moveFile at done
  split at done
  · cases done
  · next fs₁ copied =>
    obtain ⟨q, led, first, arrived⟩ := copyFile_done tree stands found copied
    have other := moves q led
    split at done
    · cases done
    · next fs₂ removed =>
      obtain ⟨rfl, -⟩ := Prod.mk.inj done
      have tree₁ := tree.rewrites first
      have second := remove_rewrites tree₁ removed
      obtain ⟨rfl, there⟩ := find_place found
      have gone : fs₂.get? (placeOf cwd source) = none := by
        have below : placeOf cwd source ≠ [] := fun root => by
          rw [root] at there
          cases there
        rw [remove_cases removed, get?_erase _ _ below,
          if_pos (List.isPrefixOf_iff_prefix.mpr List.prefix_rfl)]
      have kept : fs₂.get? q = fs₁.get? q :=
        second.rest q fun mem => other (List.mem_singleton.mp mem).symm
      refine ⟨q, led, other, ⟨second.denied.trans first.denied, fun z outside => ?_,
        fun z mem => ?_,
        fun z mem given => ?_⟩, kept.trans arrived⟩
      · simp only [List.mem_cons, List.not_mem_nil, or_false, not_or] at outside
        rw [second.rest z (List.mem_singleton.not.mpr outside.1),
          first.rest z (List.mem_singleton.not.mpr outside.2)]
      · simp only [List.mem_cons, List.not_mem_nil, or_false] at mem
        rcases mem with rfl | rfl
        · rw [there]; nofun
        · exact first.free _ (List.mem_singleton.mpr rfl)
      · simp only [List.mem_cons, List.not_mem_nil, or_false] at mem
        rcases mem with rfl | rfl
        · exact absurd gone given
        · exact resolve_inside tree stands led

/-- A file that is not copied, or copied and not removed, stays. -/
theorem moveFile_failed (failed : fs.moveFile cwd source goal = (fs', some e)) :
    fs' = fs ∨ ∃ q, fs.resolve cwd goal = .ok q ∧ Rewrites [q] fs fs' := by
  unfold moveFile at failed
  split at failed
  · exact .inl (Prod.mk.inj failed).1.symm
  · next fs₁ copied =>
    obtain ⟨q, led, rewrites, -⟩ := copyFile_done tree stands found copied
    split at failed
    · obtain ⟨rfl, -⟩ := Prod.mk.inj failed
      exact .inr ⟨q, led, rewrites⟩
    · cases failed

omit tree stands in
/-- A file that cannot be given a name does not have it. -/
theorem ne_of_rename_failed (failed : fs.rename cwd source goal = .error e)
    (led : fs.resolve cwd goal = .ok q) :
    p ≠ q := by
  rintro rfl
  obtain ⟨led', there⟩ := find_iff.mp found
  cases failed.symm.trans (rename_same led' there led)

omit tree stands in
theorem not_isDirectory : fs.isDirectory cwd source = false := by
  unfold isDirectory
  rw [found]

theorem bring_file_done (done : fs.bring cwd source goal target = (fs', none)) :
    ∃ q, fs.resolve cwd goal = .ok q ∧ (p = q ∧ fs' = fs ∨ Carries p q content x fs fs') := by
  unfold bring at done
  split at done
  · next fs₁ renamed =>
    obtain ⟨rfl, -⟩ := Prod.mk.inj done
    exact rename_file_done tree stands found renamed
  · next refused =>
    split at done
    · cases done
    · rw [not_isDirectory found, if_pos Bool.not_false] at done
      obtain ⟨q, led, carries⟩ := moveFile_done tree stands found done
        fun q => ne_of_rename_failed found refused
      exact ⟨q, led, .inr carries⟩

theorem bring_file_failed (failed : fs.bring cwd source goal target = (fs', some e)) :
    fs' = fs ∨ ∃ q, fs.resolve cwd goal = .ok q ∧ p ≠ q ∧ Rewrites [q] fs fs' := by
  unfold bring at failed
  split at failed
  · cases failed
  · next refused =>
    split at failed
    · exact .inl (Prod.mk.inj failed).1.symm
    · rw [not_isDirectory found, if_pos Bool.not_false] at failed
      refine (moveFile_failed tree stands found failed).imp_right fun ⟨q, led, rewrites⟩ => ?_
      exact ⟨q, led, ne_of_rename_failed found refused led, rewrites⟩

/-- **A file that is moved** stands where the target leads, or in the directory that stands
there. -/
theorem move_file_done (done : fs.move cwd source target = (fs', none)) :
    (∃ q, fs.resolve cwd target = .ok q ∧ (p = q ∧ fs' = fs ∨ Carries p q content x fs fs')) ∨
      fs.isDirectory cwd target = true ∧ ∃ q, fs.resolve cwd (enteringPath source target) = .ok q ∧
        Carries p q content x fs fs' := by
  unfold move at done
  split at done
  · next entering =>
    rw [Bool.and_eq_true] at entering
    dsimp only at done
    split at done
    · cases done
    · next absent =>
      obtain ⟨q, led, ⟨rfl, -⟩ | carries⟩ := bring_file_done tree stands found done
      · -- The name would lead to the file itself.
        exact absurd (isThere_of_find (find_iff.mpr ⟨led, (find_iff.mp found).2⟩)) absent
      · exact .inr ⟨entering.1, q, led, carries⟩
  · exact .inl (bring_file_done tree stands found done)

/-- **A file whose move fails** stays, but a copy may stand where it should go. -/
theorem move_file_failed (failed : fs.move cwd source target = (fs', some e)) :
    fs' = fs ∨ ∃ q, (fs.resolve cwd target = .ok q ∨
      fs.resolve cwd (enteringPath source target) = .ok q) ∧
      p ≠ q ∧ Rewrites [q] fs fs' := by
  unfold move at failed
  split at failed
  · dsimp only at failed
    split at failed
    · exact .inl (Prod.mk.inj failed).1.symm
    · exact (bring_file_failed tree stands found failed).imp_right fun ⟨q, led, rewrites⟩ =>
        ⟨q, .inr led, rewrites⟩
  · exact (bring_file_failed tree stands found failed).imp_right fun ⟨q, led, rewrites⟩ =>
      ⟨q, .inl led, rewrites⟩

end File

theorem enteringPath_eq {name : Text} (inside : Path.InDirectory source path name) (target : Text) :
    enteringPath source target = Path.Posix.join target name := by
  -- A path to a name does not end in a slash.
  have open_ : Text.dropEndWhile (· == '/') source = source := by
    obtain ⟨front, c, last⟩ : ∃ front c, source = front ++ [c] ∧ c ≠ '/' := by
      obtain ⟨start, c, rfl⟩ : ∃ start c, name = start ++ [c] :=
        ⟨_, _, (List.dropLast_append_getLast inside.proper.1).symm⟩
      have other : c ≠ '/' := fun same => inside.bare (by simp [same])
      rcases inside.ends with same | ⟨before, same⟩
      · exact ⟨start, c, same, other⟩
      · exact ⟨before ++ '/' :: start, c, by rw [same]; simp, other⟩
    simp [Text.dropEndWhile, last]
  rw [enteringPath, open_, inside.ends.basename inside.bare]

/-! ## Directories that are removed -/

/-- Whether file systems differ at most at and below a place, and a tree is left of a tree. -/
structure Prunes (p : Place) (fs fs' : FileSystem) : Prop where
  rest : ∀ z, ¬ p <+: z → fs'.get? z = fs.get? z
  tree : fs.IsTree → fs'.IsTree

namespace Prunes

variable {fs'' : FileSystem}

theorem refl (p : Place) (fs : FileSystem) : Prunes p fs fs := ⟨fun _ _ => rfl, id⟩

theorem trans (first : Prunes p fs fs') (second : Prunes p fs' fs'') : Prunes p fs fs'' :=
  ⟨fun z outside => (second.rest z outside).trans (first.rest z outside), second.tree ∘ first.tree⟩

/-- What changes below changes at or below. -/
theorem above (prunes : Prunes q fs fs') (below : p <+: q) : Prunes p fs fs' :=
  ⟨fun z outside => prunes.rest z fun inside => outside (below.trans inside), prunes.tree⟩

end Prunes

theorem drop_prunes (fs : FileSystem) (p : Place) : Prunes p fs (fs.drop p).1 := by
  unfold drop
  split
  · exact .refl p fs
  · have rest : ∀ z, ¬ p <+: z → (fs.erase p).get? z = fs.get? z := by
      intro z outside
      by_cases root : z = []
      · subst root
        rfl
      · rw [get?_erase fs p root, if_neg (List.isPrefixOf_iff_prefix.not.mpr outside)]
    refine ⟨rest, fun tree z n there dir front other => ?_⟩
    by_cases root : z = []
    · subst root
      exact absurd (List.prefix_nil.mp front) other
    · by_cases inside : p <+: z
      · rw [get?_erase fs p root, if_pos (List.isPrefixOf_iff_prefix.mpr inside)] at there
        cases there
      · rw [rest z inside] at there
        rw [rest dir fun above => inside (above.trans front), tree z n there dir front other]

/-- **Emptying a directory changes nothing outside of it.** -/
theorem empty_prunes (depth : Nat) (fs : FileSystem) (p : Place) :
    Prunes p fs (empty depth fs p).1 := by
  induction depth generalizing fs p with
  | zero => exact .refl p fs
  | succ depth ih =>
    rw [empty]
    generalize fs.names p = names
    generalize (none : Option FileError) = failed
    induction names generalizing fs failed with
    | nil => exact .refl p fs
    | cons name rest more =>
      have below : p <+: p ++ [name] := List.prefix_append p [name]
      rw [List.foldl_cons]
      -- Each entry is dropped, emptied first if it is a directory.
      refine Prunes.trans ?_ (more _ _)
      cases failed with
      | some e => exact .refl p fs
      | none =>
        dsimp only
        split
        · have emptied := ih fs (p ++ [name])
          split
          · next outcome =>
            rw [outcome] at emptied
            exact emptied.above below
          · next fs₁ outcome =>
            rw [outcome] at emptied
            exact (emptied.trans (drop_prunes fs₁ _)).above below
        · exact (drop_prunes fs _).above below

theorem removeTree_prunes (fs : FileSystem) (cwd : Place) (source : Text) :
    Prunes (placeOf cwd source) fs (fs.removeTree cwd source).1 := by
  unfold removeTree
  split
  · exact .refl _ fs
  · next p n found =>
    obtain ⟨rfl, -⟩ := find_place found
    have emptied := empty_prunes fs.entries.length fs (placeOf cwd source)
    split
    · next outcome =>
      rw [outcome] at emptied
      exact emptied
    · next fs₁ outcome =>
      rw [outcome] at emptied
      exact emptied.trans (drop_prunes fs₁ _)

/-! ## Directories that are copied -/

theorem get?_graft_apart (fs : FileSystem) (p : Place) (apart : ¬ q <+: z) :
    (fs.graft p q).get? z = fs.get? z := by
  by_cases root : z = []
  · subst root
    rfl
  · simp only [get?, entryAt, graft, root, if_false, List.lookup_append,
      lookup_carried_apart _ apart, Option.or_none]
    rw [lookup_filter (fun k => !q.isPrefixOf k), if_pos]
    rw [Bool.eq_false_iff.mpr (List.isPrefixOf_iff_prefix.not.mpr apart), Bool.not_false]

/-- A copy holds what can be copied, at the same way from its place. -/
theorem get?_graft (fs : FileSystem) (p : Place) (below : q ≠ []) (rest : Place) :
    (fs.graft p q).get? (q ++ rest) =
      (fs.entries.filter fun e => e.2.copyable).lookup (p ++ rest) := by
  have nonempty : q ++ rest ≠ [] := by simp [below]
  have inside : q.isPrefixOf (q ++ rest) = true :=
    List.isPrefixOf_iff_prefix.mpr (List.prefix_append q rest)
  have kept : (fs.entries.filter fun e => !q.isPrefixOf e.1).lookup (q ++ rest) = none := by
    rw [lookup_filter (fun k => !q.isPrefixOf k), inside]
    rfl
  simp only [get?, entryAt, graft, nonempty, if_false, List.lookup_append, kept, Option.none_or]
  exact lookup_carried ..

/-- **A directory that is copied into another one** leaves a tree a tree. -/
theorem IsTree.graft (tree : fs.IsTree) (below : p ≠ []) (below' : q ≠ [])
    (inside : fs.get? q.dropLast = some .directory) : (fs.graft p q).IsTree := by
  intro z n there dir front other
  have above : ∀ dir, dir <+: q → dir ≠ q → (fs.graft p q).get? dir = some .directory := by
    intro dir front other
    have apart : ¬ q <+: dir :=
      fun back => other (front.eq_of_length (front.length_le.antisymm back.length_le))
    rw [get?_graft_apart fs p apart]
    have ahead := prefix_dropLast front other
    by_cases same : dir = q.dropLast
    · rw [same, inside]
    · exact tree _ _ inside dir ahead same
  by_cases within : q <+: z
  · by_cases ahead : q <+: dir
    · obtain ⟨way, rfl⟩ := ahead
      obtain ⟨rest, rfl⟩ := within
      rw [List.prefix_append_right_inj] at front
      rw [get?_graft fs p below'] at there ⊢
      -- What is copied stands in a directory, and directories are copied.
      obtain ⟨m, given⟩ : ∃ m, fs.get? (p ++ rest) = some m := by
        obtain ⟨e, mem, same⟩ := List.lookup_isSome_iff.mp (Option.isSome_of_eq_some there)
        have stood : (fs.entries.lookup (p ++ rest)).isSome :=
          List.lookup_isSome_iff.mpr ⟨e, (List.mem_filter.mp mem).1, same⟩
        obtain ⟨m, given⟩ := Option.isSome_iff_exists.mp stood
        exact ⟨m, by rw [get?, entryAt, if_neg (by simp [below]), given]⟩
      have directory := tree _ m given (p ++ way) ((List.prefix_append_right_inj p).mpr front)
        (by simpa using other)
      rw [get?, entryAt, if_neg (by simp [below])] at directory
      exact lookup_filter_of_keep directory rfl
    · have inner := (List.prefix_or_prefix_of_prefix front within).resolve_right ahead
      exact above dir inner fun same => ahead (same ▸ List.prefix_rfl)
  · rw [get?_graft_apart fs p within] at there
    have apart : ¬ q <+: dir := fun ahead => within (ahead.trans front)
    rw [get?_graft_apart fs p apart]
    exact tree z n there dir front other

/-! ## Moves of directories that are broken off -/

/-- What is left when the move of a directory fails: some of what is in the directory may be gone,
some may stand in a copy where nothing stood, and directories may be made on the way there. -/
structure Scatters (p q : Place) (way : Text) (cwd : Place) (fs fs' : FileSystem) : Prop where
  tree : fs'.IsTree
  entry : ∀ z, fs'.get? z = fs.get? z ∨ p <+: z ∨ fs.get? q = none ∧ q <+: z ∨
    OnWay cwd way z ∧ fs.get? z = none ∧ fs'.get? z = some .directory

theorem Scatters.refl (tree : fs.IsTree) (p q : Place) (way : Text) (cwd : Place) :
    Scatters p q way cwd fs fs :=
  ⟨tree, fun _ => .inl rfl⟩

/-- What was scattered is pruned. -/
theorem Scatters.prunes {fs'' : FileSystem} {way : Text} (scatters : Scatters p q way cwd fs fs')
    (prunes : Prunes p fs' fs'') : Scatters p q way cwd fs fs'' where
  tree := prunes.tree scatters.tree
  entry z := by
    by_cases inside : p <+: z
    · exact .inr (.inl inside)
    · rw [prunes.rest z inside]
      exact scatters.entry z

section Directory

variable (tree : fs.IsTree) (stands : fs.get? cwd = some .directory)
  (found : fs.find cwd source = .ok (p, .directory)) (below : p ≠ [])
include tree stands found below

/-- A copy stands where nothing stood, in directories that were made if they were missing. -/
theorem copyTree_scatters :
    Scatters p (placeOf cwd goal) (Path.Posix.parent goal) cwd fs
      (fs.copyTree cwd source goal).1 := by
  have made : Scatters p (placeOf cwd goal) (Path.Posix.parent goal) cwd fs
      (fs.makeDirectories cwd (Path.Posix.parent goal)).1 := by
    refine ⟨tree.makeDirectories (startOf_directory stands _), fun z => ?_⟩
    rcases (makeDirectories_within (fun _ => False) fs cwd (Path.Posix.parent goal)).entry z with
      same | ⟨nowhere, -⟩ | ⟨on, none, directory⟩
    · exact .inl same
    · exact nowhere.elim
    · exact .inr (.inr (.inr ⟨on, none, directory⟩))
  have grows := makeDirectories_grows fs cwd (Path.Posix.parent goal)
  unfold copyTree
  rw [found]
  dsimp only
  generalize fs.makeDirectories cwd (Path.Posix.parent goal) = outcome at made grows ⊢
  obtain ⟨fs₁, _ | e⟩ := outcome
  · dsimp only at made grows ⊢
    cases entered : fs₁.makeDirectory cwd goal with
    | error e => exact made
    | ok fs₂ =>
      obtain ⟨q, led, free, -⟩ := makeDirectory_done entered
      rw [led]
      dsimp only
      obtain rfl := resolve_place led
      have fresh : fs.get? (placeOf cwd goal) = none := by
        by_contra there
        have still := grows.entry _ (Option.isSome_iff_ne_none.mpr there)
        rw [free] at still
        cases still
      have below' : placeOf cwd goal ≠ [] := fun root => by
        rw [root] at free
        cases free
      have inside := resolve_inside made.tree (grows.directory _ stands) led
      refine ⟨made.tree.graft below below' inside, fun z => ?_⟩
      by_cases within : placeOf cwd goal <+: z
      · exact .inr (.inr (.inl ⟨fresh, within⟩))
      · rw [get?_graft_apart fs₁ p within]
        exact made.entry z
  · exact made

theorem bring_directory_failed (failed : fs.bring cwd source goal target = (fs', some e)) :
    Scatters p (placeOf cwd goal) (Path.Posix.parent goal) cwd fs fs' := by
  unfold bring at failed
  split at failed
  · cases failed
  · split at failed
    · obtain ⟨rfl, -⟩ := Prod.mk.inj failed
      exact .refl tree ..
    · rw [isDirectory_iff.mpr ⟨p, found⟩, if_neg (by decide)] at failed
      split at failed
      · obtain ⟨rfl, -⟩ := Prod.mk.inj failed
        exact .refl tree ..
      · have copied : Scatters p (placeOf cwd goal) (Path.Posix.parent goal) cwd fs
            (fs.copyTree cwd source goal).1 :=
          copyTree_scatters tree stands found below
        unfold moveTree at failed
        split at failed
        · next outcome =>
          rw [outcome] at copied
          obtain ⟨rfl, -⟩ := Prod.mk.inj failed
          exact copied
        · next fs₁ outcome =>
          rw [outcome] at copied
          have removed := removeTree_prunes fs₁ cwd source
          rw [failed] at removed
          obtain ⟨rfl, -⟩ := find_place found
          exact copied.prunes removed

/-- **A directory whose move fails** is scattered at most, over where it was and where it should
go. -/
theorem move_directory_failed (failed : fs.move cwd source target = (fs', some e)) :
    ∃ goal, (goal = target ∨ fs.isDirectory cwd target = true ∧ goal = enteringPath source target) ∧
      Scatters p (placeOf cwd goal) (Path.Posix.parent goal) cwd fs fs' := by
  unfold move at failed
  split at failed
  · next entering =>
    rw [Bool.and_eq_true] at entering
    dsimp only at failed
    split at failed
    · obtain ⟨rfl, -⟩ := Prod.mk.inj failed
      exact ⟨target, .inl rfl, .refl tree ..⟩
    · exact ⟨_, .inr ⟨entering.1, rfl⟩, bring_directory_failed tree stands found below failed⟩
  · exact ⟨target, .inl rfl, bring_directory_failed tree stands found below failed⟩

end Directory

/-! ## Why moves fail -/

/-- A copy of usable paths fails only for reasons that the file system gives. -/
theorem copyFile_fromSystem (usable : Usable source) (usable' : Usable goal)
    (failed : fs.copyFile cwd source goal = .error e) : e.fromSystem = true := by
  unfold copyFile at failed
  cases found : fs.find cwd source with
  | error e' =>
    rw [found] at failed
    obtain rfl := Except.error.inj failed
    exact find_fromSystem usable found
  | ok f =>
    obtain ⟨p, _ | ⟨content, x⟩⟩ := f
    · rw [found] at failed
      obtain rfl := Except.error.inj failed
      rfl
    · rw [found] at failed
      dsimp only [bind, Except.bind] at failed
      split at failed
      · cases led : fs.resolve cwd goal with
        | error e' =>
          rw [led] at failed
          obtain rfl := Except.error.inj failed
          exact resolve_fromSystem usable' led
        | ok q =>
          rw [led] at failed
          dsimp only at failed
          split at failed
          · next wrote =>
            obtain rfl := Except.error.inj failed
            exact update_fromSystem usable' wrote
          · cases failed
      · obtain rfl := Except.error.inj failed
        rfl

theorem moveFile_fromSystem (usable : Usable source) (usable' : Usable goal)
    (failed : (fs.moveFile cwd source goal).2 = some e) : e.fromSystem = true := by
  unfold moveFile at failed
  split at failed
  · next copied =>
    obtain rfl := Option.some.inj failed
    exact copyFile_fromSystem usable usable' copied
  · split at failed
    · next removed =>
      obtain rfl := Option.some.inj failed
      exact remove_fromSystem usable removed
    · cases failed

theorem makeDirectory_fromSystem (usable : Usable path)
    (failed : fs.makeDirectory cwd path = .error e) :
    e.fromSystem = true := by
  unfold makeDirectory at failed
  cases led : fs.resolve cwd path with
  | error e' =>
    rw [led] at failed
    obtain rfl := Except.error.inj failed
    exact resolve_fromSystem usable led
  | ok p =>
    rw [led] at failed
    dsimp only [bind, Except.bind] at failed
    split at failed
    · obtain rfl := Except.error.inj failed
      rfl
    · split at failed
      · obtain rfl := Except.error.inj failed
        rfl
      · cases failed

theorem copyTree_fromSystem (usable : Usable source) (usable' : Usable goal)
    (failed : (fs.copyTree cwd source goal).2 = some e) : e.fromSystem = true := by
  unfold copyTree at failed
  split at failed
  · next found =>
    obtain rfl := Option.some.inj failed
    exact find_fromSystem usable found
  · split at failed
    · next made =>
      obtain rfl := Option.some.inj failed
      exact makeDirectories_fromSystem usable'.parent (congrArg Prod.snd made)
    · split at failed
      · next entered =>
        obtain rfl := Option.some.inj failed
        exact makeDirectory_fromSystem usable' entered
      · next led =>
        obtain rfl := Option.some.inj failed
        exact resolve_fromSystem usable' led
      · dsimp only at failed
        split at failed
        · cases failed
        · obtain rfl := Option.some.inj failed
          rfl

theorem drop_fromSystem (failed : (fs.drop p).2 = some e) : e.fromSystem = true := by
  unfold drop at failed
  split at failed
  · obtain rfl := Option.some.inj failed
    rfl
  · cases failed

theorem empty_fromSystem {depth : Nat} (failed : (empty depth fs p).2 = some e) :
    e.fromSystem = true := by
  induction depth generalizing fs p e with
  | zero => cases failed
  | succ depth ih =>
    rw [empty] at failed
    generalize fs.names p = names at failed
    have start : ∀ e', (none : Option FileError) = some e' → e'.fromSystem = true := nofun
    generalize (none : Option FileError) = outcome at failed start
    induction names generalizing fs outcome with
    | nil => exact start e failed
    | cons name rest more =>
      rw [List.foldl_cons] at failed
      -- What has failed already stays failed; else an entry may fail to be dropped, or to be
      -- emptied.
      refine more _ failed ?_
      intro e' failed'
      cases outcome with
      | some own => exact start e' failed'
      | none =>
        dsimp only at failed'
        split at failed'
        · split at failed'
          · next emptied =>
            obtain rfl := Option.some.inj failed'
            exact ih (congrArg Prod.snd emptied)
          · exact drop_fromSystem failed'
        · exact drop_fromSystem failed'

theorem removeTree_fromSystem (usable : Usable source)
    (failed : (fs.removeTree cwd source).2 = some e) :
    e.fromSystem = true := by
  unfold removeTree at failed
  split at failed
  · next found =>
    obtain rfl := Option.some.inj failed
    exact find_fromSystem usable found
  · split at failed
    · next emptied =>
      obtain rfl := Option.some.inj failed
      exact empty_fromSystem (congrArg Prod.snd emptied)
    · exact drop_fromSystem failed

theorem bring_fromSystem (usable : Usable source) (usable' : Usable goal)
    (failed : (fs.bring cwd source goal target).2 = some e) : e.fromSystem = true := by
  unfold bring at failed
  split at failed
  · cases failed
  · next refused =>
    split at failed
    · obtain rfl := Option.some.inj failed
      exact rename_fromSystem usable usable' refused
    · split at failed
      · exact moveFile_fromSystem usable usable' failed
      · split at failed
        · obtain rfl := Option.some.inj failed
          rfl
        · unfold moveTree at failed
          split at failed
          · next copied =>
            obtain rfl := Option.some.inj failed
            exact copyTree_fromSystem usable usable' (congrArg Prod.snd copied)
          · exact removeTree_fromSystem usable failed

/-- **A move of usable paths** fails only for reasons that the file system gives. -/
theorem move_fromSystem (usable : Usable source) (usable' : Usable target)
    (failed : (fs.move cwd source target).2 = some e) : e.fromSystem = true := by
  unfold move at failed
  split at failed
  · dsimp only at failed
    split at failed
    · obtain rfl := Option.some.inj failed
      rfl
    · exact bring_fromSystem usable (usable'.below usable.dropEndWhile.basename) failed
  · exact bring_fromSystem usable usable' failed

end ContractCheck.FileSystem
