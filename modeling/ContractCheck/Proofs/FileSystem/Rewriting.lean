import ContractCheck.Proofs.FileSystem.Trees
import ContractCheck.Proofs.FileSystem.Ways

/-! # Trees in which files change

Writing, moving and removing files changes a few places that hold no directories, and puts something
there only where a directory is above (`Rewrites`).  So a tree stays a tree, and no directory goes.
Each of the operations is of this kind (`update_rewrites`, `remove_rewrites`, `relocate_rewrites`).
-/
namespace ContractCheck.FileSystem

open ContractCheck.Path (up Usable)

variable {fs fs' : FileSystem} {cwd dir p q z : Place} {source target path : Text} {σ : List Place}

/-! ## Changes of files -/

/-- File systems that differ at some places at most, which held no directories, and hold something
only in a directory. -/
structure Rewrites (σ : List Place) (fs fs' : FileSystem) : Prop where
  denied : fs'.denied = fs.denied
  rest : ∀ z, z ∉ σ → fs'.get? z = fs.get? z
  free : ∀ z ∈ σ, fs.get? z ≠ some .directory
  inside : ∀ z ∈ σ, fs'.get? z ≠ none → fs.get? z.dropLast = some .directory

/-- No directory goes. -/
theorem Rewrites.directory (rewrites : Rewrites σ fs fs') (stands : fs.get? z = some .directory) :
    fs'.get? z = some .directory := by
  rw [rewrites.rest z fun mem => rewrites.free z mem stands, stands]

/-- **A tree in which files change is a tree.** -/
theorem IsTree.rewrites (tree : fs.IsTree) (rewrites : Rewrites σ fs fs') : fs'.IsTree := by
  intro p n there dir front other
  refine rewrites.directory ?_
  by_cases mem : p ∈ σ
  · have stands := rewrites.inside p mem (there ▸ Option.some_ne_none n)
    have above := prefix_dropLast front other
    by_cases same : dir = p.dropLast
    · rw [same, stands]
    · exact tree _ _ stands dir above same
  · rw [rewrites.rest p mem] at there
    exact tree p n there dir front other

/-! ## The operations -/

/-- What a way in a tree leads to lies in a directory. -/
theorem walk_inside (tree : fs.IsTree) (stands : fs.get? dir = some .directory) {names : List Text}
    (led : fs.walk dir names = .ok p) : fs.get? p.dropLast = some .directory := by
  induction names generalizing dir with
  | nil =>
    obtain rfl := Except.ok.inj led
    exact tree.dropLast stands
  | cons name rest ih =>
    simp only [walk, stands] at led
    split at led
    · exact ih stands led
    · split at led
      · exact ih (tree.dropLast stands) led
      · split at led
        · cases led
        · -- Only at the end of the way there need not be a directory.
          cases rest with
          | nil =>
            obtain rfl := Except.ok.inj led
            rwa [List.dropLast_concat]
          | cons next rest =>
            refine ih ?_ led
            rw [walk] at led
            split at led
            · cases led
            · cases led
            · assumption

/-- A path leads where it led as long as no directory on its way goes. -/
theorem resolve_keeps
    (keeps : ∀ q, OnWay cwd path q → fs.get? q = some .directory → fs'.get? q = some .directory)
    (led : fs.resolve cwd path = .ok p) : fs'.resolve cwd path = .ok p := by
  obtain ⟨takes, led⟩ := resolve_iff.mp led
  exact resolve_iff.mpr ⟨takes, walk_keeps (fun front ahead => keeps _ ⟨front, ahead, rfl⟩) led⟩

theorem isDirectory_keeps (keeps : ∀ q, fs.get? q = some .directory → fs'.get? q = some .directory)
    (directory : fs.isDirectory cwd path = true) : fs'.isDirectory cwd path = true := by
  obtain ⟨p, found⟩ := isDirectory_iff.mp directory
  obtain ⟨led, stands⟩ := find_iff.mp found
  exact isDirectory_iff.mpr ⟨p, find_iff.mpr ⟨resolve_keeps (fun q _ => keeps q) led,
    keeps p stands⟩⟩

theorem startOf_directory (stands : fs.get? cwd = some .directory) (path : Text) :
    fs.get? (startOf cwd path) = some .directory := by
  unfold startOf
  split
  · rfl
  · exact stands

theorem resolve_inside (tree : fs.IsTree) (stands : fs.get? cwd = some .directory)
    (led : fs.resolve cwd path = .ok p) :
    fs.get? p.dropLast = some .directory :=
  walk_inside tree (startOf_directory stands path) (resolve_iff.mp led).2

/-- A file that is set where no directory stands. -/
theorem set_rewrites {content : Bytes} {x : Mode} (free : fs.get? p ≠ some .directory)
    (inside : fs.get? p.dropLast = some .directory) :
    Rewrites [p] fs (fs.set p (.file content x)) where
  denied := denied_set fun directory => absurd directory free
  rest _ other := get?_set_of_ne fs _ fun same => other (List.mem_singleton.mpr same)
  free _ mem := List.mem_singleton.mp mem ▸ free
  inside _ mem _ := List.mem_singleton.mp mem ▸ inside

/-- **A file that is written is all that changes.** -/
theorem update_rewrites {change : Bytes → Bytes} (tree : fs.IsTree)
    (stands : fs.get? cwd = some .directory)
    (done : fs.update cwd path change = .ok fs') : Rewrites [placeOf cwd path] fs fs' := by
  unfold update at done
  split at done
  · cases done
  · cases led : fs.resolve cwd path with
    | error e => rw [led] at done; cases done
    | ok p =>
      obtain rfl := resolve_place led
      have inside := resolve_inside tree stands led
      rw [led] at done
      dsimp only [bind, Except.bind] at done
      split at done
      · cases done
      · next content x there =>
        split at done
        · obtain rfl := Except.ok.inj done
          exact set_rewrites (by rw [there]; nofun) inside
        · cases done
      · next none =>
        split at done
        · cases done
        · obtain rfl := Except.ok.inj done
          exact set_rewrites (by rw [none]; nofun) inside

/-- A directory that is made is all that changes. -/
theorem makeDirectory_rewrites (tree : fs.IsTree) (stands : fs.get? cwd = some .directory)
    (made : fs.makeDirectory cwd path = .ok fs') : Rewrites [placeOf cwd path] fs fs' := by
  obtain ⟨p, led, none, rfl⟩ := makeDirectory_done made
  obtain rfl := resolve_place led
  exact
    { denied := denied_set fun _ => rfl
      rest := fun z other => get?_set_of_ne fs _ fun same => other (List.mem_singleton.mpr same)
      free := fun z mem => by rw [List.mem_singleton.mp mem, none]; nofun
      inside := fun z mem _ => List.mem_singleton.mp mem ▸ resolve_inside tree stands led }

/-- **A file that is removed is all that changes.** -/
theorem remove_rewrites (tree : fs.IsTree) (done : fs.remove cwd path = .ok fs') :
    Rewrites [placeOf cwd path] fs fs' := by
  obtain rfl := remove_cases done
  unfold remove at done
  cases found : fs.find cwd path with
  | error e => rw [found] at done; cases done
  | ok f =>
    obtain ⟨p, n⟩ := f
    obtain ⟨rfl, -⟩ := find_place found
    obtain ⟨-, there⟩ := find_iff.mp found
    rw [found] at done
    cases n with
    | directory => cases done
    | file content x =>
      have free : fs.get? (placeOf cwd path) ≠ some .directory := by rw [there]; nofun
      have below : placeOf cwd path ≠ [] := by
        rintro root
        rw [root] at free
        exact free rfl
      refine ⟨denied_erase (tree.clear free) free, fun z other => ?_,
        fun z mem => List.mem_singleton.mp mem ▸ free, fun z mem given => ?_⟩
      · exact get?_erase_clear (tree.clear free) fun same => other (List.mem_singleton.mpr same)
      · obtain rfl := List.mem_singleton.mp mem
        refine absurd ?_ given
        rw [get?_erase _ _ below, if_pos (List.isPrefixOf_iff_prefix.mpr List.prefix_rfl)]

/-- **A file that is moved is all that changes**, where it was and where it is. -/
theorem relocate_rewrites {content : Bytes} {x : Mode} (tree : fs.IsTree)
    (there : fs.get? p = some (.file content x)) (free : fs.get? q ≠ some .directory)
    (inside : fs.get? q.dropLast = some .directory) (other : p ≠ q) :
    Rewrites [p, q] fs (fs.relocate p q) ∧ (fs.relocate p q).get? q = some (.file content x) ∧
    (fs.relocate p q).get? p = none := by
  have free' : fs.get? p ≠ some .directory := by rw [there]; nofun
  have below {z : Place} (free : fs.get? z ≠ some .directory) : z ≠ [] := by
    rintro rfl
    exact free rfl
  have apart : ¬ q <+: p := fun above => free (tree p _ there q above other.symm)
  have arrived : (fs.relocate p q).get? q = some (.file content x) :=
    (get?_relocate_target (below free') (below free)).trans there
  have gone : (fs.relocate p q).get? p = none := get?_relocate_source (below free') apart
  refine ⟨⟨denied_relocate (tree.clear free') free' (tree.clear free) free, fun z outside => ?_,
    fun z mem => ?_, fun z mem given => ?_⟩, arrived, gone⟩
  · simp only [List.mem_cons, List.not_mem_nil, or_false, not_or] at outside
    exact get?_relocate_clear (tree.clear free') (tree.clear free) outside.1 outside.2
  · simp only [List.mem_cons, List.not_mem_nil, or_false] at mem
    rcases mem with rfl | rfl <;> assumption
  · simp only [List.mem_cons, List.not_mem_nil, or_false] at mem
    rcases mem with rfl | rfl
    · exact absurd gone given
    · exact inside

end ContractCheck.FileSystem
