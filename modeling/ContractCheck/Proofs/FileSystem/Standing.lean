import ContractCheck.Proofs.FileSystem.Contents
import ContractCheck.Proofs.Path.Usable

/-! # What stands, and why operations fail

An operation on usable paths fails only for reasons that the file system gives.  And what adds to
files or makes directories takes nothing away: a path that led to something still does (`Grows`).
-/
namespace ContractCheck.FileSystem

open ContractCheck.Path (Usable)

variable {fs fs' : FileSystem} {cwd : Place} {path : Text} {e : FileError}

/-! ## Faults -/

theorem walk_fromSystem {dir : Place} {names : List Text} (failed : fs.walk dir names = .error e) :
    e.fromSystem = true := by
  fun_induction fs.walk dir names with
  | case1 => cases failed
  | case2 =>
    obtain rfl := Except.error.inj failed
    rfl
  | case3 =>
    obtain rfl := Except.error.inj failed
    rfl
  | case4 _ _ _ _ _ ih => exact ih failed
  | case5 _ _ _ _ ih => exact ih failed
  | case6 =>
    obtain rfl := Except.error.inj failed
    rfl
  | case7 _ _ _ _ _ _ _ ih => exact ih failed

theorem resolve_fromSystem (usable : Usable path) (failed : fs.resolve cwd path = .error e) :
    e.fromSystem = true := by
  unfold resolve at failed
  split at failed
  · next zero => exact absurd (List.contains_iff_mem.mp zero) usable
  · split at failed
    · obtain rfl := Except.error.inj failed
      rfl
    · split at failed
      · obtain rfl := Except.error.inj failed
        rfl
      · exact walk_fromSystem failed

theorem find_fromSystem (usable : Usable path) (failed : fs.find cwd path = .error e) :
    e.fromSystem = true := by
  unfold find at failed
  cases r : fs.resolve cwd path with
  | error e' =>
    rw [r] at failed
    obtain rfl := Except.error.inj failed
    exact resolve_fromSystem usable r
  | ok p =>
    rw [r] at failed
    dsimp only [bind, Except.bind] at failed
    split at failed
    · cases failed
    · obtain rfl := Except.error.inj failed
      rfl

theorem read_fromSystem (usable : Usable path) (failed : fs.read cwd path = .error e) :
    e.fromSystem = true := by
  unfold read at failed
  cases found : fs.find cwd path with
  | error e' =>
    rw [found] at failed
    cases failed
    exact find_fromSystem usable found
  | ok f =>
    rw [found] at failed
    obtain ⟨p, _ | ⟨content, x⟩⟩ := f
    · cases failed
      rfl
    · dsimp only [bind, Except.bind] at failed
      split at failed
      · cases failed
      · cases failed
        rfl

theorem update_fromSystem {change : Bytes → Bytes} (usable : Usable path)
    (failed : fs.update cwd path change = .error e) : e.fromSystem = true := by
  unfold update at failed
  split at failed
  · obtain rfl := Except.error.inj failed
    split <;> rfl
  · cases r : fs.resolve cwd path with
    | error e' =>
      rw [r] at failed
      obtain rfl := Except.error.inj failed
      exact resolve_fromSystem usable r
    | ok p =>
      rw [r] at failed
      dsimp only [bind, Except.bind] at failed
      split at failed
      · obtain rfl := Except.error.inj failed
        rfl
      · split at failed
        · cases failed
        · obtain rfl := Except.error.inj failed
          rfl
      · split at failed
        · obtain rfl := Except.error.inj failed
          rfl
        · cases failed

theorem remove_fromSystem (usable : Usable path) (failed : fs.remove cwd path = .error e) :
    e.fromSystem = true := by
  unfold remove at failed
  cases f : fs.find cwd path with
  | error e' =>
    rw [f] at failed
    obtain rfl := Except.error.inj failed
    exact find_fromSystem usable f
  | ok found =>
    obtain ⟨p, n⟩ := found
    rw [f] at failed
    cases n with
    | directory =>
      obtain rfl := Except.error.inj failed
      rfl
    | file content x =>
      dsimp only [bind, Except.bind] at failed
      split at failed
      · obtain rfl := Except.error.inj failed
        rfl
      · cases failed

theorem rename_fromSystem {target : Text} (usable : Usable path) (usable' : Usable target)
    (failed : fs.rename cwd path target = .error e) : e.fromSystem = true := by
  unfold rename at failed
  cases f : fs.find cwd path with
  | error e' =>
    rw [f] at failed
    obtain rfl := Except.error.inj failed
    exact find_fromSystem usable f
  | ok found =>
    obtain ⟨p, n⟩ := found
    cases r : fs.resolve cwd target with
    | error e' =>
      rw [f, r] at failed
      obtain rfl := Except.error.inj failed
      exact resolve_fromSystem usable' r
    | ok q =>
      rw [f, r] at failed
      dsimp only [bind, Except.bind] at failed
      -- Each refusal has a reason of its own, and what is moved is no failure.
      have refused {own : FileError} {fs' : FileSystem} {P : Prop} [Decidable P]
          (failed : (if P then Except.error own else Except.ok fs') = Except.error e)
          (system : own.fromSystem = true) : e.fromSystem = true := by
        split at failed
        · exact Except.error.inj failed ▸ system
        · cases failed
      split at failed
      · cases failed
      · split at failed
        · obtain rfl := Except.error.inj failed
          rfl
        · split at failed
          · obtain rfl := Except.error.inj failed
            rfl
          · split at failed
            · obtain rfl := Except.error.inj failed
              rfl
            · cases failed
            · obtain rfl := Except.error.inj failed
              rfl
            · split at failed
              · obtain rfl := Except.error.inj failed
                rfl
              · exact refused failed rfl

theorem makeAlong_fromSystem {dir : Place} {names : List Text}
    (failed : (fs.makeAlong dir names).2 = some e) :
    e.fromSystem = true := by
  induction names generalizing fs dir with
  | nil => cases failed
  | cons name rest ih =>
    simp only [makeAlong] at failed
    split at failed
    · exact ih failed
    · split at failed
      · exact ih failed
      · split at failed
        · obtain rfl := Option.some.inj failed
          rfl
        · split at failed
          · exact ih failed
          · obtain rfl := Option.some.inj failed
            split <;> rfl
          · split at failed
            · obtain rfl := Option.some.inj failed
              rfl
            · exact ih failed

theorem makeDirectories_fromSystem (usable : Usable path)
    (failed : (fs.makeDirectories cwd path).2 = some e) : e.fromSystem = true := by
  unfold makeDirectories at failed
  split at failed
  · next zero => exact absurd (List.contains_iff_mem.mp zero) usable
  · split at failed
    · obtain rfl := Option.some.inj failed
      rfl
    · exact makeAlong_fromSystem failed

/-! ## What stays -/

/-- Whatever stood somewhere, something stands there, and directories are still directories. -/
structure Grows (fs fs' : FileSystem) : Prop where
  directory : ∀ q, fs.get? q = some .directory → fs'.get? q = some .directory
  entry : ∀ q, (fs.get? q).isSome → (fs'.get? q).isSome

theorem Grows.refl (fs : FileSystem) : Grows fs fs := ⟨fun _ h => h, fun _ h => h⟩

theorem Grows.trans {fs'' : FileSystem} (h : Grows fs fs') (h' : Grows fs' fs'') : Grows fs fs'' :=
  ⟨fun q there => h'.directory q (h.directory q there), fun q there => h'.entry q (h.entry q there)⟩

/-- An entry may be set where no directory is, or as one. -/
theorem grows_set {p : Place} {n : Node} (free : fs.get? p = some .directory → n = .directory) :
    Grows fs (fs.set p n) := by
  by_cases root : p = []
  -- The root is a directory whatever is set there.
  · subst root
    have same : ∀ q, q ≠ [] → (fs.set [] n).get? q = fs.get? q :=
      fun q other => get?_set_of_ne fs n other
    have kept : ∀ q, (fs.set [] n).get? q = fs.get? q := fun q => by
      by_cases other : q = []
      · subst other
        rfl
      · exact same q other
    exact ⟨fun q there => (kept q).trans there, fun q there => by rwa [kept q]⟩
  · have here := get?_set_self fs n root
    constructor
    · intro q there
      by_cases same : q = p
      · subst same
        rw [here, free there]
      · rw [get?_set_of_ne fs n same, there]
    · intro q there
      by_cases same : q = p
      · subst same
        rw [here]
        rfl
      · rwa [get?_set_of_ne fs n same]

theorem update_grows {change : Bytes → Bytes} (h : fs.update cwd path change = .ok fs') :
    Grows fs fs' := by
  unfold update at h
  split at h
  · cases h
  · cases r : fs.resolve cwd path with
    | error e => rw [r] at h; cases h
    | ok p =>
      rw [r] at h
      dsimp only [bind, Except.bind] at h
      split at h
      · cases h
      · next content x there =>
        split at h
        · obtain rfl := Except.ok.inj h
          exact grows_set fun directory => nomatch there.symm.trans directory
        · cases h
      · next free =>
        split at h
        · cases h
        · obtain rfl := Except.ok.inj h
          exact grows_set fun directory => nomatch free.symm.trans directory

theorem makeAlong_grows (fs : FileSystem) (dir : Place) (names : List Text) :
    Grows fs (fs.makeAlong dir names).1 := by
  induction names generalizing fs dir with
  | nil => exact .refl fs
  | cons name rest ih =>
    simp only [makeAlong]
    split
    · exact ih fs dir
    · split
      · exact ih fs dir.dropLast
      · split
        · exact .refl fs
        · split
          · exact ih fs (dir ++ [name])
          · exact .refl fs
          · split
            · exact .refl fs
            · exact Grows.trans (grows_set fun _ => rfl) (ih _ _)

theorem makeDirectories_grows (fs : FileSystem) (cwd : Place) (path : Text) :
    Grows fs (fs.makeDirectories cwd path).1 := by
  unfold makeDirectories
  split
  · exact .refl fs
  · split
    · exact .refl fs
    · exact makeAlong_grows ..

theorem Grows.walk (h : Grows fs fs') {dir p : Place} {names : List Text}
    (led : fs.walk dir names = .ok p) :
    fs'.walk dir names = .ok p := by
  induction names generalizing dir with
  | nil => exact led
  | cons name rest ih =>
    simp only [FileSystem.walk] at led ⊢
    split at led
    · cases led
    · cases led
    · next there =>
      rw [h.directory dir there]
      dsimp only
      split at led
      · next still => rw [if_pos still, ih led]
      · next still =>
        rw [if_neg still]
        split at led
        · next up => rw [if_pos up, ih led]
        · next up =>
          rw [if_neg up]
          split at led
          · cases led
          · next short => rw [if_neg short, ih led]

theorem Grows.resolve (h : Grows fs fs') {p : Place} (led : fs.resolve cwd path = .ok p) :
    fs'.resolve cwd path = .ok p := by
  unfold FileSystem.resolve at led ⊢
  split at led
  · cases led
  · next usable =>
    rw [if_neg usable]
    split at led
    · cases led
    · next given =>
      rw [if_neg given]
      split at led
      · cases led
      · next short => rw [if_neg short, h.walk led]

/-- **What was there still is.** -/
theorem Grows.isThere (h : Grows fs fs') (there : fs.isThere cwd path = true) :
    fs'.isThere cwd path = true := by
  unfold FileSystem.isThere find at there ⊢
  cases led : fs.resolve cwd path with
  | error e => rw [led] at there; cases there
  | ok p =>
    rw [led] at there
    rw [h.resolve led]
    dsimp only [bind, Except.bind] at there ⊢
    have some : (fs.get? p).isSome = true := by
      split at there
      · next found => rw [found]; rfl
      · cases there
    obtain ⟨n, found⟩ := Option.isSome_iff_exists.mp (h.entry p some)
    rw [found]
    rfl

/-- A directory that was made is put where nothing stood. -/
theorem makeDirectory_done (made : fs.makeDirectory cwd path = .ok fs') :
    ∃ p, fs.resolve cwd path = .ok p ∧ fs.get? p = none ∧ fs' = fs.set p .directory := by
  unfold makeDirectory at made
  cases led : fs.resolve cwd path with
  | error e => rw [led] at made; cases made
  | ok p =>
    rw [led] at made
    dsimp only [bind, Except.bind] at made
    split at made
    · cases made
    · next free =>
      split at made
      · cases made
      · exact ⟨p, rfl, free, (Except.ok.inj made).symm⟩

theorem isThere_of_find {p : Place} {n : Node} (found : fs.find cwd path = .ok (p, n)) :
    fs.isThere cwd path = true := by
  unfold isThere
  rw [found]
  rfl

/-! ## Reading what was written -/

/-- A file that was written has its bytes at its place.  What may be done with it stays as it was,
and a file that is new may be read and written. -/
theorem write_get? {content : Bytes} (written : fs.write cwd path content = .ok fs') :
    ∃ p m, fs.resolve cwd path = .ok p ∧ fs'.get? p = some (.file content m) ∧
      fs'.denied = fs.denied ∧ (∀ q, q ≠ p → fs'.get? q = fs.get? q) ∧
      (fs.get? p = none ∧ m = .plain ∨ m.writable = true ∧ ∃ old,
        fs.get? p = some (.file old m)) := by
  have kept := written
  unfold write update at kept
  split at kept
  · cases kept
  · cases led : fs.resolve cwd path with
    | error e => rw [led] at kept; cases kept
    | ok p =>
      rw [led] at kept
      dsimp only [bind, Except.bind] at kept
      have proper : fs.get? p ≠ some .directory → p ≠ [] := by
        rintro other rfl
        exact other rfl
      split at kept
      · cases kept
      · next old m there =>
        split at kept
        · next allowed =>
          obtain rfl := Except.ok.inj kept
          exact ⟨p, m, rfl, get?_set_self fs _ (proper (there ▸ nofun)),
            denied_set fun directory => (nomatch there.symm.trans directory),
            fun q other => get?_set_of_ne fs _ other, .inr ⟨allowed, old, there⟩⟩
        · cases kept
      · next free =>
        split at kept
        · cases kept
        · obtain rfl := Except.ok.inj kept
          exact ⟨p, .plain, rfl, get?_set_self fs _ (proper (free ▸ nofun)),
            denied_set fun directory => (nomatch free.symm.trans directory),
            fun q other => get?_set_of_ne fs _ other, .inl ⟨free, rfl⟩⟩

/-- What was written is found. -/
theorem find_written {content : Bytes} (written : fs.write cwd path content = .ok fs') :
    ∃ p m, fs'.find cwd path = .ok (p, .file content m) := by
  obtain ⟨p, m, led, there, -⟩ := write_get? written
  refine ⟨p, m, ?_⟩
  rw [find, (update_grows written).resolve led]
  dsimp only [bind, Except.bind]
  rw [there]

/-- **What was written is read**, unless a file was there that cannot be read. -/
theorem read_written {content : Bytes} (written : fs.write cwd path content = .ok fs')
    (legible : fs.locked (placeOf cwd path) = false) : fs'.read cwd path = .ok content := by
  obtain ⟨p, m, found⟩ := find_written written
  obtain ⟨rfl, there⟩ := find_place found
  have readable : m.readable = true := by
    rw [← update_locked written, locked, there] at legible
    simpa using legible
  rw [read, found]
  exact if_pos readable

/-- Whether a file can be written does not depend on its bytes. -/
theorem write_any {content : Bytes} (written : fs.write cwd path content = .ok fs')
    (other : Bytes) :
    ∃ fs'', fs.write cwd path other = .ok fs'' := by
  unfold write update at written ⊢
  split at written
  · cases written
  · next file =>
    rw [if_neg file]
    cases led : fs.resolve cwd path with
    | error e => rw [led] at written; cases written
    | ok p =>
      rw [led] at written
      dsimp only [bind, Except.bind] at written ⊢
      split at written
      · cases written
      · split at written
        · next allowed => exact ⟨_, if_pos allowed⟩
        · cases written
      · split at written
        · cases written
        · next allowed => exact ⟨_, if_neg allowed⟩

end ContractCheck.FileSystem
