import ContractCheck.FileSystem.Access
import ContractCheck.Proofs.Path.Names

/-! # What is in files

A path leads to one place, whatever stands there (`placeOf`): file operations may fail on the way,
but never end up elsewhere.  So what an operation does to the bytes of files (`content?`) can be
said place by place.  Directories that are made change no file, and what is removed or renamed only
changes what is at or below the places that its paths lead to.
-/
namespace ContractCheck.FileSystem

/-- The bytes of the file at a place. -/
def content? (fs : FileSystem) (q : Place) : Option Bytes :=
  match fs.get? q with
  | some (.file content _) => some content
  | _ => none

/-- Whether a file that cannot be read stands at a place. -/
def locked (fs : FileSystem) (q : Place) : Bool :=
  match fs.get? q with
  | some (.file _ mode) => !mode.readable
  | _ => false

/-- The place that names lead to from a directory, if they lead anywhere. -/
def lead : Place → List Text → Place
  | dir, [] => dir
  | dir, name :: rest =>
    if isStill name then lead dir rest
    else if name = Path.up then lead dir.dropLast rest
    else lead (dir ++ [name]) rest

/-- The place that a path leads to, if it leads anywhere. -/
def placeOf (cwd : Place) (path : Text) : Place := lead (startOf cwd path) (Text.splitOn ['/'] path)

variable {fs fs' : FileSystem} {cwd p q : Place} {path : Text}

theorem walk_lead {dir : Place} {names : List Text} (h : fs.walk dir names = .ok p) :
    p = lead dir names := by
  induction names generalizing dir with
  | nil => exact (Except.ok.inj h).symm
  | cons name rest ih =>
    simp only [walk] at h
    split at h
    · exact nomatch h
    · exact nomatch h
    -- Standing in a directory, the walk goes on as `lead` does.
    · rw [lead]
      split at h
      · next still => rw [if_pos still, ih h]
      · next still =>
        rw [if_neg still]
        split at h
        · next up => rw [if_pos up, ih h]
        · next up =>
          rw [if_neg up]
          split at h
          · exact nomatch h
          · exact ih h

theorem resolve_place (h : fs.resolve cwd path = .ok p) : p = placeOf cwd path := by
  unfold resolve at h
  split at h
  · exact nomatch h
  · split at h
    · exact nomatch h
    · split at h
      · exact nomatch h
      · exact walk_lead h

theorem lead_concat {name : Text} (proper : Path.Proper name) (dir : Place) (names : List Text) :
    lead dir (names ++ [name]) = lead dir names ++ [name] := by
  induction names generalizing dir with
  | nil =>
    have moves : isStill name = false := by simp [isStill, proper.1, proper.2.1]
    simp [lead, moves, proper.2.2]
  | cons other names ih =>
    rw [List.cons_append, lead, lead]
    split
    · exact ih dir
    · split
      · exact ih dir.dropLast
      · exact ih (dir ++ [other])

/-- A path that ends in a name leads to an entry of that name. -/
theorem placeOf_endsIn {name : Text} (bare : '/' ∉ name) (proper : Path.Proper name)
    (ends : Path.EndsIn name path) (cwd : Place) :
    (placeOf cwd path).getLast? = some name := by
  obtain ⟨segs, pieces⟩ := ends.pieces bare
  rw [placeOf, pieces, lead_concat proper, List.getLast?_append]
  rfl

theorem find_place {n : Node} (h : fs.find cwd path = .ok (p, n)) :
    p = placeOf cwd path ∧ fs.get? p = some n := by
  unfold find at h
  cases r : fs.resolve cwd path with
  | error e => rw [r] at h; exact nomatch h
  | ok p' =>
    rw [r] at h
    dsimp only [bind, Except.bind] at h
    split at h
    · next there =>
      obtain ⟨rfl, rfl⟩ := Prod.mk.inj (Except.ok.inj h)
      exact ⟨resolve_place r, there⟩
    · exact nomatch h

/-- What was read can be read. -/
theorem unlocked_of_read {bytes : Bytes} (read : fs.read cwd path = .ok bytes) :
    fs.locked (placeOf cwd path) = false := by
  unfold FileSystem.read at read
  cases found : fs.find cwd path with
  | error e => rw [found] at read; exact nomatch read
  | ok e =>
    obtain ⟨p, n⟩ := e
    obtain ⟨rfl, there⟩ := find_place found
    rw [found] at read
    cases n with
    | directory => exact nomatch read
    | file content mode =>
      dsimp only [bind, Except.bind] at read
      split at read
      · next readable =>
        rw [locked, there]
        simpa using readable
      · exact nomatch read

theorem content?_of_get? (same : fs'.get? q = fs.get? q) : fs'.content? q = fs.content? q := by
  rw [content?, content?, same]

theorem locked_of_get? (same : fs'.get? q = fs.get? q) : fs'.locked q = fs.locked q := by
  rw [locked, locked, same]

theorem content?_set_of_ne (n : Node) (other : q ≠ p) : (fs.set p n).content? q = fs.content? q :=
  content?_of_get? (get?_set_of_ne fs n other)

/-! ## Writing -/

/-- A file is changed where its path leads, and nowhere else. -/
theorem update_content {change : Bytes → Bytes} (h : fs.update cwd path change = .ok fs') :
    fs'.content? (placeOf cwd path) = some (change ((fs.content? (placeOf cwd path)).getD [])) ∧
      ∀ q, q ≠ placeOf cwd path → fs'.content? q = fs.content? q := by
  unfold update at h
  split at h
  · exact nomatch h
  · cases r : fs.resolve cwd path with
    | error e => rw [r] at h; exact nomatch h
    | ok p =>
      rw [r] at h
      dsimp only [bind, Except.bind] at h
      obtain rfl := resolve_place r
      -- The root is a directory, so no file is written there.
      have proper : fs.get? (placeOf cwd path) ≠ some .directory → placeOf cwd path ≠ [] := by
        intro file root
        exact file (by rw [root]; rfl)
      split at h
      · exact nomatch h
      · next content x there =>
        split at h
        · obtain rfl := Except.ok.inj h
          refine ⟨?_, fun q other => content?_set_of_ne _ other⟩
          rw [content?, get?_set_self fs _ (proper (by simp [there])), content?, there]
          rfl
        · exact nomatch h
      · next there =>
        split at h
        · exact nomatch h
        · obtain rfl := Except.ok.inj h
          refine ⟨?_, fun q other => content?_set_of_ne _ other⟩
          rw [content?, get?_set_self fs _ (proper (by simp [there])), content?, there]
          rfl

theorem write_content {content : Bytes} (h : fs.write cwd path content = .ok fs') :
    fs'.content? (placeOf cwd path) = some content ∧
      ∀ q, q ≠ placeOf cwd path → fs'.content? q = fs.content? q :=
  update_content h

theorem append_content {content : Bytes} (h : fs.append cwd path content = .ok fs')
    (other : q ≠ placeOf cwd path) : fs'.content? q = fs.content? q :=
  (update_content h).2 q other

/-- What is written can be read if it could be before, or if it is new. -/
theorem update_locked {change : Bytes → Bytes} (h : fs.update cwd path change = .ok fs')
    (q : Place) :
    fs'.locked q = fs.locked q := by
  unfold update at h
  split at h
  · exact nomatch h
  · cases r : fs.resolve cwd path with
    | error e => rw [r] at h; exact nomatch h
    | ok p =>
      rw [r] at h
      dsimp only [bind, Except.bind] at h
      have proper : fs.get? p ≠ some .directory → p ≠ [] := by
        rintro file rfl
        exact file rfl
      by_cases same : q = p
      · subst same
        split at h
        · exact nomatch h
        · next content mode there =>
          split at h
          · obtain rfl := Except.ok.inj h
            rw [locked, get?_set_self fs _ (proper (there ▸ nofun)), locked, there]
          · exact nomatch h
        · next free =>
          split at h
          · exact nomatch h
          · obtain rfl := Except.ok.inj h
            rw [locked, get?_set_self fs _ (proper (free ▸ nofun)), locked, free]
            rfl
      · split at h
        · exact nomatch h
        · split at h
          · obtain rfl := Except.ok.inj h
            exact locked_of_get? (get?_set_of_ne fs _ same)
          · exact nomatch h
        · split at h
          · exact nomatch h
          · obtain rfl := Except.ok.inj h
            exact locked_of_get? (get?_set_of_ne fs _ same)

theorem makeExecutable_content (h : fs.makeExecutable cwd path = .ok fs') (q : Place) :
    fs'.content? q = fs.content? q := by
  unfold makeExecutable at h
  cases f : fs.find cwd path with
  | error e => rw [f] at h; exact nomatch h
  | ok found =>
    obtain ⟨p, n⟩ := found
    obtain ⟨-, there⟩ := find_place f
    rw [f] at h
    cases n with
    | directory => exact congrArg (content? · q) (Except.ok.inj h).symm
    | file content x =>
      obtain rfl := Except.ok.inj h
      by_cases same : q = p
      · subst same
        have proper : q ≠ [] := by
          rintro rfl
          exact nomatch there
        rw [content?, get?_set_self fs _ proper, content?, there]
      · exact content?_set_of_ne _ same

theorem makeExecutable_locked (h : fs.makeExecutable cwd path = .ok fs') (q : Place) :
    fs'.locked q = fs.locked q := by
  unfold makeExecutable at h
  cases f : fs.find cwd path with
  | error e => rw [f] at h; exact nomatch h
  | ok found =>
    obtain ⟨p, n⟩ := found
    obtain ⟨-, there⟩ := find_place f
    rw [f] at h
    cases n with
    | directory => exact congrArg (locked · q) (Except.ok.inj h).symm
    | file content x =>
      obtain rfl := Except.ok.inj h
      by_cases same : q = p
      · subst same
        have proper : q ≠ [] := by
          rintro rfl
          exact nomatch there
        rw [locked, get?_set_self fs _ proper, locked, there]
      · exact locked_of_get? (get?_set_of_ne fs _ same)

/-! ## Making directories -/

/-- A directory takes no file's place. -/
theorem content?_set_directory (free : fs.get? p = none) :
    (fs.set p .directory).content? q = fs.content? q := by
  by_cases same : q = p
  · subst same
    have proper : q ≠ [] := by
      rintro rfl
      exact nomatch free
    rw [content?, get?_set_self fs _ proper, content?, free]
  · exact content?_set_of_ne _ same

theorem locked_set_directory (free : fs.get? p = none) :
    (fs.set p .directory).locked q = fs.locked q := by
  by_cases same : q = p
  · subst same
    have proper : q ≠ [] := by
      rintro rfl
      exact nomatch free
    rw [locked, get?_set_self fs _ proper, locked, free]
  · exact locked_of_get? (get?_set_of_ne fs _ same)

theorem makeAlong_content (fs : FileSystem) (dir : Place) (names : List Text) :
    (fs.makeAlong dir names).1.content? q = fs.content? q := by
  induction names generalizing fs dir with
  | nil => rfl
  | cons name rest ih =>
    simp only [makeAlong]
    split
    · exact ih fs dir
    · split
      · exact ih fs dir.dropLast
      · split
        · rfl
        · split
          · exact ih fs (dir ++ [name])
          · rfl
          · next free =>
            split
            · rfl
            · rw [ih, content?_set_directory free]

theorem makeAlong_locked (fs : FileSystem) (dir : Place) (names : List Text) (q : Place) :
    (fs.makeAlong dir names).1.locked q = fs.locked q := by
  induction names generalizing fs dir with
  | nil => rfl
  | cons name rest ih =>
    simp only [makeAlong]
    split
    · exact ih fs dir
    · split
      · exact ih fs dir.dropLast
      · split
        · rfl
        · split
          · exact ih fs (dir ++ [name])
          · rfl
          · next free =>
            split
            · rfl
            · rw [ih, locked_set_directory free]

theorem makeDirectories_locked (fs : FileSystem) (cwd : Place) (path : Text) (q : Place) :
    (fs.makeDirectories cwd path).1.locked q = fs.locked q := by
  unfold makeDirectories
  split
  · rfl
  · split
    · rfl
    · exact makeAlong_locked ..

theorem makeDirectories_content (fs : FileSystem) (cwd : Place) (path : Text) :
    (fs.makeDirectories cwd path).1.content? q = fs.content? q := by
  unfold makeDirectories
  split
  · rfl
  · split
    · rfl
    · exact makeAlong_content ..

/-! ## Removing and renaming -/

theorem content?_erase (apart : ¬ p <+: q) : (fs.erase p).content? q = fs.content? q := by
  by_cases root : q = []
  · subst root
    rfl
  · apply content?_of_get?
    rw [get?_erase fs p root, if_neg (by rwa [List.isPrefixOf_iff_prefix])]

theorem remove_content (h : fs.remove cwd path = .ok fs') (apart : ¬ placeOf cwd path <+: q) :
    fs'.content? q = fs.content? q := by
  unfold remove at h
  cases f : fs.find cwd path with
  | error e => rw [f] at h; exact nomatch h
  | ok found =>
    obtain ⟨p, n⟩ := found
    obtain ⟨rfl, -⟩ := find_place f
    rw [f] at h
    cases n with
    | directory => exact nomatch h
    | file content x =>
      dsimp only [bind, Except.bind] at h
      split at h
      · exact nomatch h
      · obtain rfl := Except.ok.inj h
        exact content?_erase apart

theorem get?_relocate_apart {source target : Place} (below : ¬ source <+: q)
    (beyond : ¬ target <+: q) :
    (fs.relocate source target).get? q = fs.get? q := by
  by_cases root : q = []
  · subst root
    rfl
  · have keeps : (!source.isPrefixOf q && !target.isPrefixOf q) = true := by
      rw [← List.isPrefixOf_iff_prefix] at below beyond
      simp [below, beyond]
    -- What was carried along is below the target.
    have carried : ∀ es : List (Place × Node),
        (es.map fun e => (moved source target e.1, e.2)).lookup q = none := by
      intro es
      induction es with
      | nil => rfl
      | cons e es ih =>
        have other : (q == moved source target e.1) = false := by
          refine beq_eq_false_iff_ne.mpr fun same => beyond ?_
          rw [same]
          exact List.prefix_append _ _
        rw [List.map_cons, List.lookup_cons, other]
        exact ih
    simp only [get?, entryAt, relocate, root, if_false, List.lookup_append, carried, Option.or_none]
    rw [lookup_filter (fun k => !source.isPrefixOf k && !target.isPrefixOf k), if_pos keeps]

theorem content?_relocate {source target : Place} (below : ¬ source <+: q)
    (beyond : ¬ target <+: q) :
    (fs.relocate source target).content? q = fs.content? q :=
  content?_of_get? (get?_relocate_apart below beyond)

/-- **What is given another name** was found, and stands at the target afterwards; a file takes no
directory's place. -/
theorem rename_cases {target : Text} (done : fs.rename cwd path target = .ok fs') :
    ∃ p n q, fs.find cwd path = .ok (p, n) ∧ fs.resolve cwd target = .ok q ∧
      (p = q ∧ fs' = fs ∨
        p ≠ q ∧ (n ≠ .directory → fs.get? q ≠ some .directory) ∧ fs' = fs.relocate p q) := by
  unfold rename at done
  cases found : fs.find cwd path with
  | error e => rw [found] at done; cases done
  | ok f =>
    obtain ⟨p, n⟩ := f
    cases led : fs.resolve cwd target with
    | error e => rw [found, led] at done; cases done
    | ok q =>
      rw [found, led] at done
      dsimp only [bind, Except.bind] at done
      refine ⟨p, n, q, rfl, rfl, ?_⟩
      by_cases same : p = q
      · rw [if_pos same] at done
        exact .inl ⟨same, (Except.ok.inj done).symm⟩
      · rw [if_neg same] at done
        refine .inr ⟨same, ?_⟩
        split at done
        · cases done
        · split at done
          · cases done
          · split at done
            · cases done
            · next free => exact ⟨fun _ => free, (Except.ok.inj done).symm⟩
            · cases done
            · refine ⟨fun other => absurd rfl other, ?_⟩
              split at done
              · cases done
              · split at done
                · cases done
                · exact (Except.ok.inj done).symm

theorem rename_content {target : Text} (h : fs.rename cwd path target = .ok fs')
    (below : ¬ placeOf cwd path <+: q) (beyond : ¬ placeOf cwd target <+: q) :
    fs'.content? q = fs.content? q := by
  obtain ⟨p, n, p', found, led, ⟨-, rfl⟩ | ⟨-, -, rfl⟩⟩ := rename_cases h
  · rfl
  · obtain ⟨rfl, -⟩ := find_place found
    obtain rfl := resolve_place led
    exact content?_relocate below beyond

end ContractCheck.FileSystem
