import ContractCheck.Proofs.FileSystem.Ways

/-! # Directories on the way up

If a path leads to a directory, then so do the paths of its lineage (`standing_lineage`), and no
directory on the way up goes as long as none goes at all.  A name in such a directory is found by
what stands at its place (`find_child_congr`), and in a tree so is a name two levels below
(`isThere_grandchild_iff`).
-/
namespace ContractCheck

namespace Path

variable {p d name : Text} {ns : List Text}

theorem withNames_same (p : Text) (ahead : ns <+: Posix.names p) :
    Posix.root (Posix.withNames p ns) = Posix.root p ∧ Posix.names (Posix.withNames p ns) = ns := by
  have own : Posix.names (Text.join ['/'] ns) = ns :=
    names_joined fun n mem => own_of_mem_names (ahead.subset mem)
  unfold Posix.withNames
  dsimp only
  split
  · next empty =>
    obtain ⟨root, joined⟩ := List.append_eq_nil_iff.mp (List.isEmpty_iff.mp empty)
    have none : ns = [] := by
      rw [← own]
      exact names_of_join_eq_nil (own.symm ▸ joined)
    rw [root, none]
    decide
  · have plain := join_names (Text.join ['/'] ns)
    rw [own] at plain
    rw [root_append p plain, names_root_append]
    exact ⟨rfl, own⟩

/-- The directories on the way up start like the path, with a part of its names. -/
theorem lineage_same (mem : d ∈ Posix.lineage p) :
    Posix.root d = Posix.root p ∧ Posix.names d <+: Posix.names p := by
  obtain ⟨k, -, rfl⟩ := List.mem_map.mp mem
  have ahead := List.take_prefix ((Posix.names p).length - k) (Posix.names p)
  obtain ⟨root, names⟩ := withNames_same p ahead
  exact ⟨root, by rwa [names]⟩

theorem child_same (bare : '/' ∉ name) (proper : Proper name) (d : Text) :
    Posix.root (Posix.child d name) = Posix.root d ∧
    Posix.names (Posix.child d name) = Posix.names d ++ [name] := by
  obtain ⟨root, names⟩ := tidy_same (Posix.join (Posix.tidy d) name)
  obtain ⟨root', names'⟩ := tidy_same d
  refine ⟨?_, ?_⟩
  · rw [Posix.child, root, root_join bare, root']
  · rw [Posix.child, names, names_join bare proper, names']

end Path

namespace FileSystem

open ContractCheck.Path (Proper EndsIn piecesBefore)

variable {fs fs' : FileSystem} {cwd dir p : Place} {base d path name inner : Text}
  {names front back : List Text}

/-! ## Parts of ways -/

theorem walk_append (fs : FileSystem) (dir : Place) (front back : List Text) :
    fs.walk dir (front ++ back) = fs.walk dir front >>= fun p => fs.walk p back := by
  induction front generalizing dir with
  | nil => rfl
  | cons name rest ih =>
    rw [List.cons_append, walk, walk]
    cases fs.get? dir with
    | none => rfl
    | some n =>
      cases n with
      | file content x => rfl
      | directory =>
        dsimp only
        split
        · exact ih dir
        · split
          · exact ih dir.dropLast
          · split
            · rfl
            · exact ih (dir ++ [name])

theorem walk_front (led : fs.walk dir (front ++ back) = .ok p) :
    fs.walk dir front = .ok (lead dir front) := by
  rw [walk_append] at led
  cases ahead : fs.walk dir front with
  | error e =>
    rw [ahead] at led
    cases led
  | ok q => rw [walk_lead ahead]

/-- Names that lead nowhere can be left out on the way to a directory. -/
theorem walk_filter_directory (stands : fs.get? p = some .directory) :
    fs.walk dir (names.filter fun s => !isStill s) = .ok p ↔ fs.walk dir names = .ok p := by
  -- a name behind them can be looked for in the same cases
  have probe (ns : List Text) :
      fs.walk dir ns = .ok p ↔ fs.walk dir (ns ++ [['a']]) = .ok (p ++ [['a']]) := by
    rw [walk_concat_iff (by decide)]
    constructor
    · intro led
      obtain rfl := walk_lead led
      exact ⟨led, stands, by decide, rfl⟩
    · rintro ⟨led, -, -, same⟩
      rw [List.append_cancel_right same, led]
  rw [probe, walk_filter, ← probe]

/-- A directory stands if its names lead to it. -/
theorem standing_iff_names : fs.Standing cwd d ↔
    fs.walk (startOf cwd d) (Path.Posix.names d) = .ok (folderOf cwd d) ∧
    fs.get? (folderOf cwd d) = some .directory := by
  have same (stands : fs.get? (folderOf cwd d) = some .directory) :
      fs.walk (startOf cwd d) (Path.Posix.names d) = .ok (folderOf cwd d) ↔
        fs.walk (startOf cwd d) (piecesBefore d) = .ok (folderOf cwd d) := by
    rw [Path.names_eq_filter]
    simp only [moves_iff]
    exact walk_filter_directory stands
  exact ⟨fun standing => ⟨(same standing.directory).mpr standing.led, standing.directory⟩,
    fun ⟨led, stands⟩ => ⟨(same stands).mp led, stands⟩⟩

/-- **All directories on the way up from a directory stand.** -/
theorem standing_lineage (directory : fs.isDirectory cwd base = true)
    (mem : d ∈ Path.Posix.lineage base) :
    fs.Standing cwd d := by
  obtain ⟨p, found⟩ := isDirectory_iff.mp directory
  obtain ⟨led, stands⟩ := find_iff.mp found
  obtain ⟨-, led⟩ := resolve_iff.mp led
  rw [← walk_filter_directory stands] at led
  simp only [← moves_iff] at led
  rw [← Path.Posix.names] at led
  obtain ⟨root, ahead⟩ := Path.lineage_same mem
  obtain ⟨back, whole⟩ := ahead
  rw [← startOf_congr root] at led
  rw [← whole] at led
  rw [standing_iff_names, folderOf_eq_lead_names]
  exact ⟨walk_front led, directory_on_walk led stands ⟨back, rfl⟩⟩

/-! ## Names in directories -/

section Child
variable (bare : '/' ∉ name) (proper : Proper name)
include bare proper

theorem walk_child (fs : FileSystem) (cwd : Place) (d : Text) :
    fs.walk (startOf cwd (Path.Posix.child d name)) (Text.splitOn ['/'] (Path.Posix.child d name)) =
      fs.walk (startOf cwd d) (piecesBefore d ++ [name]) := by
  obtain ⟨root, names⟩ := Path.child_same bare proper d
  rw [walk_names bare proper (EndsIn.child bare d proper), startOf_congr root, names,
    Path.names_eq_filter]
  simp only [moves_iff]
  exact walk_filter ..

theorem placeOf_child (cwd : Place) (d : Text) :
    placeOf cwd (Path.Posix.child d name) = folderOf cwd d ++ [name] := by
  obtain ⟨root, names⟩ := Path.child_same bare proper d
  rw [placeOf_eq_lead_names, names, lead_concat proper, startOf_congr root, folderOf_eq_lead_names]

theorem folderOf_child (cwd : Place) (d : Text) :
    folderOf cwd (Path.Posix.child d name) = folderOf cwd d ++ [name] := by
  obtain ⟨root, names⟩ := Path.child_same bare proper d
  rw [folderOf_eq_lead_names, names, lead_concat proper, startOf_congr root, folderOf_eq_lead_names]

theorem resolve_child_iff : fs.resolve cwd (Path.Posix.child d name) = .ok p ↔
    Nameable (Path.Posix.child d name) name ∧ fs.Standing cwd d ∧ p = folderOf cwd d ++ [name] := by
  rw [resolve_iff, walk_child bare proper, walk_concat_iff proper]
  constructor
  · rintro ⟨takes, led, directory, short, same⟩
    exact ⟨⟨takes, short⟩, ⟨led, directory⟩, same⟩
  · rintro ⟨⟨takes, short⟩, ⟨led, directory⟩, same⟩
    exact ⟨takes, led, directory, short, same⟩

theorem standing_child_iff : fs.Standing cwd (Path.Posix.child d name) ↔
    fs.Standing cwd d ∧ tooLong name = false ∧ fs.get? (folderOf cwd d ++ [name]) =
      some .directory := by
  obtain ⟨root, names⟩ := Path.child_same bare proper d
  rw [standing_iff_names, standing_iff_names, folderOf_child bare proper,
    startOf_congr root, names, walk_concat_iff proper, ← folderOf_eq_lead_names]
  constructor
  · rintro ⟨⟨led, directory, short, -⟩, stands⟩
    exact ⟨⟨led, directory⟩, short, stands⟩
  · rintro ⟨⟨led, directory⟩, short, stands⟩
    exact ⟨⟨led, directory, short, rfl⟩, stands⟩

/-- **In a directory that stands a name is found by what stands at its place.** -/
theorem find_child_congr (short : tooLong name = false) (standing : fs.Standing cwd d)
    (standing' : fs'.Standing cwd d)
    (same : fs'.get? (folderOf cwd d ++ [name]) = fs.get? (folderOf cwd d ++ [name])) :
    fs'.find cwd (Path.Posix.child d name) = fs.find cwd (Path.Posix.child d name) := by
  have led {fs : FileSystem} (standing : fs.Standing cwd d) :
      fs.walk (startOf cwd (Path.Posix.child d name))
      (Text.splitOn ['/'] (Path.Posix.child d name)) = .ok (folderOf cwd d ++ [name]) := by
    rw [walk_child bare proper]
    exact (walk_concat_iff proper).mpr ⟨standing.led, standing.directory, short, rfl⟩
  unfold find resolve
  rw [led standing, led standing']
  split
  · rfl
  · split
    · rfl
    · split
      · rfl
      · dsimp only [bind, Except.bind]
        rw [same]

end Child

/-! ## Names two levels below -/

/-- The system only refuses to look at a path whose names are short if the whole path is too
long. -/
theorem find_nameTooLong_iff (short : fs.walk (startOf cwd path) (Text.splitOn ['/'] path) ≠
    .error .nameTooLong) :
    fs.find cwd path = .error .nameTooLong ↔ '\x00' ∉ path ∧ path ≠ [] ∧
    maxPath < (Utf8.encode path).length := by
  unfold find resolve
  split
  · next zero => exact ⟨nofun, fun long => absurd (List.contains_iff_mem.mp zero) long.1⟩
  · next usable =>
    split
    · next empty => exact ⟨nofun, fun long => absurd (List.isEmpty_iff.mp empty) long.2.1⟩
    · next given =>
      split
      · next long => exact ⟨fun _ => ⟨fun mem => usable (List.contains_iff_mem.mpr mem),
          fun empty => given (List.isEmpty_iff.mpr empty), long⟩, fun _ => rfl⟩
      · next fits =>
        refine ⟨fun failed => ?_, fun long => absurd long.2.2 fits⟩
        cases led : fs.walk (startOf cwd path) (Text.splitOn ['/'] path) with
        | error e =>
          rw [led] at failed short
          cases failed
          exact absurd rfl short
        | ok p =>
          rw [led] at failed
          dsimp only [bind, Except.bind] at failed
          split at failed <;> cases failed

section Grandchild
variable {outer : Text} (bare : '/' ∉ name) (proper : Proper name) (short : tooLong name = false)
  (bare' : '/' ∉ outer)
  (proper' : Proper outer) (short' : tooLong outer = false)
include bare proper short bare' proper' short'

/-- **In a tree a name two levels below a directory that stands is there if something is at its
place.** -/
theorem isThere_grandchild_iff (tree : fs.IsTree) (standing : fs.Standing cwd d) :
    fs.isThere cwd (Path.Posix.child (Path.Posix.child d outer) name) = true ↔
      Takes (Path.Posix.child (Path.Posix.child d outer) name) ∧
        fs.get? (placeOf cwd (Path.Posix.child (Path.Posix.child d outer) name)) ≠ none := by
  rw [placeOf_child bare proper, folderOf_child bare' proper']
  rcases fs.found_or_absent cwd (Path.Posix.child (Path.Posix.child d outer) name) with
    ⟨p, n, found, there⟩ | ⟨missing, absent⟩
  · obtain ⟨led, given⟩ := find_iff.mp found
    obtain ⟨⟨takes, -⟩, -, rfl⟩ := (resolve_child_iff bare proper).mp led
    rw [folderOf_child bare' proper'] at given
    exact ⟨fun _ => ⟨takes, given ▸ Option.some_ne_none n⟩, fun _ => there⟩
  · refine ⟨fun there => absurd there (by rw [absent]; exact Bool.false_ne_true),
      fun ⟨takes, given⟩ => ?_⟩
    obtain ⟨n, given⟩ := Option.ne_none_iff_exists'.mp given
    have directory := tree _ _ given (folderOf cwd d ++ [outer]) (List.prefix_append _ _) (by simp)
    have led : fs.resolve cwd (Path.Posix.child (Path.Posix.child d outer) name) =
      .ok (folderOf cwd d ++ [outer] ++ [name]) := by
      rw [resolve_child_iff bare proper, standing_child_iff bare' proper',
        folderOf_child bare' proper']
      exact ⟨⟨takes, short⟩, ⟨standing, short', directory⟩, rfl⟩
    exact absurd (find_iff.mpr ⟨led, given⟩) (missing _ n)

theorem find_grandchild_nameTooLong_iff (standing : fs.Standing cwd d) :
    fs.find cwd (Path.Posix.child (Path.Posix.child d outer) name) = .error .nameTooLong ↔
      '\x00' ∉ Path.Posix.child (Path.Posix.child d outer) name ∧
      Path.Posix.child (Path.Posix.child d outer) name ≠ [] ∧
        maxPath < (Utf8.encode (Path.Posix.child (Path.Posix.child d outer) name)).length := by
  refine find_nameTooLong_iff ?_
  obtain ⟨root, names⟩ := Path.child_same bare proper (Path.Posix.child d outer)
  obtain ⟨root', names'⟩ := Path.child_same bare' proper' d
  have still := isStill_of_proper proper
  have still' := isStill_of_proper proper'
  rw [walk_names bare proper (EndsIn.child bare _ proper), startOf_congr root,
    startOf_congr root', names, names', walk_append, walk_append,
    (standing_iff_names.mp standing).1]
  simp only [bind, Except.bind, walk, standing.directory, still', short', proper'.2.2,
    Bool.false_eq_true, if_false]
  cases fs.get? (folderOf cwd d ++ [outer]) with
  | none =>
    intro failed
    cases failed
  | some n =>
    cases n with
    | file content x =>
      intro failed
      cases failed
    | directory => simp [still, short, proper.2.2]

end Grandchild
end FileSystem
end ContractCheck
