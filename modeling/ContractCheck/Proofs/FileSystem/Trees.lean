import ContractCheck.Proofs.FileSystem.Moving

/-! # Files in trees

In a tree nothing stands below a place that holds no directory (`IsTree.clear`).  So when a file is
moved or removed there, its entry is the only one that changes (`get?_relocate_clear`,
`get?_erase_clear`).  Making directories keeps a tree a tree (`IsTree.makeDirectories`).
-/
namespace ContractCheck.FileSystem

variable {fs : FileSystem} {cwd dir p q z : Place} {path : Text}

/-- Whether nothing stands below a place. -/
def Clear (entries : Place → Option Node) (p : Place) : Prop :=
  ∀ q, p <+: q → q ≠ p → entries q = none

theorem IsTree.clear (tree : fs.IsTree) (other : fs.get? p ≠ some .directory) :
    Clear fs.get? p := by
  intro q below apart
  cases there : fs.get? q with
  | none => rfl
  | some n => exact absurd (tree q n there p below apart.symm) other

/-- A place that holds no directory, and nothing below, is not above a directory. -/
theorem Clear.not_above {entries : Place → Option Node} (clear : Clear entries p)
    (other : entries p ≠ some .directory)
    (stands : entries dir = some .directory) : ¬ p <+: dir := by
  intro above
  by_cases same : dir = p
  · exact other (same ▸ stands)
  · cases (clear dir above same).symm.trans stands

/-! ## Moving and removing where nothing stands below -/

/-- Nothing is carried to where the target is not above. -/
theorem lookup_carried_apart (es : List (Place × Node)) (apart : ¬ q <+: z) :
    (es.map fun e => (moved p q e.1, e.2)).lookup z = none := by
  induction es with
  | nil => rfl
  | cons e es ih =>
    have other : (z == moved p q e.1) = false := by
      refine beq_eq_false_iff_ne.mpr fun same => apart ?_
      rw [same]
      exact List.prefix_append _ _
    rw [List.map_cons, List.lookup_cons, other]
    exact ih

/-- **A file that is moved is all that changes**: where nothing stands below its old and its new
place, every other place is as it was. -/
theorem get?_relocate_clear (clear : Clear fs.get? p) (clear' : Clear fs.get? q) (other : z ≠ p)
    (other' : z ≠ q) :
    (fs.relocate p q).get? z = fs.get? z := by
  by_cases root : z = []
  · rw [root]
    rfl
  by_cases beyond : q <+: z
  · obtain ⟨rest, rfl⟩ := beyond
    have further : p ++ rest ≠ p := fun same => other' (by simp [List.append_right_eq_self.mp same])
    have source := clear (p ++ rest) (List.prefix_append p rest) further
    have kept : (fs.entries.filter fun e => !p.isPrefixOf e.1 && !q.isPrefixOf e.1).lookup
        (q ++ rest) = none := by
      have inside : q.isPrefixOf (q ++ rest) = true :=
        List.isPrefixOf_iff_prefix.mpr (List.prefix_append q rest)
      rw [lookup_filter (fun k => !p.isPrefixOf k && !q.isPrefixOf k), inside]
      simp
    rw [clear' (q ++ rest) (List.prefix_append q rest) other']
    have nonempty : p ++ rest ≠ [] :=
      fun none => further (by rw [none, (List.append_eq_nil_iff.mp none).1])
    rw [get?, entryAt, if_neg nonempty] at source
    simp only [get?, entryAt, relocate, root, if_false, List.lookup_append, kept, Option.none_or]
    rw [lookup_carried]
    exact source
  · by_cases below : p <+: z
    · have gone : (fs.entries.filter fun e => !p.isPrefixOf e.1 && !q.isPrefixOf e.1).lookup
          z = none := by
        have inside : p.isPrefixOf z = true := List.isPrefixOf_iff_prefix.mpr below
        rw [lookup_filter (fun k => !p.isPrefixOf k && !q.isPrefixOf k), inside]
        simp
      rw [clear z below other]
      simp only [get?, entryAt, relocate, root, if_false, List.lookup_append, gone, Option.none_or]
      exact lookup_carried_apart _ beyond
    · exact get?_relocate_apart below beyond

/-- A file that is removed is all that goes. -/
theorem get?_erase_clear (clear : Clear fs.get? p) (other : z ≠ p) :
    (fs.erase p).get? z = fs.get? z := by
  by_cases root : z = []
  · rw [root]
    rfl
  rw [get?_erase fs p root]
  split
  · next below => exact (clear z (List.isPrefixOf_iff_prefix.mp below) other).symm
  · rfl

/-- Nothing is denied where no directory stands and nothing is below. -/
theorem not_denied_below (clear : Clear fs.get? p) (free : fs.get? p ≠ some .directory)
    (mem : dir ∈ fs.denied) :
    p.isPrefixOf dir = false := by
  refine Bool.eq_false_iff.mpr fun below => ?_
  exact clear.not_above free (directory_of_denied mem) (List.isPrefixOf_iff_prefix.mp below)

/-- A file that is moved denies and allows nothing. -/
theorem denied_relocate (clear : Clear fs.get? p) (free : fs.get? p ≠ some .directory)
    (clear' : Clear fs.get? q)
    (free' : fs.get? q ≠ some .directory) : (fs.relocate p q).denied = fs.denied := by
  have kept : (fs.denied.filter fun d => !p.isPrefixOf d && !q.isPrefixOf d) = fs.denied :=
    List.filter_eq_self.mpr fun d mem => by
      rw [not_denied_below clear free mem, not_denied_below clear' free' mem]
      rfl
  have carried : (fs.denied.filter fun d => p.isPrefixOf d && d != []) = [] :=
    List.filter_eq_nil_iff.mpr fun d mem => by
      rw [not_denied_below clear free mem]
      exact Bool.false_ne_true
  show _ ++ _ = _
  rw [kept, carried, List.map_nil, List.append_nil]

/-- A file that is removed denies and allows nothing. -/
theorem denied_erase (clear : Clear fs.get? p) (free : fs.get? p ≠ some .directory) :
    (fs.erase p).denied = fs.denied :=
  List.filter_eq_self.mpr fun d mem => by
    rw [not_denied_below clear free mem]
    rfl

/-! ## Making directories -/

theorem prefix_dropLast (front : dir <+: p) (other : dir ≠ p) : dir <+: p.dropLast := by
  obtain ⟨rest, rfl⟩ := front
  have given : rest ≠ [] := fun none => other (by rw [none, List.append_nil])
  rw [List.dropLast_append_of_ne_nil given]
  exact List.prefix_append _ _

/-- A directory that is made in one that stands keeps a tree a tree. -/
theorem IsTree.set_directory (tree : fs.IsTree) (stands : fs.get? p.dropLast = some .directory)
    (free : fs.get? p = none) :
    (fs.set p .directory).IsTree := by
  have below : p ≠ [] := by
    rintro rfl
    cases free
  intro q n there dir front other
  have apart : dir ≠ p := by
    rintro rfl
    rw [get?_set_of_ne fs _ other.symm] at there
    cases (tree q n there dir front other).symm.trans free
  rw [get?_set_of_ne fs _ apart]
  by_cases here : q = p
  · subst here
    have above := prefix_dropLast front other
    by_cases last : dir = q.dropLast
    · rw [last, stands]
    · exact tree _ _ stands dir above last
  · rw [get?_set_of_ne fs _ here] at there
    exact tree q n there dir front other

theorem IsTree.makeAlong (tree : fs.IsTree) (stands : fs.get? dir = some .directory)
    (names : List Text) :
    (fs.makeAlong dir names).1.IsTree := by
  induction names generalizing fs dir with
  | nil => exact tree
  | cons name rest ih =>
    simp only [FileSystem.makeAlong]
    split
    · exact ih tree stands
    · split
      · exact ih tree (tree.dropLast stands)
      · split
        · exact tree
        · split
          · next there => exact ih tree there
          · exact tree
          · next free =>
            split
            · exact tree
            · refine ih (tree.set_directory ?_ free) (get?_set_self fs _ (by simp))
              rwa [List.dropLast_concat]

/-- **Directories that are made keep a tree a tree.** -/
theorem IsTree.makeDirectories (tree : fs.IsTree)
    (start : fs.get? (startOf cwd path) = some .directory) :
    (fs.makeDirectories cwd path).1.IsTree := by
  unfold FileSystem.makeDirectories
  split
  · exact tree
  · split
    · exact tree
    · exact tree.makeAlong start _

end ContractCheck.FileSystem
