import ContractCheck.Layout
import ContractCheck.Proofs.Path.Names

/-! # Names of staged copies

A staged copy has the name of its source behind a marker.  So it has the extension of the source, if
the marker is no dot, which could make the name one without an extension.
-/
namespace ContractCheck.Layout

open ContractCheck.Path Text

variable {l : Layout} {m : Char} {path name : Text}

/-- A path is its name behind a front, which is empty or ends with a slash. -/
theorem splitPath_cases (path : Text) :
    (∀ c ∈ (splitPath path).2, isSlash c = false) ∧
      ∃ front, path = front ++ (splitPath path).2 ∧
      (front = [] ∨ ∃ before c, isSlash c = true ∧ front = before ++ [c]) := by
  rcases free_or_last isSlash path with free | ⟨before, c, after, slash, free, rfl⟩
  · have cut : splitPath path = ([], path) := by rw [splitPath, cutLastWhere_eq_none free]; rfl
    rw [cut]
    exact ⟨free, [], rfl, .inl rfl⟩
  · have cut : splitPath (before ++ c :: after) = (before, after) := by
      rw [splitPath, cutLastWhere_append slash free]
      rfl
    rw [cut]
    exact ⟨free, before ++ [c], by simp, .inr ⟨before, c, slash, rfl⟩⟩

theorem basename_stagedPath (marker : l.marker = [m]) (bare : m ≠ '/') (path : Text) :
    Posix.basename (l.stagedPath path) = m :: (splitPath path).2 := by
  obtain ⟨free, -⟩ := splitPath_cases path
  have plain : '/' ∉ m :: (splitPath path).2 :=
    List.not_mem_cons_of_ne_of_not_mem bare.symm fun mem => nomatch free _ mem
  rw [stagedPath, marker]
  exact basename_join _ plain

/-- Behind a character that is no dot, a name has the extension that it ends with. -/
theorem extension_eq_iff {ext : Text} (bare : '/' ∉ m :: name) (own : m ≠ '.')
    (single : '.' ∉ ext) :
    Posix.extension (m :: name) = '.' :: ext ↔ '.' :: ext <:+ name := by
  have whole : Posix.basename (m :: name) = m :: name := by
    rw [Posix.basename, Posix.cutName, cutLast_eq_none bare]
  rcases not_mem_or_last '.' name with none | ⟨stem, tail, last, rfl⟩
  · have nothing : Posix.extension (m :: name) = [] := by
      rw [Posix.extension, whole, cutLast_eq_none
        (List.not_mem_cons_of_ne_of_not_mem own.symm none)]
    rw [nothing]
    constructor
    · intro same
      cases same
    · rintro ⟨front, shape⟩
      refine absurd ?_ none
      rw [← shape]
      simp
  · have cut : Posix.extension (m :: (stem ++ '.' :: tail)) = '.' :: tail := by
      rw [Posix.extension, whole, ← List.cons_append, cutLast_append last]
      simp [own]
    rw [cut]
    constructor
    · intro same
      exact same ▸ List.suffix_append stem _
    · rintro ⟨front, shape⟩
      have once := cutLast_append last stem
      rw [← shape, cutLast_append single front] at once
      rw [(Prod.mk.inj (Option.some.inj once)).2]

/-- What a path ends with and has no slash, its name ends with. -/
theorem suffix_splitPath {tail : Text} (bare : ∀ c ∈ tail, isSlash c = false) :
    tail <:+ (splitPath path).2 ↔ tail <:+ path := by
  obtain ⟨-, front, shape, closed⟩ := splitPath_cases path
  generalize (splitPath path).2 = name at shape
  subst shape
  refine ⟨fun ends => ends.trans (List.suffix_append front name), fun ⟨before, same⟩ => ?_⟩
  rcases List.append_eq_append_iff.mp same with ⟨between, rfl, rfl⟩ | ⟨between, rfl, rfl⟩
  · rcases List.eq_nil_or_concat between with rfl | ⟨b, x, rfl⟩
    · exact List.suffix_refl _
    · -- The end of the front would be a slash in the tail.
      rw [List.concat_eq_append] at closed bare
      rcases closed with empty | ⟨d, c, slash, shape⟩
      · simp at empty
      · rw [← List.append_assoc] at shape
        obtain rfl := List.singleton_inj.mp (List.append_inj' shape rfl).2
        exact absurd ((bare x (by simp)).symm.trans slash) Bool.false_ne_true
  · exact List.suffix_append between tail

/-- **A staged copy has the extension of its source.** -/
theorem extension_stagedPath {ext : Text} (marker : l.marker = [m]) (bare : m ≠ '/') (own : m ≠ '.')
    (single : ∀ c ∈ ext, endsExtension c = false) :
    Posix.extension (Posix.basename (l.stagedPath path)) = '.' :: ext ↔ '.' :: ext <:+ path := by
  obtain ⟨free, -⟩ := splitPath_cases path
  have plain : '/' ∉ m :: (splitPath path).2 :=
    List.not_mem_cons_of_ne_of_not_mem bare.symm fun mem => nomatch free _ mem
  have dotless : '.' ∉ ext := fun mem => nomatch single _ mem
  have slashless : ∀ c ∈ '.' :: ext, isSlash c = false := List.forall_mem_cons.mpr
    ⟨rfl, fun c mem => (Bool.or_eq_false_iff.mp (single c mem)).1⟩
  rw [basename_stagedPath marker bare, extension_eq_iff plain own dotless,
    suffix_splitPath slashless]

end ContractCheck.Layout
