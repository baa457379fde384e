import ContractCheck.Proofs.Layout.Mirror

/-! # Trees below one root

The directories below the contracts directory are mirrored below the temporary and the build
directory: the root is exchanged, and what stands behind it stays as it is (`trees_mirrored`).

To mirror a path is to exchange the name of the root where it first stands between two slashes, and
once more at the end of the path, first for one kind of slash and then for the other.  So a path
that ends with the name of the root is mirrored at both places, and with slashes of both kinds the
name must not stand at those of the other kind.
-/
namespace ContractCheck.Layout

variable {source target home : Text} {sep : Char}

/-! ## Replacing in a text -/

theorem replaceFirst_absent {old t : Text} (given : old ≠ []) (absent : ¬ old <:+: t) (new : Text) :
    replaceFirst old new t = t := by
  induction t with
  | nil => simp [replaceFirst, given]
  | cons c r ih =>
    have later : ¬ old <:+: r := fun inside => absent (inside.trans (List.suffix_cons c r).isInfix)
    rw [replaceFirst_cons fun first => absent first.isInfix, ih later]

/-- A text is replaced where it is found first. -/
theorem replaceFirst_found {old before : Text} (given : old ≠ [])
    (first : ∀ front, front ++ old <+: before ++ old → front = before) (new r : Text) :
    replaceFirst old new (before ++ (old ++ r)) = before ++ (new ++ r) := by
  induction before with
  | nil => exact replaceFirst_here given new r
  | cons c before ih =>
    have later : ∀ front, front ++ old <+: before ++ old → front = before := fun front found =>
      (List.cons.inj (first (c :: front) (List.cons_prefix_cons.mpr ⟨rfl, found⟩))).2
    have absent : ¬ old <+: c :: (before ++ (old ++ r)) := by
      intro found
      have whole : c :: before ++ old <+: c :: (before ++ (old ++ r)) := ⟨r, by simp⟩
      have shorter := List.prefix_of_prefix_length_le found whole (by simp; omega)
      exact List.cons_ne_nil c before (first [] shorter).symm
    rw [List.cons_append, replaceFirst_cons absent, ih later, List.cons_append]

theorem replaceLast_absent {old t : Text} (given : old ≠ []) (absent : ¬ old <:+ t)
    (unbroken : ¬ old ++ ['\n'] <:+ t) (new : Text) : replaceLast old new t = t := by
  induction t with
  | nil => simp [replaceLast, given]
  | cons c r ih =>
    have whole : c :: r ≠ old := fun same => absent (same ▸ List.suffix_refl _)
    have broken : c :: r ≠ old ++ ['\n'] := fun same => unbroken (same ▸ List.suffix_refl _)
    rw [replaceLast_cons whole broken, ih (fun found => absent (found.trans (List.suffix_cons c r)))
      fun found => unbroken (found.trans (List.suffix_cons c r))]

/-- A text is replaced at the end, unless it stands before a line feed there. -/
theorem replaceLast_found {old before : Text} (given : old ≠ [])
    (unbroken : ¬ old ++ ['\n'] <:+ before ++ old)
    (new : Text) : replaceLast old new (before ++ old) = before ++ new := by
  induction before with
  | nil => exact replaceLast_here given new
  | cons c before ih =>
    have whole : c :: (before ++ old) ≠ old := fun same => by
      have lengths := congrArg List.length same
      simp only [List.length_cons, List.length_append] at lengths
      omega
    have broken : c :: (before ++ old) ≠ old ++ ['\n'] :=
      fun same => unbroken (same ▸ List.suffix_refl _)
    rw [List.cons_append, replaceLast_cons whole broken,
      ih fun found => unbroken (found.trans (List.suffix_cons c (before ++ old))), List.cons_append]

/-- No text ends with a slash and a name both before a line feed and without one. -/
theorem unbroken (slash : isSlash sep = true) (before : Text) :
    ¬ (sep :: source) ++ ['\n'] <:+ before ++ sep :: source := by
  intro broken
  have other : sep ≠ '\n' := by
    rintro rfl
    cases slash
  have behind : source ++ ['\n'] <:+ before ++ sep :: source :=
    (List.suffix_cons sep _).trans broken
  have same :=
    (List.suffix_of_suffix_length_le behind (List.suffix_append before _) (by simp)).eq_of_length
      (by simp)
  have counts := congrArg (List.count sep) same
  simp [List.count_append, other.symm] at counts

/-! ## Roots -/

/-- Whether a name stands between two slashes behind a prefix for the first time. -/
def Rooted (sep : Char) (name home : Text) : Prop :=
  ∀ front, front ++ sep :: (name ++ [sep]) <+: home ++ sep :: (name ++ [sep]) → front = home

/-- A path in the directory of a name behind a prefix. -/
def inTree (sep : Char) (home name inner : Text) : Text := home ++ sep :: (name ++ sep :: inner)

/-- Whether a name stands between no two slashes of a kind, and behind none at the end of the
text. -/
structure Free (sep : Char) (name t : Text) : Prop where
  inner : ¬ sep :: (name ++ [sep]) <:+: t
  last : ¬ sep :: name <:+ t
  broken : ¬ sep :: (name ++ ['\n']) <:+ t

/-- Whether a map takes the root behind a prefix to another one there, and leaves what is below it
as it is.  A path that ends with the name of the root gets the other name there too.  What must hold
of a path and its image besides is for slashes of the other kind. -/
structure Parallel (map : Text → Text) (clear : Text → Text → Prop) (sep : Char)
    (source target home : Text) :
    Prop where
  root : clear (home ++ sep :: source) (home ++ sep :: target) →
    map (home ++ sep :: source) = home ++ sep :: target
  inside : ∀ inner, ¬ sep :: source <:+ inTree sep home target inner →
    ¬ sep :: (source ++ ['\n']) <:+ inTree sep home target inner →
    clear (inTree sep home source inner) (inTree sep home target inner) →
    map (inTree sep home source inner) = inTree sep home target inner
  last : ∀ inner before, inTree sep home target inner = before ++ sep :: source →
    clear (inTree sep home source inner) (before ++ sep :: target) →
    map (inTree sep home source inner) = before ++ sep :: target

/-- A name without slashes stands first behind a prefix that does not have it among its segments. -/
theorem Rooted.of_not_mem {name : Text} (plain : sep ∉ name)
    (absent : name ∉ Text.splitOn [sep] home) :
    Rooted sep name home := by
  rintro front ⟨rest, same⟩
  have pieces := congrArg (Text.splitOn [sep]) same
  rw [List.append_assoc, List.cons_append, List.append_assoc, List.singleton_append,
    Text.splitOn_append,
    Text.splitOn_append_sep plain, Text.splitOn_append, Text.splitOn_append_sep plain] at pieces
  have same_pieces : Text.splitOn [sep] front = Text.splitOn [sep] home := by
    rcases List.append_eq_append_iff.mp pieces with
      ⟨between, longer, parts⟩ | ⟨between, longer, parts⟩
    · cases between with
      | nil => rw [longer, List.append_nil]
      | cons x between => exact absurd (by rw [longer, (List.cons.inj parts).1]; simp) absent
    · have given := List.length_pos_of_ne_nil (Text.splitOn_ne_nil [sep] rest)
      have lengths := congrArg List.length parts
      simp only [Text.splitOn, Text.splitFrom, List.length_append, List.length_cons,
        List.length_nil] at lengths given
      obtain rfl := List.eq_nil_of_length_eq_zero (show between.length = 0 by omega)
      rw [longer, List.append_nil]
  have joined := congrArg (Text.join [sep]) same_pieces
  rwa [Text.join_splitOn (List.cons_ne_nil _ _), Text.join_splitOn (List.cons_ne_nil _ _)] at joined

theorem Free.of_not_mem {name t : Text} (absent : sep ∉ t) : Free sep name t where
  inner found := absent (found.subset List.mem_cons_self)
  last found := absent (found.subset List.mem_cons_self)
  broken found := absent (found.subset List.mem_cons_self)

/-! ## One kind of slash -/

theorem swapBetween_free {t : Text} (free : Free sep source t) (target : Text) :
    swapBetween sep source target t = t := by
  rw [swapBetween, List.cons_append, List.cons_append,
    replaceFirst_absent (List.cons_ne_nil _ _) free.inner,
    replaceLast_absent (List.cons_ne_nil _ _) free.last free.broken]

section Pass

variable (rooted : Rooted sep source home)
include rooted

/-- Behind the root no slash follows. -/
theorem swapBetween_root (slash : isSlash sep = true) (target : Text) :
    swapBetween sep source target (home ++ sep :: source) = home ++ sep :: target := by
  have absent : ¬ sep :: (source ++ [sep]) <:+: home ++ sep :: source := by
    rintro ⟨front, behind, same⟩
    have first : front ++ sep :: (source ++ [sep]) <+: home ++ sep :: (source ++ [sep]) :=
      ⟨behind ++ [sep], by rw [← List.append_assoc, same]; simp⟩
    obtain rfl := rooted front first
    have lengths := congrArg List.length same
    simp only [List.length_append, List.length_cons, List.length_nil] at lengths
    omega
  rw [swapBetween, List.cons_append, List.cons_append,
    replaceFirst_absent (List.cons_ne_nil _ _) absent,
    replaceLast_found (List.cons_ne_nil _ _) (unbroken slash home)]

theorem swapBetween_below (inner target : Text) :
    swapBetween sep source target (inTree sep home source inner)
    = replaceLast (sep :: source) (sep :: target) (inTree sep home target inner) := by
  have shape : ∀ name, inTree sep home name inner = home ++ (sep :: (name ++ [sep]) ++ inner) := by
    simp [inTree]
  rw [swapBetween, shape, shape, List.cons_append, List.cons_append,
    replaceFirst_found (List.cons_ne_nil _ _) rooted]

/-- One kind of slash is mirrored whatever the other one does. -/
theorem parallel_swapBetween (slash : isSlash sep = true) (target : Text) :
    Parallel (swapBetween sep source target) (fun _ _ => True) sep source target home where
  root _ := swapBetween_root rooted slash target
  inside inner other unbroken _ := by
    rw [swapBetween_below rooted, replaceLast_absent (List.cons_ne_nil _ _) other unbroken]
  last inner before ends _ := by
    rw [swapBetween_below rooted, ends,
      replaceLast_found (List.cons_ne_nil _ _) (unbroken slash before)]

end Pass

/-! ## Both kinds of slashes -/

theorem Parallel.mono {map map' : Text → Text} {clear clear' : Text → Text → Prop}
    (parallel : Parallel map clear sep source target home)
    (same : ∀ path image, clear' path image → clear path image ∧
      (map path = image → map' path = image)) :
    Parallel map' clear' sep source target home where
  root cleared := (same _ _ cleared).2 (parallel.root (same _ _ cleared).1)
  inside inner other unbroken cleared :=
    (same _ _ cleared).2 (parallel.inside inner other unbroken (same _ _ cleared).1)
  last inner before ends cleared :=
  (same _ _ cleared).2 (parallel.last inner before ends (same _ _ cleared).1)

theorem parallel_forward (rooted : Rooted '/' source home) (target : Text) :
    Parallel (swapSegment · source target) (fun _ image => Free '\\' source image) '/' source
      target home :=
  (parallel_swapBetween rooted rfl target).mono fun path image free => ⟨trivial, fun first => by
    rw [swapSegment, first, swapBetween_free free]⟩

theorem parallel_back (rooted : Rooted '\\' source home) (target : Text) :
    Parallel (swapSegment · source target) (fun path _ => Free '/' source path) '\\' source
      target home :=
  (parallel_swapBetween rooted rfl target).mono fun path image free => ⟨trivial, fun last => by
    rw [swapSegment, swapBetween_free free, last]⟩

/-- **The trees mirror each other.**  Below a root at which the name of the contracts directory
first stands between two slashes, the temporary and the build directory have the same tree, except
that the name is exchanged once more at the end of a path.  Such a root stands behind every prefix
that has no segment of the name. -/
theorem trees_mirrored (l : Layout) (home : Text) :
    (∀ sep, sep ∉ l.contracts → l.contracts ∉ Text.splitOn [sep] home →
      Rooted sep l.contracts home) ∧
    (Rooted '/' l.contracts home →
      Parallel l.toStagingDir (fun _ image => Free '\\' l.contracts image) '/' l.contracts
        l.temp home ∧
      Parallel l.toBuildDir (fun _ image => Free '\\' l.contracts image) '/' l.contracts
        l.build home) ∧
    (Rooted '\\' l.contracts home →
      Parallel l.toStagingDir (fun path _ => Free '/' l.contracts path) '\\' l.contracts
        l.temp home ∧
      Parallel l.toBuildDir (fun path _ => Free '/' l.contracts path) '\\' l.contracts
        l.build home) :=
  ⟨fun _ => Rooted.of_not_mem, fun rooted =>
    ⟨parallel_forward rooted l.temp, parallel_forward rooted l.build⟩,
    fun rooted => ⟨parallel_back rooted l.temp, parallel_back rooted l.build⟩⟩

/-- A directory between others may have the name of the root. -/
theorem nested_mirrored :
    Layout.toStagingDir {} "/p/contracts/a/contracts/b".toList = "/p/.temp/a/contracts/b".toList ∧
    Layout.toBuildDir {} "c:\\p\\contracts\\a".toList = "c:\\p\\build\\a".toList := by
  have forward := (trees_mirrored {} "/p".toList).1 '/' (by decide) (by decide +kernel)
  have back := (trees_mirrored {} "c:\\p".toList).1 '\\' (by decide) (by decide +kernel)
  constructor
  · exact ((trees_mirrored {} "/p".toList).2.1 forward).1.inside "a/contracts/b".toList
      (by decide +kernel)
      (by decide +kernel) (.of_not_mem (by decide +kernel))
  · exact ((trees_mirrored {} "c:\\p".toList).2.2 back).2.inside "a".toList (by decide +kernel)
      (by decide +kernel) (.of_not_mem (by decide +kernel))

/-- The name of the root is exchanged once more at the end of a path, and between backslashes; and
when it is two names, it may be found before the root. -/
theorem exchanged_again :
    ("contracts".toList ∉ Text.splitOn ['/'] "/p".toList ∧
      Layout.toStagingDir {} (inTree '/' "/p".toList "contracts".toList "lib/contracts".toList)
        ≠ inTree '/' "/p".toList ".temp".toList "lib/contracts".toList) ∧
    (Layout.toStagingDir {} (inTree '/' "/p".toList "contracts".toList "a\\contracts\\b".toList)
        ≠ inTree '/' "/p".toList ".temp".toList "a\\contracts\\b".toList) ∧
    ("a/b".toList ∉ Text.splitOn ['/'] "/a/b".toList ∧
      Layout.toStagingDir { contracts := "a/b".toList }
        (inTree '/' "/a/b".toList "a/b".toList "s".toList)
        ≠ inTree '/' "/a/b".toList ".temp".toList "s".toList) := by
  decide +kernel

end ContractCheck.Layout
