import ContractCheck.Proofs.Layout.Naming
import ContractCheck.Proofs.Layout.Outputs
import ContractCheck.Proofs.Path.Inside

/-! # Stems of sources

Whatever the directories of a layout are called, the outputs of a source share its stem: beside the
staged copy they have the marker in front of it, in the build directory they have not
(`stem_of_source`).  So no two of them have one place.
-/
namespace ContractCheck.Layout

open ContractCheck.Path

variable {l : Layout} {path dir front e ext stem : Text}

/-- The directory that the staged copy of a source is in. -/
def stagingOf (l : Layout) (path : Text) : Text := l.toStagingDir (splitPath path).1

/-- The directory that the outputs of a source are promoted to. -/
def buildingOf (l : Layout) (path : Text) : Text := l.toBuildDir (splitPath path).1

/-- With one of the extensions a name is no `.` or `..`. -/
theorem proper_append (front : Text) (listed : e ∈ extensions) : Proper (front ++ e) := by
  obtain ⟨c, e', rfl, other, -⟩ := extensions_shape e listed
  exact proper_of_mem (c := c) (by simp) other

/-- None of the extensions ends in another one. -/
theorem extensions_apart : ∀ e ∈ extensions, ∀ e' ∈ extensions, e <:+ e' → e = e' := by
  decide +kernel

/-- No name of an output with the marker in front of it is one without. -/
theorem marked_ne {marker e' : Text} (given : marker ≠ []) (listed : e ∈ extensions)
    (listed' : e' ∈ extensions) :
    marker ++ stem ++ e ≠ stem ++ e' := by
  intro same
  have ends : e <:+ stem ++ e' := same ▸ List.suffix_append _ _
  obtain rfl : e = e' := by
    rcases List.suffix_or_suffix_of_suffix ends (List.suffix_append stem e') with inside | inside
    · exact extensions_apart e listed e' listed' inside
    · exact (extensions_apart e' listed' e listed inside).symm
  have lengths := congrArg List.length (List.append_cancel_right same)
  rw [List.length_append] at lengths
  exact given (List.length_eq_zero_iff.mp (by omega))

/-- The extension of a name in a directory is replaced in the name. -/
theorem replaceExtension_join (bare : '/' ∉ front) (given : e ≠ [])
    (plain : ∀ c ∈ e, endsExtension c = false)
    (bare' : '/' ∉ ext) : replaceExtension (Posix.join dir (front ++ '.' :: e)) ext =
    Posix.join dir (front ++ ext) := by
  have slash : '/' ∉ e := fun mem => by cases plain _ mem
  have whole : '/' ∉ front ++ '.' :: e := by simp [bare, slash]
  have other : '/' ∉ front ++ ext := by simp [bare, bare']
  rcases join_cases dir with
    ⟨-, join⟩ | ⟨before, -, join⟩ | ⟨-, -, join⟩ <;> rw [join _ whole, join _ other]
  · exact replaceExtension_append given plain ext
  · rw [← List.cons_append, ← List.append_assoc, replaceExtension_append given plain,
      List.append_assoc, List.cons_append]
  · rw [← List.cons_append, ← List.append_assoc, replaceExtension_append given plain,
      List.append_assoc, List.cons_append]

/-- A source is its stem and its extension, and so are its outputs, beside the staged copy and in
the build directory. -/
structure Stem (l : Layout) (path ext stem : Text) : Prop where
  marker : l.marker ≠ []
  source : ext ∈ [".sol".toList, ".tsol".toList]
  staged : InDirectory (l.stagedPath path) (l.stagingOf path) (l.marker ++ stem ++ ext)
  output : ∀ e ∈ extensions, InDirectory (replaceExtension (l.stagedPath path) e) (l.stagingOf path)
    (l.marker ++ stem ++ e)
  target : ∀ e ∈ extensions, InDirectory (l.buildPath path e) (l.buildingOf path) (stem ++ e)
  transport : InDirectory (replaceExtension (l.buildPath path bytecodeExt) transportExt)
    (l.buildingOf path) (stem ++ transportExt)

/-- **Every source has a stem.** -/
theorem stem_of_source (marker : l.marker ≠ []) (marked : '/' ∉ l.marker)
    (source : ext ∈ [".sol".toList, ".tsol".toList])
    (ends : ext <:+ path) : ∃ stem, Stem l path ext stem := by
  have listed := mem_extensions source
  obtain ⟨-, -, -, -, -, plain⟩ := extensions_shape ext listed
  obtain ⟨stem, name⟩ := (suffix_splitPath plain).mpr ends
  have free := (splitPath_cases path).1
  rw [← name] at free
  have bare : '/' ∉ stem := fun mem => by cases free _ (List.mem_append_left _ mem)
  have bare' : '/' ∉ l.marker ++ stem := fun mem => (List.mem_append.mp mem).elim marked bare
  have slash : ∀ e ∈ extensions, '/' ∉ e := fun e mem => by
    obtain ⟨-, -, -, -, slash, -⟩ := extensions_shape e mem
    exact slash
  have inside {front : Text} (free : '/' ∉ front) (dir : Text) : ∀ e ∈ extensions,
      InDirectory (Posix.join dir (front ++ e)) dir (front ++ e) := fun e mem =>
    ⟨rfl, fun within => (List.mem_append.mp within).elim free (slash e mem),
      proper_append front mem⟩
  -- A name with one of these extensions is given another one.
  have replaced : ∀ ext ∈ [".sol".toList, ".tsol".toList, bytecodeExt], ∀ e ∈ extensions,
      ∀ front dir, '/' ∉ front →
      replaceExtension (Posix.join dir (front ++ ext)) e = Posix.join dir (front ++ e) := by
    intro ext mem e listed front dir bare
    simp only [List.mem_cons, List.not_mem_nil, or_false] at mem
    rcases mem with rfl | rfl | rfl <;> exact replaceExtension_join bare (by decide) (by decide)
      (slash e listed)
  have cut : splitPath path = ((splitPath path).1, stem ++ ext) := Prod.ext rfl name.symm
  have staged : l.stagedPath path = Posix.join (l.stagingOf path) (l.marker ++ stem ++ ext) := by
    rw [stagedPath, cut, List.append_assoc]
    rfl
  have target (e : Text) : l.buildPath path e = Posix.join (l.buildingOf path) (stem ++ e) := by
    have own : replaceExtension (stem ++ ext) e = stem ++ e := by
      simp only [List.mem_cons, List.not_mem_nil, or_false] at source
      rcases source with rfl | rfl <;> exact replaceExtension_append (by decide) (by decide) e
    rw [buildPath, cut]
    dsimp only
    rw [own]
    rfl
  refine ⟨stem, marker, source, ?_, fun e mem => ?_, fun e mem => ?_, ?_⟩
  · rw [staged]
    exact inside bare' _ ext listed
  · rw [staged, replaced ext (List.mem_append_left [bytecodeExt] source) e mem
      (l.marker ++ stem) _ bare']
    exact inside bare' _ e mem
  · rw [target]
    exact inside bare _ e mem
  · rw [target, replaced bytecodeExt (by decide) transportExt (by decide) stem _ bare]
    exact inside bare _ transportExt (by decide)

end ContractCheck.Layout
