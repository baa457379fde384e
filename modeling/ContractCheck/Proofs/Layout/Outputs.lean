import ContractCheck.Proofs.Layout.Mirror
import ContractCheck.Proofs.Path.Named

/-! # Where outputs are

The outputs of a source lie beside its staged copy, under the name of the copy with another
extension, and are promoted into the mirrored build directory, under the name of the source with
that extension (`Original.outputs`).
-/
namespace ContractCheck.Layout

open ContractCheck.Path

variable {directory stem ext : Text} {lead names : List Text}

/-- The extension of a name is what stands behind its last dot. -/
theorem replaceExtension_append {front e : Text} (given : e ≠ [])
    (plain : ∀ c ∈ e, endsExtension c = false) (ext : Text) :
    replaceExtension (front ++ '.' :: e) ext = front ++ ext := by
  have shape : (front ++ '.' :: e).reverse = e.reverse ++ '.' :: front.reverse := by simp
  have free : ∀ c ∈ e.reverse, (!endsExtension c) = true :=
    fun c mem => by rw [plain c (List.mem_reverse.mp mem)]; rfl
  have tail : ((front ++ '.' :: e).reverse.takeWhile fun c => !endsExtension c) = e.reverse := by
    rw [shape, List.takeWhile_append_of_pos free]
    simp [endsExtension]
  have stem : ((front ++ '.' :: e).reverse.dropWhile fun c => !endsExtension c) =
      '.' :: front.reverse := by
    rw [shape, List.dropWhile_append_of_pos free]
    simp [endsExtension]
  have some : e.isEmpty = false := by simpa using given
  rw [replaceExtension, tail, stem, List.reverse_reverse, some]
  show List.reverse (List.reverse front) ++ ext = front ++ ext
  rw [List.reverse_reverse]

/-! ## Mirrored directories -/

theorem length_swapInner (source target : Text) (segs : List Text) :
    (swapInner source target segs).length = segs.length := by
  fun_induction swapInner source target segs with
  | case1 => rfl
  | case2 x y r other ih => rw [List.length_cons, ih]; rfl
  | case3 => rfl

theorem length_mirror (source target : Text) (segs : List Text) :
    (mirror source target segs).length = segs.length := by
  have last : ∀ segs : List Text, (swapLast source target segs).length = segs.length := by
    intro segs
    fun_induction swapLast source target segs with
    | case1 => rfl
    | case2 => rfl
    | case3 x y r ih => rw [List.length_cons, ih]; rfl
  rw [mirror, last, length_swapInner]

/-- What stands before the names of a row stays. -/
theorem mirror_lead {source : Text} (given : source ≠ []) (target : Text) (row : Row lead names) :
    mirror source target (lead ++ names) = lead ++ mirror source target names := by
  rcases row.lead with rfl | rfl
  · rfl
  · exact mirror_cons given.symm row.given

/-- **A row of names is mirrored to one**, of the same length. -/
theorem mirror_row {source target : Text} (row : Row lead names) (proper : Proper target)
    (bare : '/' ∉ target) :
    Row lead (mirror source target names) where
  lead := row.lead
  given := mirror_ne_nil row.given
  proper _ mem := (mem_mirror mem).elim (fun same => same ▸ proper) (row.proper _)
  plain := plain_mirror row.plain bare

theorem swapSegment_row {source target : Text} (row : Row lead names) (given : source ≠ [])
    (bare : '/' ∉ source) (swapped : '/' ∉ target) (forward : '\\' ∉ target)
    (forward' : '\\' ∉ slashed (lead ++ names)) (inLine : '\n' ∉ slashed (lead ++ names)) :
    swapSegment (slashed (lead ++ names)) source target =
      slashed (lead ++ Layout.mirror source target names) := by
  have whole := mirror_lead given target row
  rw [← whole]
  refine swapSegment_slashed bare row.whole swapped (fun x last feed => ?_)
    (not_mem_slashed (by decide) fun s mem => ?_)
  · exact inLine (mem_slashed (List.mem_of_getLast? last) (List.mem_of_getLast? feed))
  · rcases mem_mirror mem with rfl | mem
    · exact forward
    · exact fun inside => forward' (mem_slashed mem inside)

/-! ## Outputs -/

/-- The extensions of sources and of what is made of them. -/
def extensions : List Text :=
  [".sol".toList, ".tsol".toList, bytecodeExt, interfaceExt, transportExt, codeExt]

theorem mem_extensions (source : ext ∈ [".sol".toList, ".tsol".toList]) : ext ∈ extensions :=
  List.mem_append_left [bytecodeExt, interfaceExt, transportExt, codeExt] source

/-- The path of an output beside the staged copy of a source. -/
def beside (directory stem ext : Text) : Text :=
  Posix.join (toStagingDir {} directory) ('~' :: (stem ++ ext))

/-- The path of an output in the build directory. -/
def promoted (directory stem ext : Text) : Text :=
  Posix.join (toBuildDir {} directory) (stem ++ ext)

/-- The path of a source, absolute and resolved, in a directory that is no root. -/
structure Original (directory stem ext : Text) : Prop where
  absolute : Posix.isAbsolute (directory ++ '/' :: (stem ++ ext)) = true
  resolved : Posix.normalise (directory ++ '/' :: (stem ++ ext)) = directory ++ '/' :: (stem ++ ext)
  below : directory ≠ [] ∧ directory ≠ ['/']
  bare : '/' ∉ stem
  forward : '\\' ∉ directory ++ '/' :: stem
  inLine : '\n' ∉ directory ++ '/' :: stem
  source : ext ∈ [".sol".toList, ".tsol".toList]

/-- The outputs of a source as rows of names, in a staging directory and in a build directory. -/
structure Outputs (directory stem ext : Text) (lead here there : List Text) : Prop where
  stagingRow : Row lead here
  buildRow : Row lead there
  level : there.length = here.length
  staging : toStagingDir {} directory = slashed (lead ++ here)
  building : toBuildDir {} directory = slashed (lead ++ there)
  copy : stagedPath {} (directory ++ '/' :: (stem ++ ext)) = beside directory stem ext
  beside_eq : ∀ e ∈ extensions, beside directory stem e =
    slashed (lead ++ (here ++ ['~' :: (stem ++ e)]))
  promoted_eq : ∀ e ∈ extensions, promoted directory stem e =
    slashed (lead ++ (there ++ [stem ++ e]))
  besideRow : ∀ e ∈ extensions, Row lead (here ++ ['~' :: (stem ++ e)])
  promotedRow : ∀ e ∈ extensions, Row lead (there ++ [stem ++ e])
  output : ∀ e ∈ extensions,
    replaceExtension (stagedPath {} (directory ++ '/' :: (stem ++ ext))) e = beside directory stem e
  target : ∀ e ∈ extensions, buildPath {} (directory ++ '/' :: (stem ++ ext)) e =
    promoted directory stem e
  transport : replaceExtension (promoted directory stem bytecodeExt) transportExt =
    promoted directory stem transportExt

theorem extensions_shape : ∀ e ∈ extensions, ∃ c e', e = '.' :: c :: e' ∧
    c ≠ '.' ∧ '/' ∉ e ∧ ∀ x ∈ e, isSlash x = false := by
  intro e mem
  simp only [extensions, List.mem_cons, List.not_mem_nil, or_false] at mem
  rcases mem with rfl | rfl | rfl | rfl | rfl | rfl <;> exact ⟨_, _, rfl, by decide,
    by decide, by decide⟩

/-- **The outputs of a source are rows of names.** -/
theorem Original.outputs (own : Original directory stem ext) :
    ∃ lead here there, Outputs directory stem ext lead here there := by
  have listed := mem_extensions own.source
  have bare : ∀ e ∈ extensions, '/' ∉ stem ++ e := by
    intro e mem inside
    obtain ⟨c, e', rfl, -, plain, -⟩ := extensions_shape e mem
    exact (List.mem_append.mp inside).elim own.bare plain
  have marked : ∀ e ∈ extensions, '/' ∉ '~' :: (stem ++ e) := fun e mem =>
    List.not_mem_cons_of_ne_of_not_mem (by decide) (bare e mem)
  have proper : ∀ e ∈ extensions, Proper (stem ++ e) := by
    intro e mem
    obtain ⟨c, e', rfl, other, -⟩ := extensions_shape e mem
    exact proper_of_mem (c := c) (by simp) other
  have proper' : ∀ e, Proper ('~' :: (stem ++ e)) :=
    fun e => proper_of_mem List.mem_cons_self (by decide)
  obtain ⟨lead, names, row, rfl, -⟩ :=
    row_of_directory own.absolute own.resolved own.below (bare ext listed)
  have forward : '\\' ∉ slashed (lead ++ names) :=
    fun mem => own.forward (List.mem_append_left _ mem)
  have inLine : '\n' ∉ slashed (lead ++ names) := fun mem => own.inLine (List.mem_append_left _ mem)
  have here : Row lead (mirror (contracts {}) (temp {}) names) :=
    mirror_row row (by decide) (by decide)
  have there : Row lead (mirror (contracts {}) (build {}) names) :=
    mirror_row row (by decide) (by decide)
  have staging : toStagingDir {} (slashed (lead ++ names)) = _ :=
    swapSegment_row row (by decide) (by decide) (by decide) (by decide) forward inLine
  have building : toBuildDir {} (slashed (lead ++ names)) = _ :=
    swapSegment_row row (by decide) (by decide) (by decide) (by decide) forward inLine
  have plain : ∀ c ∈ stem ++ ext, isSlash c = false := by
    intro c mem
    obtain ⟨-, -, -, -, -, free⟩ := extensions_shape ext listed
    rcases List.mem_append.mp mem with mem | mem
    · refine bare_of_not_mem own.bare (fun back => own.forward ?_) c mem
      exact List.mem_append_right _ (List.mem_cons_of_mem _ back)
    · exact free c mem
  have cut := @splitPath_append (slashed (lead ++ names)) _ plain
  have copy : stagedPath {} (slashed (lead ++ names) ++ '/' :: (stem ++ ext)) =
    beside (slashed (lead ++ names)) stem ext := by
    rw [stagedPath, cut]
    rfl
  have beside_eq : ∀ e ∈ extensions, beside (slashed (lead ++ names)) stem e = _ := fun e mem => by
    rw [beside, staging, here.join (marked e mem)]
  have promoted_eq : ∀ e ∈ extensions, promoted (slashed (lead ++ names)) stem e = _ :=
    fun e mem => by
    rw [promoted, building, there.join (bare e mem)]
  -- A name with one of these extensions is given another one.
  have replaced : ∀ e ∈ [".sol".toList, ".tsol".toList, bytecodeExt], ∀ front e',
      replaceExtension (front ++ e) e' = front ++ e' := by
    intro e mem front e'
    simp only [List.mem_cons, List.not_mem_nil, or_false] at mem
    rcases mem with rfl | rfl | rfl <;> exact replaceExtension_append (by decide) (by decide) e'
  have source : ext ∈ [".sol".toList, ".tsol".toList, bytecodeExt] :=
    List.mem_append_left [bytecodeExt] own.source
  have bytecode : bytecodeExt ∈ extensions := by decide
  have transport : transportExt ∈ extensions := by decide
  refine ⟨lead, _, _, here, there,
    by rw [length_mirror, length_mirror], staging, building, copy, beside_eq, promoted_eq,
    fun e mem => here.concat (proper' e) (marked e mem), fun e mem =>
      there.concat (proper e mem) (bare e mem),
    fun e mem => ?_, fun e _ => ?_, ?_⟩
  · have front :=
      replaced ext source (slashed (lead ++ mirror (contracts {}) (temp {}) names) ++
        '/' :: '~' :: stem) e
    rw [copy, beside_eq ext listed, beside_eq e mem, Row.slashed_concat, Row.slashed_concat]
    simpa using front
  · rw [buildPath, cut]
    dsimp only
    rw [replaced ext source stem e]
    rfl
  · have front := replaced bytecodeExt (by decide)
      (slashed (lead ++ mirror (contracts {}) (build {}) names) ++ '/' :: stem)
      transportExt
    rw [promoted_eq _ bytecode, promoted_eq _ transport, Row.slashed_concat, Row.slashed_concat]
    simpa using front

end ContractCheck.Layout
