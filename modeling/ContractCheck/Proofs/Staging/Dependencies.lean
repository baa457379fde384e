import ContractCheck.Staging
import ContractCheck.Proofs.Import.Rewriting
import ContractCheck.Proofs.Text.Separators

/-! # Imports that go through dependencies

Staging leaves the imports alone that go through `node_modules`, and those that go through the
dependency directory of the settings if that directory is honourable (`spares_iff`).  The setting is
compared with single segments of what stands before the name at which a path is cut.  So a setting
of several segments, or with a slash at its end, is never found; and one with a dot is not found in
a path that has no dot behind it.
-/
namespace ContractCheck

namespace Import

open Layout (isSlash)

variable {marker directory : Text} {slash : Char}

/-! ## Segments -/

theorem segments_cons_slash (slashes : isSlash slash = true) (r : Text) :
    segments (slash :: r) = [] :: segments r :=
  if_pos slashes

theorem segments_cons_other {c : Char} (other : isSlash c = false) (r : Text) :
    segments (c :: r) = Text.consFirst c (segments r) := if_neg (Bool.eq_false_iff.mp other)

theorem segments_ne_nil (t : Text) : segments t ≠ [] := by
  induction t with
  | nil => exact List.cons_ne_nil _ _
  | cons c r ih =>
    cases own : isSlash c with
    | true =>
      rw [segments_cons_slash own]
      exact List.cons_ne_nil _ _
    | false =>
      obtain ⟨first, rest, split⟩ := List.exists_cons_of_ne_nil ih
      rw [segments_cons_other own, split]
      exact List.cons_ne_nil _ _

/-- A text is split at a slash. -/
theorem segments_append (slashes : isSlash slash = true) (front behind : Text) :
    segments (front ++ slash :: behind) = segments front ++ segments behind := by
  induction front with
  | nil => exact segments_cons_slash slashes behind
  | cons c front ih =>
    rw [List.cons_append]
    cases own : isSlash c with
    | true => rw [segments_cons_slash own, segments_cons_slash own, ih, List.cons_append]
    | false =>
      rw [segments_cons_other own, segments_cons_other own, ih,
        Text.consFirst_append c (segments_ne_nil front)]

/-- No segment has a slash in it. -/
theorem slashless_of_mem_segments {t segment : Text} (mem : segment ∈ segments t) :
    ∀ c ∈ segment, isSlash c = false := by
  induction t generalizing segment with
  | nil =>
    obtain rfl := List.mem_singleton.mp mem
    exact nofun
  | cons c r ih =>
    cases own : isSlash c with
    | true =>
      rw [segments_cons_slash own] at mem
      rcases List.mem_cons.mp mem with rfl | mem
      · exact nofun
      · exact ih mem
    | false =>
      obtain ⟨first, rest, split⟩ := List.exists_cons_of_ne_nil (segments_ne_nil r)
      rw [segments_cons_other own, split] at mem
      rw [split] at ih
      rcases List.mem_cons.mp mem with rfl | mem
      · exact List.forall_mem_cons.mpr ⟨own, ih List.mem_cons_self⟩
      · exact ih (List.mem_cons_of_mem _ mem)

theorem segments_slashless {t : Text} (free : ∀ c ∈ t, isSlash c = false) : segments t = [t] := by
  induction t with
  | nil => rfl
  | cons c r ih =>
    obtain ⟨here, behind⟩ := List.forall_mem_cons.mp free
    rw [segments_cons_other here, ih behind, Text.consFirst]

/-- A name behind a directory is one of its segments. -/
theorem mem_segments_append {front name : Text} (closed : Closed front)
    (free : ∀ c ∈ name, isSlash c = false) :
    name ∈ segments (front ++ name) := by
  rcases closed with rfl | ⟨before, c, slashes, rfl⟩
  · rw [List.nil_append, segments_slashless free]
    exact List.mem_singleton_self name
  · rw [List.append_assoc, List.singleton_append, segments_append slashes, segments_slashless free]
    exact List.mem_append_right _ (List.mem_singleton_self name)

/-! ## Through a directory -/

/-- Whether a path starts with a directory and a slash, which may be the last character of the
directory. -/
def Through (slash : Char) (directory path : Text) : Prop :=
  directory ++ [slash] <+: path ∨ directory.getLast? = some slash ∧ directory <+: path

/-- Whether a path has a directory among its segments, and a dot behind it if there is one in front
of it. -/
def Within (directory path : Text) : Prop :=
  ∃ front slash rest, isSlash slash = true ∧ Closed front ∧
    path = front ++ directory ++ slash :: rest ∧
    ('.' ∈ front → '.' ∈ rest)

/-- A directory that is found in the paths through it: it is a single segment, or has `node_modules`
among its segments; and if a path can be cut at a name of its own, that name is spared. -/
def Honourable (marker directory : Text) : Prop :=
  Unquoted directory →
    ((∀ c ∈ directory, isSlash c = false) ∨ nodeModules ∈ segments directory) ∧
      ∀ front stem tail, Cut directory front stem tail →
        nodeModules ∈ segments front ∨ stem = [] ∨ Text.startsWith stem marker = true

theorem Through.within {path : Text} (slashes : isSlash slash = true)
    (through : Through slash nodeModules path) :
    Within nodeModules path := by
  rcases through with ⟨rest, rfl⟩ | ⟨last, -⟩
  · exact ⟨[], slash, rest, slashes, .inl rfl, by simp, nofun⟩
  · obtain rfl : 's' = slash := Option.some.inj last
    cases slashes

theorem Through.split {path : Text} (through : Through slash directory path) :
    ∃ front rest, path = front ++ slash :: rest ∧
      (front = directory ∨ directory = front ++ [slash]) := by
  rcases through with ⟨rest, rfl⟩ | ⟨last, rest, rfl⟩
  · exact ⟨directory, rest, by simp, .inl rfl⟩
  · obtain ⟨front, rfl⟩ := List.getLast?_eq_some_iff.mp last
    exact ⟨front, rest, by simp, .inr rfl⟩

/-- Of a path that goes through a directory, either all of that is in front of the place where it is
cut, or it is cut where the directory is. -/
theorem Through.cut {path front stem tail : Text} (slashes : isSlash slash = true)
    (through : Through slash directory path) (cut : Cut path front stem tail) :
    (∃ before more, front = before ++ slash :: more ∧
      (before = directory ∨ directory = before ++ [slash])) ∨
      ∃ tail', Cut directory front stem tail' := by
  obtain ⟨before, rest, split, same⟩ := through.split
  by_cases dotless : '.' ∉ rest
  · -- The last dot is in the directory, so the directory is cut there too.
    obtain ⟨more, whole, plain⟩ : ∃ more, path = directory ++ more ∧ '.' ∉ more := by
      rcases same with rfl | rfl
      · exact ⟨slash :: rest, split,
          List.not_mem_cons_of_ne_of_not_mem (by rintro rfl; cases slashes) dotless⟩
      · exact ⟨rest, by rw [split]; simp, dotless⟩
    have dot : '.' ∈ directory := (List.mem_append.mp (whole ▸ cut.dot)).resolve_right plain
    obtain ⟨front', stem', tail', there⟩ := exists_cut dot
    obtain ⟨rfl, rfl, -⟩ := cut.unique (whole ▸ there.append plain)
    exact .inr ⟨tail', there⟩
  · obtain ⟨more, inside, -⟩ := cut.directory_of_slash slashes split (not_not.mp dotless)
    exact .inl ⟨before, more, inside, same⟩

end Import

namespace Staging

open Import
open Layout (isSlash)

variable {layout : Layout} {validation : ValidationSettings} {slash : Char}

/-- The dependencies of the settings are `node_modules` and the directory that is set. -/
theorem isDependency_iff (named : validation.dependencies ≠ []) {directory : Text} :
    isDependency directory (ofSettings layout validation).dependencies = true ↔
      nodeModules ∈ segments directory ∨ validation.dependencies ∈ segments directory := by
  have given : validation.dependencies.isEmpty = false := by simpa using named
  by_cases known : validation.dependencies = nodeModules
  · simp [isDependency, ofSettings, defaultDependencies, known]
  · simp [isDependency, ofSettings, defaultDependencies, known, given]

/-- Whether the staged copies of all sources have their statements with such paths as they are in
the sources, and differ from the sources only in paths of statements. -/
def Spares (staging : Staging) (through : Text → Prop) : Prop :=
  ∀ source : Source, Rewritten (fun s s' => ∃ path, s' = { s with path } ∧
    (through s.path → path = s.path))
    source.content (staging.stagedContent source)

/-- Statements are spared if the names at which their paths are cut are. -/
theorem spares_iff_cuts {staging : Staging} {through : Text → Prop} :
    staging.Spares through ↔ ∀ path, Unquoted path → through path → ∀ directory stem tail,
      Cut path directory stem tail →
      Spared staging.layout.marker staging.dependencies directory stem := by
  constructor
  · intro spares path unquoted goes directory stem tail cut
    have sound : (importing path).Sound :=
      importing_sound (by rintro rfl; exact nomatch cut.dot) unquoted
    have markable : (importing path).Markable := importing_markable cut.dot
    have rewritten := spares ⟨[], (importing path).text⟩
    rw [stagedContent, ← List.append_nil (importing path).text, rewritten_text sound markable,
      mark_text sound markable] at rewritten
    obtain ⟨-, rest, whole, ⟨_, rfl, kept⟩, later⟩ := rewritten
    obtain rfl := rewritten_nil.mp later
    rw [kept goes] at whole
    refine (markedPath_eq_self_iff cut).mp ?_
    simpa [Statement.text, Statement.marked, importing, mark, markFrom] using whole
  · intro spared source
    refine rewritten_mark fun s mem => ⟨_, rfl, fun goes => ?_⟩
    have found := sound_of_mem_pieces mem
    obtain ⟨directory, stem, tail, cut⟩ := exists_cut found.2.dot
    exact markedPath_spared cut (spared s.path found.1.path goes directory stem tail cut)

/-- A directory that is honourable is found in the paths that go through it. -/
theorem spared_of_honourable (named : validation.dependencies ≠ []) (slashes : isSlash slash = true)
    (honourable : Honourable layout.marker validation.dependencies) {path front stem tail : Text}
    (unquoted : Unquoted path) (goes : Through slash validation.dependencies path)
    (cut : Cut path front stem tail) :
    Spared layout.marker (ofSettings layout validation).dependencies front stem := by
  have leads : validation.dependencies <+: path := by
    rcases goes with ⟨rest, rfl⟩ | ⟨-, leads⟩
    · exact ⟨slash :: rest, by simp⟩
    · exact leads
  obtain ⟨single, dotted⟩ := honourable fun c mem => unquoted c (leads.subset mem)
  rcases goes.cut slashes cut with ⟨before, more, rfl, rfl | same⟩ | ⟨tail', inside⟩
  · refine .inl ((isDependency_iff named).mpr ?_)
    rw [segments_append slashes]
    rcases single with free | modules
    · exact .inr (List.mem_append_left _ (segments_slashless free ▸ List.mem_singleton_self _))
    · exact .inl (List.mem_append_left _ modules)
  · rw [same] at single
    refine .inl ((isDependency_iff named).mpr (.inl ?_))
    rw [segments_append slashes]
    rcases single with free | modules
    · exact nomatch (free slash (by simp)).symm.trans slashes
    · rw [segments_append slashes] at modules
      exact List.mem_append_left _ ((List.mem_append.mp modules).resolve_right (by decide))
  · rcases dotted front stem tail' inside with modules | spared
    · exact .inl ((isDependency_iff named).mpr (.inl modules))
    · exact .inr spared

/-- A name that no marker but the empty one starts. -/
theorem exists_unmarked {marker : Text} (given : marker ≠ []) :
    ∃ x, x ∈ ['x', 'y'] ∧ Text.startsWith [x] marker = false := by
  obtain ⟨c, r, rfl⟩ := List.exists_cons_of_ne_nil given
  have unmarked : ∀ x, x ≠ c → Text.startsWith [x] (c :: r) = false := fun x other =>
    Bool.eq_false_iff.mpr fun starts =>
      other (List.cons_prefix_cons.mp (Text.startsWith_iff.mp starts)).1.symm
  by_cases here : c = 'x'
  · exact ⟨'y', by decide, unmarked 'y' (by rw [here]; decide)⟩
  · exact ⟨'x', by decide, unmarked 'x' (Ne.symm here)⟩

/-- A directory that is found in all paths that go through it is honourable. -/
theorem honourable_of_spares (marked : layout.marker ≠ []) (named : validation.dependencies ≠ [])
    (slashes : isSlash slash = true)
    (spares : (ofSettings layout validation).Spares (Through slash validation.dependencies)) :
    Honourable layout.marker validation.dependencies := by
  intro unquoted
  have spared := spares_iff_cuts.mp spares
  have quote : isQuote slash = false := by
    rcases Bool.or_eq_true_iff.mp slashes with same | same <;> exact eq_of_beq same ▸ rfl
  refine ⟨?_, fun front stem tail cut => ?_⟩
  · by_contra neither
    obtain ⟨several, modules⟩ := not_or.mp neither
    obtain ⟨x, mem, unmarked⟩ := exists_unmarked marked
    have plain : isQuote x = false ∧ Layout.endsExtension x = false := by
      rcases List.mem_pair.mp mem with rfl | rfl <;> exact ⟨rfl, rfl⟩
    -- The name `x.sol` in the directory gets marked.
    have cut : Cut (validation.dependencies ++ slash :: ([x] ++ '.' :: "sol".toList))
        (validation.dependencies ++ [slash]) [x] "sol".toList :=
      ⟨by simp, .inr ⟨_, slash, slashes, rfl⟩, List.forall_mem_singleton.mpr plain.2,
        fun front c behind slash split dot =>
          absurd (show '.' ∈ "sol".toList by simp [split, dot]) (by decide)⟩
    have path : Unquoted (validation.dependencies ++ slash :: ([x] ++ '.' :: "sol".toList)) :=
      unquoted.append (List.forall_mem_cons.mpr
        ⟨quote, List.forall_mem_cons.mpr ⟨plain.1, by decide⟩⟩)
    have goes : Through slash validation.dependencies
        (validation.dependencies ++ slash :: ([x] ++ '.' :: "sol".toList)) :=
      .inl ⟨[x] ++ '.' :: "sol".toList, by simp⟩
    rcases spared _ path goes _ _ _ cut with dependency | empty | starts
    · rw [isDependency_iff named, segments_append slashes] at dependency
      rcases dependency with inside | inside
      · exact modules ((List.mem_append.mp inside).resolve_right (by decide))
      · rw [← segments_append slashes] at inside
        exact several (slashless_of_mem_segments inside)
    · exact nomatch empty
    · exact nomatch unmarked.symm.trans starts
  · have path : Unquoted (validation.dependencies ++ [slash]) :=
      unquoted.append (List.forall_mem_singleton.mpr quote)
    have other : '.' ∉ [slash] := by
      rw [List.mem_singleton]
      rintro rfl
      cases slashes
    rcases spared _ path (.inl (List.prefix_refl _)) _ _ _ (cut.append other) with
      dependency | spared
    · rcases (isDependency_iff named).mp dependency with modules | inside
      · exact .inl modules
      · -- A directory that is a segment has no slash, so it has nothing in front of its name.
        have free := slashless_of_mem_segments inside
        rcases cut.closed with rfl | ⟨before, c, slash', rfl⟩
        · exact absurd (List.mem_singleton.mp inside) named
        · exact nomatch (free c (by rw [cut.whole]; simp)).symm.trans slash'
    · exact .inr spared

/-- `node_modules` is found in paths. -/
theorem spares_nodeModules (layout : Layout) (named : validation.dependencies ≠ []) :
    (ofSettings layout validation).Spares (Within nodeModules) := by
  refine spares_iff_cuts.mpr ?_
  rintro _ - ⟨front, c, rest, slashes, closed, rfl, behind⟩ directory stem tail cut
  have dot : '.' ∈ rest := by
    have other : c ≠ '.' := by
      rintro rfl
      cases slashes
    have dot := cut.dot
    simp only [List.mem_append, List.mem_cons, other.symm, false_or] at dot
    rcases dot with (dot | dot) | dot
    · exact behind dot
    · exact absurd dot (by decide)
    · exact dot
  obtain ⟨more, rfl, -⟩ := cut.directory_of_slash slashes rfl dot
  refine .inl ((isDependency_iff named).mpr (.inl ?_))
  rw [segments_append slashes]
  exact List.mem_append_left _ (mem_segments_append closed (Text.eq_false_of_any (by decide)))

theorem Spares.mono {staging : Staging} {through through' : Text → Prop}
    (spares : staging.Spares through')
    (fewer : ∀ path, through path → through' path) : staging.Spares through :=
  spares_iff_cuts.mpr fun path unquoted goes =>
    spares_iff_cuts.mp spares path unquoted (fewer path goes)

/-- **The dependency directory of the settings is honoured exactly if it is honourable.**  At the
start of a path `node_modules` always is, and elsewhere unless the last dot of the path stands
before it. -/
theorem spares_iff (marked : layout.marker ≠ []) (named : validation.dependencies ≠ [])
    (slashes : isSlash slash = true) :
    ((ofSettings layout validation).Spares (Through slash validation.dependencies) ↔
        Honourable layout.marker validation.dependencies) ∧
      (ofSettings layout validation).Spares (Through slash nodeModules) ∧
      (ofSettings layout validation).Spares (Within nodeModules) := by
  have modules := spares_nodeModules layout named
  refine ⟨⟨honourable_of_spares marked named slashes, fun honourable => ?_⟩,
    modules.mono fun _ => Through.within slashes, modules⟩
  exact spares_iff_cuts.mpr fun path unquoted goes directory stem tail =>
    spared_of_honourable named slashes honourable unquoted goes

/-- Imports through `vendor` are left alone if that is the directory of the settings. -/
theorem vendor_spared :
    (ofSettings {} { dependencies := "vendor".toList }).stagedContent
        { path := "/p/contracts/A.sol".toList, content := "import \"vendor/p/X.sol\";".toList }
      = "import \"vendor/p/X.sol\";".toList ∧
    (ofSettings {} { dependencies := "vendor".toList }).Spares (Through '/' "vendor".toList) := by
  have honourable : Honourable ['~'] "vendor".toList := fun _ =>
    ⟨.inl (Text.eq_false_of_any rfl), fun _ _ _ cut => absurd cut.dot (by decide)⟩
  exact ⟨by decide +kernel, (spares_iff (by decide) (by decide) rfl).1.mpr honourable⟩

/-- Imports through `vendor/lib` are marked although that is the directory of the settings; and so
are some through `vendor/` and `my.lib`. -/
theorem vendor_lib_marked :
    (ofSettings {} { dependencies := "vendor/lib".toList }).stagedContent
        { path := "/p/contracts/A.sol".toList, content := "import \"vendor/lib/X.sol\";".toList }
      = "import \"vendor/lib/~X.sol\";".toList ∧
    ∀ directory ∈ ["vendor/lib".toList, "vendor/".toList, "my.lib".toList],
      ¬ (ofSettings {} { dependencies := directory }).Spares (Through '/' directory) := by
  refine ⟨by decide +kernel, fun directory mem spares => ?_⟩
  have named : directory ≠ [] := by
    rintro rfl
    simp at mem
  have honourable : Honourable ['~'] directory := honourable_of_spares (by decide) named rfl spares
  simp only [List.mem_cons, List.not_mem_nil, or_false] at mem
  rcases mem with rfl | rfl | rfl
  · exact absurd (honourable (Text.eq_false_of_any rfl)).1 (by decide)
  · exact absurd (honourable (Text.eq_false_of_any rfl)).1 (by decide)
  · exact absurd ((honourable (Text.eq_false_of_any rfl)).2 [] "my".toList "lib".toList
      (.of_eq_some rfl)) (by decide)

end Staging
end ContractCheck
