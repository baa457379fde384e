import ContractCheck.Import.Resolver
import ContractCheck.Proofs.Import.Rescanning
import ContractCheck.Proofs.Layout.Project
import Mathlib.Data.List.Infix

/-! # Staged imports point at staged files

A contract that imports another one by a relative path has a staged copy that imports the staged
copy of the other one: marking the path and mirroring the directories lead to the same place
(`staged_import_leads`).

The path may go up and down as long as it stays in the contracts directory, since below it both
trees have the same shape.
-/
namespace ContractCheck.Import

open ContractCheck.Path Layout

/-- Whether a path that is read segment by segment from a directory never leaves another one. -/
def Stays (outer directory path : Text) : Prop :=
  ∀ part, part <+: Text.splitOn ['/'] path →
    collapse true (Text.splitOn ['/'] outer) <+: collapse true
      (Text.splitOn ['/'] directory ++ part)

/-- A relative import of a file of the same project, which is marked: it goes through no dependency,
and its last segment has a name before its first dot and no marker. -/
structure Local (l : Layout) (dependencies : List Text) (home importer path imported : Text) :
    Prop where
  relative : Text.startsWith path ['.'] = true
  forward : '\\' ∉ path
  own : isDependency (Posix.cutName path).1 dependencies = false
  named : ∃ stem ext, stem ≠ [] ∧ '.' ∉ stem ∧ Posix.basename path = stem ++ '.' :: ext
  unmarked : Text.startsWith (Posix.basename path) l.marker = false
  stays : Stays (l.contractsIn home) (Posix.dirname importer) path
  leads : Posix.normalise (Posix.join (Posix.dirname importer) path) = imported

/-- A contract of a project, all of whose imports are marked, and whose import at a position is a
local one. -/
structure Importing (l : Layout) (dependencies : List Text)
    (home content importer path imported : Text)
    (i : Nat) : Prop where
  names : Named l
  place : Home l home
  inside : Contract l home importer
  inside' : Contract l home imported
  markable : ∀ s ∈ statements content, s.close = s.quote ∧ '.' ∈ s.path
  found : (find content)[i]? = some path
  own : Local l dependencies home importer path imported

/-- Whether the staged copy of a contract has as many imports as the contract, and the one at a
position leads to the staged copy of another contract. -/
def Leads (l : Layout) (dependencies : List Text) (content importer imported : Text) (i : Nat) :
    Prop :=
  (find (mark l.marker dependencies content)).length = (find content).length ∧
    ∃ path', (find (mark l.marker dependencies content))[i]? = some path' ∧
      Posix.normalise (Posix.join (Posix.dirname (l.stagedPath importer)) path') =
        l.stagedPath imported

/-! ## Relative imports -/

variable {l : Layout} {dependencies : List Text} {home importer path imported : Text}

/-- A relative import by its directory and its name. -/
structure Parts (l : Layout) (dependencies : List Text) (path directory name : Text) : Prop where
  split : path = directory ++ '/' :: name
  marked : markedPath l.marker dependencies path = directory ++ '/' :: (l.marker ++ name)
  bare : '/' ∉ name
  proper : Proper name
  proper_marked : Proper (l.marker ++ name)
  relative : ∃ c r, directory = c :: r ∧ c ≠ '/'

theorem Local.parts (h : Local l dependencies home importer path imported) :
    ∃ directory name, Parts l dependencies path directory name := by
  obtain ⟨stem, ext, given, first, base⟩ := h.named
  obtain ⟨c, r, shape⟩ := List.exists_cons_of_ne_nil given
  have other : c ≠ '.' := fun eq => first (by rw [shape, eq]; exact List.mem_cons_self)
  have inside : c ∈ stem := shape ▸ List.mem_cons_self
  rcases Text.not_mem_or_last '/' path with flat | ⟨directory, name, bare, rfl⟩
  · -- The path would be its name, and start with a dot.
    have whole : path = stem ++ '.' :: ext := by
      rw [← base, Posix.basename, Posix.cutName, Text.cutLast_eq_none flat]
    have starts := Text.startsWith_iff.mp h.relative
    rw [whole, shape] at starts
    exact absurd (List.cons_prefix_cons.mp starts).1.symm other
  · have cut : Posix.cutName (directory ++ '/' :: name) = (directory ++ ['/'], name) := by
      rw [Posix.cutName, Text.cutLast_append bare]
    have own := h.own
    have unmarked := h.unmarked
    rw [Posix.basename, cut] at base unmarked
    rw [cut] at own
    dsimp only at base unmarked own
    subst base
    have slashes : ∀ x ∈ stem ++ '.' :: ext, isSlash x = false :=
      bare_of_not_mem bare fun mem =>
        h.forward (List.mem_append_right _ (List.mem_cons_of_mem _ mem))
    have relative : ∃ x rest, directory = x :: rest ∧ x ≠ '/' := by
      have starts := Text.startsWith_iff.mp h.relative
      cases directory with
      | nil => cases (List.cons_prefix_cons.mp starts).1
      | cons x rest =>
        obtain rfl := (List.cons_prefix_cons.mp starts).1
        exact ⟨_, rest, rfl, by decide⟩
    have named : c ∈ stem ++ '.' :: ext := List.mem_append_left _ inside
    exact ⟨directory, _, rfl, markedPath_last slashes first given own unmarked, bare,
      proper_of_mem named other, proper_of_mem (List.mem_append_right _ named) other, relative⟩

section Leads

variable {lead outer inner inner' : List Text} (around : HomeRow l lead outer)
include around

/-- A path that never leaves the contracts directory never leaves its segments. -/
theorem stays_below (contracts : Single l.contracts) {directory name name' : Text}
    (row : ContractRow l lead outer inner name importer)
    (tree : l.contractsIn home = slashed (below lead outer l.contracts []))
    (stays : Stays (l.contractsIn home) (Posix.dirname importer) (directory ++ '/' :: name')) :
    ∀ part, part <+: Text.splitOn ['/'] directory →
      outer ++ [l.contracts] <+: collapse true (outer ++ l.contracts :: (inner ++ part)) := by
  intro part front
  have bare : '/' ∉ name := not_mem_of_bare row.bare rfl
  have further : part <+: Text.splitOn ['/'] (directory ++ '/' :: name') := by
    rw [Text.splitOn_append]
    exact front.trans (List.prefix_append _ _)
  have top : ∀ s ∈ outer ++ [l.contracts], Proper s :=
    List.forall_mem_append.mpr ⟨around.proper, by simpa using contracts.proper⟩
  have nothing : Plain [] := nofun
  have shape : [] :: below lead outer l.contracts inner ++ part
      = [] :: (lead ++ (outer ++ l.contracts :: (inner ++ part))) := by
    simp [below]
  have within := stays part further
  have plain := plain_below around contracts row.plain
  rwa [tree, row.row, dirname_row plain (ends_below contracts row.proper) bare,
    splitOn_slashed (plain_below around contracts nothing), splitOn_slashed plain, shape, below,
    collapse_lead around.lead, collapse_lead around.lead, collapse_of_proper top] at within

end Leads

/-- A relative import is looked up beside the file that has it. -/
theorem Project.locate?_relative (project : Project) {fs : FileSystem} {cwd : Place}
    (relative : Text.startsWith path ['.'] = true)
    (leads : Posix.normalise (Posix.join (Posix.dirname importer) path) = imported)
    (there : fs.isFile cwd imported = true) :
    project.locate? fs cwd importer path = some imported := by
  have one : project.candidates importer path = [imported] := by
    rw [Project.candidates, if_pos (show Text.startsWith path here = true from relative), leads]
  rw [Project.locate?, one]
  simp [there]

/-- **Staged imports point at staged files.**  A local import of a contract is found where it leads,
and leads from the staged copy of the contract to the staged copy of the imported one. -/
theorem staged_import_leads {content : Text} {i : Nat}
    (h : Importing l dependencies home content importer path imported i)
    (marker : ∀ c ∈ l.marker, isQuote c = false ∧ c ≠ '/') :
    (∀ (project : Project) fs cwd, fs.isFile cwd imported = true →
        project.locate? fs cwd importer path = some imported) ∧
      Leads l dependencies content importer imported i := by
  refine ⟨fun project fs cwd => project.locate?_relative h.own.relative h.own.leads, ?_⟩
  have names := h.names
  have slash : '/' ∉ l.marker := fun mem => (marker _ mem).2 rfl
  have marked : find (mark l.marker dependencies content)
      = (find content).map (markedPath l.marker dependencies) :=
    find_mark (fun c mem => (marker c mem).1) fun s mem =>
      ⟨(h.markable s mem).1, (h.markable s mem).2⟩
  rw [Leads, marked]
  refine ⟨List.length_map _, markedPath l.marker dependencies path,
    by rw [List.getElem?_map, h.found]; rfl, ?_⟩
  obtain ⟨lead, outer, around, tree⟩ := h.place.row names
  obtain ⟨inner, name, row⟩ := h.inside.row around names tree
  obtain ⟨inner', name', row'⟩ := h.inside'.row around names tree
  obtain ⟨directory, last, parts⟩ := h.own.parts
  have bare : '/' ∉ name := not_mem_of_bare row.bare rfl
  have unsplit : ∀ {n : Text}, '/' ∉ n → '/' ∉ l.marker ++ n := fun free mem =>
    (List.mem_append.mp mem).elim slash free
  -- The directory of the import stays below the contracts directory, so it leads to the same place
  -- below both.
  have stays := stays_below around names.contracts row tree (parts.split ▸ h.own.stays)
  obtain ⟨next, leads⟩ := collapse_tree around names.contracts.proper row.proper stays
  have there := h.own.leads
  rw [parts.split, row.row, leads_below around names.contracts row.plain row.proper bare
    parts.proper parts.bare
    parts.relative (leads _ names.contracts.proper)] at there
  have plain :=
    plain_of_leads around row.plain (leads _ names.contracts.proper) (names.contracts.not_mem rfl)
  obtain ⟨rfl, rfl⟩ := segments_unique around names.contracts row' plain parts.bare there.symm
  rw [parts.marked, row.stagedPath around names slash, row'.stagedPath around names slash]
  exact leads_below around names.temp row.plain row.proper (unsplit bare) parts.proper_marked
    (unsplit parts.bare) parts.relative (leads _ names.temp.proper)

/-- A contract that imports one from a dependency, and one from a directory beside its own. -/
def sample : Text := "import {X} from 'node_modules/x/X.sol'; import \"../lib/B.sol\";".toList

theorem named_default (marker : Text) : Named { marker } where
  contracts := show Single "contracts".toList from ⟨by decide +kernel,
    Text.eq_false_of_any (by decide +kernel)⟩
  temp :=
    show Single ".temp".toList from ⟨by decide +kernel, Text.eq_false_of_any (by decide +kernel)⟩

theorem contract_default (marker inner : Text) {file : Text}
    (inside : file = Posix.join "/p".toList "contracts".toList ++ '/' :: inner ∧
      "contracts".toList ∉ Text.splitOn ['/'] inner)
    (tame : Posix.normalise file = file ∧ '\\' ∉ file ∧ '\n' ∉ file) :
    Contract { marker } "/p".toList file :=
  ⟨tame.1, ⟨inner, inside⟩, tame.2.1, tame.2.2⟩

theorem importing_sample {marker : Text} (other : Text.startsWith "B.sol".toList marker = false) :
    Importing { marker } defaultDependencies "/p".toList sample "/p/contracts/sub/A.sol".toList
      "../lib/B.sol".toList "/p/contracts/lib/B.sol".toList 1 where
  names := named_default marker
  place :=
    { absolute := by decide
      resolved := by decide +kernel
      contracts := show "contracts".toList ∉ Text.splitOn ['/'] "/p".toList by decide +kernel }
  inside := contract_default marker "sub/A.sol".toList (by decide +kernel) (by decide +kernel)
  inside' := contract_default marker "lib/B.sol".toList (by decide +kernel) (by decide +kernel)
  markable := by decide +kernel
  found := by decide +kernel
  own :=
    { relative := by decide
      forward := by decide +kernel
      own := by decide +kernel
      named := ⟨['B'], "sol".toList, by decide +kernel⟩
      unmarked := other
      stays := fun part front => by
        have all : ∀ part ∈ (Text.splitOn ['/'] "../lib/B.sol".toList).inits,
            collapse true (Text.splitOn ['/'] "/p/contracts".toList) <+:
              collapse true (Text.splitOn ['/'] "/p/contracts/sub".toList ++ part) := by
              decide +kernel
        exact all part ((List.mem_inits _ _).mpr front)
      leads := by decide +kernel }

/-- The import of the sample leads to `.temp/lib/~B.sol`. -/
theorem sample_leads :
    (find (mark ['~'] defaultDependencies sample))[1]? = some "../lib/~B.sol".toList ∧
      Leads {} defaultDependencies sample "/p/contracts/sub/A.sol".toList
        "/p/contracts/lib/B.sol".toList 1 :=
  ⟨by decide +kernel, (staged_import_leads (importing_sample (by decide +kernel))
    fun c mem => List.mem_singleton.mp mem ▸ ⟨rfl, by decide⟩).2⟩

/-- Whether the sample is a contract as above, but with this marker its import leads elsewhere. -/
def Misled (marker : Text) : Prop :=
  Importing { marker } defaultDependencies "/p".toList sample "/p/contracts/sub/A.sol".toList
      "../lib/B.sol".toList "/p/contracts/lib/B.sol".toList 1 ∧
    ¬ Leads { marker } defaultDependencies sample "/p/contracts/sub/A.sol".toList
      "/p/contracts/lib/B.sol".toList 1

theorem misled {marker : Text} (path' : Text)
    (other : Text.startsWith "B.sol".toList marker = false)
    (there : (find (mark marker defaultDependencies sample))[1]? = some path')
    (astray : Posix.normalise (Posix.join (Posix.dirname
        (({ marker } : Layout).stagedPath "/p/contracts/sub/A.sol".toList)) path')
      ≠ ({ marker } : Layout).stagedPath "/p/contracts/lib/B.sol".toList) : Misled marker := by
  refine ⟨importing_sample other, ?_⟩
  rintro ⟨-, found', found, leads⟩
  obtain rfl := Option.some.inj (there.symm.trans found)
  exact astray leads

/-- A marker with a quote, of either kind, ends the path early; one with a slash takes the staged
copies out of their directories.  It is not that a file of the sample lay in a temporary
directory. -/
theorem sample_misled :
    (∀ file ∈ ["/p/contracts/sub/A.sol".toList, "/p/contracts/lib/B.sol".toList],
      ".temp".toList ∉ Text.splitOn ['/'] file) ∧ Misled ['"'] ∧ Misled ['\''] ∧ Misled ['/'] :=
  ⟨by decide +kernel, misled "../lib/".toList (by decide +kernel) (by decide +kernel)
    (by decide +kernel),
    misled "../lib/".toList (by decide +kernel) (by decide +kernel) (by decide +kernel),
    misled "../lib//B.sol".toList (by decide +kernel) (by decide +kernel) (by decide +kernel)⟩

end ContractCheck.Import
