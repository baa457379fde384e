import ContractCheck.Import.Resolver
import ContractCheck.Proofs.Host.Logged
import ContractCheck.Proofs.Import.Layers
import ContractCheck.Proofs.Path.Straight
import ContractCheck.Proofs.Text.Counting
import Mathlib.Data.List.Find

/-! # The sources that a document needs

A document needs itself and, with every source that it needs, the files that the imports of this
source mean (`Needed`).  Taking up what waits comes to just these sources, unless a file that can be
read and holds no text is in the way (`Project.collect_ended`).  Where there is none, resolving a
document ends, and its job has exactly the sources that it needs, each once: the document first,
with its own text, and every other one with the text on disk, the nearer ones before the farther
ones (`Project.resolve_exact`).
-/
namespace ContractCheck

open FileSystem (placeOf)

namespace Import

/-- The text that a file on disk has for an import. -/
def textAt? (fs : FileSystem) (cwd : Place) (path : Text) : Option Text :=
  match fs.read cwd path with
  | .ok bytes => (Utf8.read? bytes).map Text.unifyBreaks
  | .error _ => none

/-- A file that can be read and holds no text. -/
def Illegible (fs : FileSystem) (cwd : Place) (path : Text) : Prop :=
  ∃ bytes, fs.read cwd path = .ok bytes ∧ Utf8.read? bytes = none

theorem Illegible.textAt? {fs : FileSystem} {cwd : Place} {path : Text}
    (illegible : Illegible fs cwd path) :
    textAt? fs cwd path = none := by
  obtain ⟨bytes, read, garbled⟩ := illegible
  rw [Import.textAt?, read]
  dsimp only
  rw [garbled]
  rfl

namespace Project

variable (project : Project) (fs : FileSystem) (cwd : Place) (root : Source)

/-- The text of a source: the document has its own text, whatever is on disk. -/
def textOf? (path : Text) : Option Text :=
  if path = root.path then some root.content else textAt? fs cwd path

/-- Whether a source imports a file that is found and can be read. -/
def Leads (importer path : Text) : Prop :=
  ∃ text target, textOf? fs cwd root importer = some text ∧ target ∈ find text ∧
    project.locate? fs cwd importer target = some path ∧ (textAt? fs cwd path).isSome

/-- **What a document needs**: itself, and where the imports of what it needs lead. -/
inductive Needed : Text → Prop
  | document : Needed root.path
  | imported {importer path : Text} (needed : Needed importer)
      (leads : project.Leads fs cwd root importer path) :
      Needed path

/-- Whether a number of imports leads from the document to a path. -/
def Away : Nat → Text → Prop
  | 0, path => path = root.path
  | n + 1, path => ∃ importer, Away n importer ∧ project.Leads fs cwd root importer path

/-- Whether an import of a source means an illegible file.  The document is not read from its
file. -/
def Hindered (importer : Text) : Prop :=
  ∃ text target path, textOf? fs cwd root importer = some text ∧ target ∈ find text ∧
    project.locate? fs cwd importer target = some path ∧ path ≠ root.path ∧ Illegible fs cwd path

/-- What an import of a source means. -/
def meant? (importer target : Text) : Option Source :=
  (project.locate? fs cwd importer target).bind fun path => (textAt? fs cwd path).map fun content =>
    { path, content }

/-- The sources that a source leads to, import by import. -/
def importsOf (s : Source) : List Source :=
  (find s.content).filterMap (project.meant? fs cwd s.path)

variable {project fs cwd root}

theorem needed_iff {path : Text} :
    project.Needed fs cwd root path ↔ ∃ n, project.Away fs cwd root n path := by
  constructor
  · intro needed
    induction needed with
    | document => exact ⟨0, rfl⟩
    | imported _ leads ih =>
      obtain ⟨n, away⟩ := ih
      exact ⟨n + 1, _, away, leads⟩
  · rintro ⟨n, away⟩
    induction n generalizing path with
    | zero =>
      obtain rfl : path = root.path := away
      exact .document
    | succ n ih =>
      obtain ⟨importer, away, leads⟩ := away
      exact .imported (ih away) leads

/-! ## Layers of sources -/

/-- Whether a source has the text that it should have. -/
def Own (fs : FileSystem) (cwd : Place) (root s : Source) : Prop :=
  textOf? fs cwd root s.path = some s.content

theorem own_root : Own fs cwd root root := if_pos rfl

theorem mem_importsOf {s t : Source} : t ∈ project.importsOf fs cwd s ↔
    ∃ target ∈ find s.content, project.locate? fs cwd s.path target = some t.path ∧
    textAt? fs cwd t.path = some t.content := by
  unfold importsOf meant?
  simp only [List.mem_filterMap, Option.bind_eq_some_iff, Option.map_eq_some_iff]
  constructor
  · rintro ⟨target, mem, path, located, content, read, rfl⟩
    exact ⟨target, mem, located, read⟩
  · rintro ⟨target, mem, located, read⟩
    exact ⟨target, mem, t.path, located, t.content, read, rfl⟩

/-- A source leads where its imports do. -/
theorem leads_iff {s : Source} (own : Own fs cwd root s) {path : Text} :
    project.Leads fs cwd root s.path path ↔ path ∈ paths (project.importsOf fs cwd s) := by
  unfold Leads
  simp only [List.mem_map, mem_importsOf]
  constructor
  · rintro ⟨text, target, given, mem, located, read⟩
    obtain rfl := Option.some.inj (own.symm.trans given)
    obtain ⟨content, read⟩ := Option.isSome_iff_exists.mp read
    exact ⟨⟨path, content⟩, ⟨target, mem, located, read⟩, rfl⟩
  · rintro ⟨t, ⟨target, mem, located, read⟩, rfl⟩
    exact ⟨s.content, target, own, mem, located, Option.isSome_of_eq_some read⟩

theorem own_of_imported {s t : Source} (mem : t ∈ project.importsOf fs cwd s)
    (other : t.path ≠ root.path) :
    Own fs cwd root t := by
  obtain ⟨target, -, -, read⟩ := mem_importsOf.mp mem
  exact (if_neg other).trans read

theorem root_above (n : Nat) : root ∈ above (project.importsOf fs cwd) root (n + 1) := by
  obtain ⟨others, shape⟩ := @above_head (project.importsOf fs cwd) root n
  exact shape ▸ List.mem_cons_self

theorem own_layer {n : Nat} {s : Source} (mem : s ∈ layer (project.importsOf fs cwd) root n) :
    Own fs cwd root s := by
  cases n with
  | zero =>
    obtain rfl := List.mem_singleton.mp mem
    exact own_root
  | succ n =>
    obtain ⟨t, -, imported⟩ := List.mem_flatMap.mp ((firsts_sublist _ _).subset mem)
    refine own_of_imported imported fun same => ?_
    have new := (mem_paths_firsts.mp (List.mem_map_of_mem mem)).2
    exact new (same ▸ List.mem_map_of_mem (root_above n))

/-- Above a layer is what is fewer imports away. -/
theorem mem_above {n : Nat} (layers : ∀ m < n, ∀ path,
    path ∈ paths (layer (project.importsOf fs cwd) root m) ↔
    project.Away fs cwd root m path ∧ ∀ k < m, ¬ project.Away fs cwd root k path) (path : Text) :
    path ∈ paths (above (project.importsOf fs cwd) root n) ↔
    ∃ m < n, project.Away fs cwd root m path := by
  rw [above_eq, paths, List.map_flatMap, List.mem_flatMap]
  constructor
  · rintro ⟨m, less, mem⟩
    have less := List.mem_range.mp less
    exact ⟨m, less, ((layers m less path).mp mem).1⟩
  · rintro ⟨m, less, away⟩
    classical
    have some : ∃ m, project.Away fs cwd root m path := ⟨m, away⟩
    have least := Nat.lt_of_le_of_lt (Nat.find_min' some away) less
    exact ⟨Nat.find some, List.mem_range.mpr least,
      (layers _ least path).mpr ⟨Nat.find_spec some, fun k => Nat.find_min some⟩⟩

/-- **A layer holds the paths that are so many imports away and not fewer.** -/
theorem mem_layer (n : Nat) (path : Text) : path ∈ paths (layer (project.importsOf fs cwd) root n) ↔
    project.Away fs cwd root n path ∧ ∀ m < n, ¬ project.Away fs cwd root m path := by
  induction n using Nat.strong_induction_on generalizing path with
  | _ n ih =>
    cases n with
    | zero =>
      rw [layer_zero]
      exact List.mem_singleton.trans
        ⟨fun same => ⟨same, fun _ less => absurd less (Nat.not_lt_zero _)⟩, And.left⟩
    | succ n =>
      rw [layer_succ, mem_paths_firsts, mem_above ih]
      simp only [not_exists, not_and]
      refine and_congr_left fun fresh => ?_
      rw [paths, List.map_flatMap, List.mem_flatMap]
      constructor
      · rintro ⟨s, mem, imported⟩
        exact ⟨s.path, ((ih n (Nat.lt_succ_self n) s.path).mp (List.mem_map_of_mem mem)).1,
          (leads_iff (own_layer mem)).mpr imported⟩
      · rintro ⟨importer, away, leads⟩
        have nearest : ∀ m < n, ¬ project.Away fs cwd root m importer := fun m less near =>
          fresh (m + 1) (Nat.succ_lt_succ less) ⟨importer, near, leads⟩
        obtain ⟨s, mem, rfl⟩ :=
          List.mem_map.mp ((ih n (Nat.lt_succ_self n) importer).mpr ⟨away, nearest⟩)
        exact ⟨s, mem, (leads_iff (own_layer mem)).mp leads⟩

/-- Above an empty layer is all that is needed. -/
theorem mem_above_last {n : Nat} (last : layer (project.importsOf fs cwd) root n = [])
    (path : Text) :
    path ∈ paths (above (project.importsOf fs cwd) root n) ↔ project.Needed fs cwd root path := by
  rw [mem_above fun m _ => mem_layer m, needed_iff]
  refine ⟨fun ⟨m, _, away⟩ => ⟨m, away⟩, fun some => ?_⟩
  classical
  refine ⟨Nat.find some, ?_, Nat.find_spec some⟩
  by_contra beyond
  obtain ⟨k, shape⟩ := Nat.exists_eq_add_of_le (Nat.not_lt.mp beyond)
  have nearest := (mem_layer _ path).mpr ⟨Nat.find_spec some, fun k => Nat.find_min some⟩
  rw [shape, layer_nil last] at nearest
  cases nearest

/-! ## There are not too many sources -/

theorem takes_of_imported {s t : Source} (mem : t ∈ project.importsOf fs cwd s) :
    FileSystem.Takes t.path := by
  obtain ⟨target, -, located, -⟩ := mem_importsOf.mp mem
  exact FileSystem.isFile_takes (List.find?_some located)

/-- **The layers hold no more sources than there are rounds**: only the document may have a path
that is too long. -/
theorem length_above (n : Nat) : (above (project.importsOf fs cwd) root n).length ≤ rounds := by
  have once := @nodup_above (project.importsOf fs cwd) root n
  have short : ∀ path ∈ (paths (above (project.importsOf fs cwd) root n)).erase root.path,
      path.length ≤ FileSystem.maxPath := by
    intro path mem
    obtain ⟨other, mem⟩ := (once.mem_erase_iff).mp mem
    rw [above_eq, paths, List.map_flatMap, List.mem_flatMap] at mem
    obtain ⟨m, -, mem⟩ := mem
    obtain ⟨s, inside, rfl⟩ := List.mem_map.mp mem
    cases m with
    | zero => exact absurd (congrArg Source.path (List.mem_singleton.mp inside)) other
    | succ m =>
      obtain ⟨t, -, imported⟩ := List.mem_flatMap.mp ((firsts_sublist _ _).subset inside)
      exact Nat.le_trans (Text.length_le_encode _) (takes_of_imported imported).2.2
  have few := Text.length_le_of_nodup (once.erase root.path) short
  have more : (above (project.importsOf fs cwd) root n).length
      ≤ ((paths (above (project.importsOf fs cwd) root n)).erase root.path).length + 1 := by
    rw [← List.length_map Source.path]
    exact Nat.sub_le_iff_le_add.mp List.le_length_erase
  -- The numbers are too large to be looked at.
  have enough (base bound : Nat) (some : 0 < base) : base ^ bound ≤ Nat.pow base (bound + 1) :=
    Nat.pow_le_pow_right some (Nat.le_succ bound)
  rw [rounds]
  exact Nat.le_trans more (Nat.add_le_add_right (Nat.le_trans few (enough _ _ (Nat.succ_pos _))) 1)

/-! ## Resolving -/

/-- What a document is resolved in: a file system that is a tree, from a directory that is there;
and a log that can be set up, and that is kept in a file that no import of a needed source may
mean. -/
structure Setting (project : Project) (h : Host) (root : Source) : Prop where
  tree : h.files.IsTree
  stands : h.files.get? h.cwd = some .directory
  ready : h.LogReady
  aside : ∀ importer, project.Needed h.files h.cwd root importer → ∀ text,
    textOf? h.files h.cwd root importer = some text → ∀ target ∈ find text,
    ∀ path ∈ project.candidates importer target, ¬ h.AtLog (placeOf h.cwd path)

/-- The same, where every file holds text or may not be read. -/
structure Surrounding (project : Project) (h : Host) (root : Source) :
    Prop extends project.Setting h root where
  text : ∀ q content x, h.files.get? q = some (.file content x) → x.readable = true →
    (Utf8.read? content).isSome

namespace Surrounding

variable {h : Host} (around : project.Surrounding h root)
include around

theorem not_illegible (path : Text) : ¬ Illegible h.files h.cwd path := by
  rintro ⟨bytes, read, garbled⟩
  obtain ⟨p, x, -, there, free⟩ := FileSystem.read_iff.mp read
  have text := around.text p bytes x there free
  rw [garbled] at text
  cases text

theorem not_hindered (importer : Text) : ¬ project.Hindered h.files h.cwd root importer :=
  fun ⟨_, _, path, _, _, _, _, illegible⟩ => around.not_illegible path illegible

end Surrounding

theorem straight_candidate {importer target path : Text}
    (mem : path ∈ project.candidates importer target) :
    Path.Straight (Text.splitOn ['/'] path) := by
  have resolved : ∃ p, path = Path.Posix.normalise p := by
    unfold candidates at mem
    dsimp only at mem
    split at mem
    · exact ⟨_, List.mem_singleton.mp mem⟩
    · obtain ⟨p, -, rfl⟩ := List.mem_map.mp mem
      exact ⟨p, rfl⟩
  obtain ⟨p, rfl⟩ := resolved
  exact Path.straight_normalise p

variable {h h' : Host} {s : Source}

section Reading

variable (around : project.Setting h root) (logged : h.Logged h')
  (needed : project.Needed h.files h.cwd root s.path) (own : Own h.files h.cwd root s)
include around logged needed own

theorem locate_logged {target : Text} (mem : target ∈ find s.content) :
    project.locate? h'.files h'.cwd s.path target =
      project.locate? h.files h.cwd s.path target := by
  rw [locate?, locate?, logged.cwd]
  refine List.find?_congr fun path candidate => ?_
  exact logged.files.isFile around.tree around.stands (straight_candidate candidate)
    (around.aside s.path needed s.content own target mem path candidate)

/-- Reading a file that an import means gives its text, or nothing if it may not be read; only an
illegible file is in the way. -/
theorem read_ended {target path : Text} (mem : target ∈ find s.content)
    (located : project.locate? h.files h.cwd s.path target = some path)
    (skip : Fault → Action (Option Text))
    (skips : ∀ e, h.Ended none .notText False ((skip e).perform h')) :
    h.Ended (textAt? h.files h.cwd path) .notText (Illegible h.files h.cwd path)
      ((Action.orSystem (some <$> Action.readText path) skip).perform h') := by
  have file := List.find?_some located
  have candidate := List.mem_of_find?_eq_some located
  have same : h'.files.read h'.cwd path = h.files.read h.cwd path := by
    rw [logged.cwd]
    exact logged.files.read around.tree around.stands (straight_candidate candidate)
      (around.aside s.path needed s.content own target mem path candidate) file
  unfold textAt? Illegible
  cases read : h.files.read h.cwd path with
  | error e =>
    have failed : (some <$> Action.readText path).perform h' = (.error (.file e path), h') := by
      rw [Action.perform_map, Action.readText_fails (same.trans read)]
      rfl
    rw [Action.perform_orSystem_handled failed (FileSystem.read_fromSystem_of_isFile file read)]
    exact (skips _).congr rfl ⟨False.elim, nofun⟩
  | ok bytes =>
    dsimp only
    cases decoded : Utf8.read? bytes with
    | none =>
      have failed : (some <$> Action.readText path).perform h' = (.error .notText, h') := by
        rw [Action.perform_map, Action.readText_garbled (same.trans read) decoded]
        rfl
      rw [Action.perform_orSystem_foreign failed rfl]
      exact .stopped logged ⟨bytes, rfl, decoded⟩
    | some text =>
      have done : (some <$> Action.readText path).perform h' =
          (.ok (some (Text.unifyBreaks text)), h') := by
        rw [Action.perform_map, Action.readText_ok (same.trans read) decoded]
        rfl
      rw [Action.perform_orSystem_ok done]
      refine .given logged ?_
      rintro ⟨_, given, garbled⟩
      cases given
      cases garbled.symm.trans decoded

/-- **The imports of a source** give the files that they mean, but for those that are in the job
already; only an illegible one of these files is in the way. -/
theorem readImports_ended (job : Job) {targets : List Text}
    (all : ∀ target ∈ targets, target ∈ find s.content) :
    h.Ended ((targets.filterMap (project.meant? h.files h.cwd s.path)).filter fun t =>
      !job.has t.path) .notText
      (∃ target ∈ targets, ∃ path, project.locate? h.files h.cwd s.path target = some path ∧
        job.has path = false ∧
        Illegible h.files h.cwd path)
      ((project.readImports job s.path targets).perform h') := by
  induction targets generalizing h' with
  | nil => exact .given logged nofun
  | cons target rest ih =>
    obtain ⟨here, all⟩ := List.forall_mem_cons.mp all
    unfold readImports
    rw [Action.perform_bind_ok (Action.perform_get h'), locate_logged around logged needed own here,
      List.filterMap_cons, meant?, List.exists_mem_cons_iff]
    cases located : project.locate? h.files h.cwd s.path target with
    | none =>
      refine .record (Log.debug_logged _ _ _) logged around.ready fun h₁ logged =>
        (ih logged all).congr rfl ?_
      exact (or_iff_right nofun).symm
    | some path =>
      dsimp only [Option.bind_some]
      cases inside : job.has path with
      | true =>
        refine (ih logged all).congr ?_ (or_iff_right ?_).symm
        · cases textAt? h.files h.cwd path with
          | none => rfl
          | some content =>
            dsimp only [Option.map_some]
            rw [List.filter_cons_of_neg (by simp [inside])]
        · rintro ⟨_, same, new, -⟩
          cases same
          cases inside.symm.trans new
      | false =>
        have skips (e : Fault) : h.Ended none .notText False ((do
            Log.debug owner ("Skipping unreadable import ".toList ++ path ++
              ": ".toList ++ e.message)
            pure none : Action (Option Text)).perform h') :=
          .record (Log.debug_logged _ _ _) logged around.ready fun _ logged =>
            .given logged not_false
        refine .congr (.bind (read_ended around logged needed own here located _ skips)
          fun h₁ logged _ =>
          .bind (ih logged all) fun h₂ logged _ => .given logged not_false) ?_ ?_
        · cases textAt? h.files h.cwd path with
          | none => rfl
          | some content =>
            dsimp only [Option.map_some]
            rw [List.filter_cons_of_pos (by simp [inside])]
            rfl
        · rw [or_false]
          refine or_congr_left ⟨fun illegible => ⟨path, rfl, inside, illegible⟩, ?_⟩
          rintro ⟨_, same, -, illegible⟩
          cases same
          exact illegible

end Reading

/-- A job of sources by their paths. -/
def jobOf (known : List Source) : Job := { sources := known.map fun s => (s.path, s) }

theorem has_jobOf (known : List Source) (s : Source) :
    (jobOf known).has s.path = isKnown known s := by
  unfold Job.has isKnown jobOf
  induction known with
  | nil => rfl
  | cons t rest ih =>
    rw [List.map_cons, List.lookup_cons]
    by_cases same : s.path = t.path
    · simp [same]
    · rw [beq_false_of_ne same]
      dsimp only
      rw [ih]
      simp [same]

/-- What is in the way of a source's imports: the files of the job are not read again, and are not
illegible anyway. -/
theorem hindered_iff {known : List Source} (own : Own h.files h.cwd root s) (there : root ∈ known)
    (legible : ∀ t ∈ known, Illegible h.files h.cwd t.path → t.path = root.path) :
    (∃ target ∈ find s.content, ∃ path, project.locate? h.files h.cwd s.path target = some path ∧
      (jobOf known).has path = false ∧ Illegible h.files h.cwd path) ↔
      project.Hindered h.files h.cwd root s.path := by
  have has (path : Text) : (jobOf known).has path = false ↔ path ∉ paths known := by
    rw [has_jobOf known ⟨path, []⟩]
    exact decide_eq_false_iff_not
  simp only [has]
  constructor
  · rintro ⟨target, mem, path, located, new, illegible⟩
    exact ⟨s.content, target, path, own, mem, located,
      fun same => new (same ▸ List.mem_map_of_mem there), illegible⟩
  · rintro ⟨text, target, path, given, mem, located, other, illegible⟩
    obtain rfl := Option.some.inj (own.symm.trans given)
    refine ⟨target, mem, path, located, fun inside => other ?_, illegible⟩
    obtain ⟨t, known, rfl⟩ := List.mem_map.mp inside
    exact legible t known illegible

/-- **Taking up what waits** is a walk over the sources, unless it comes to one whose imports are
hindered. -/
theorem collect_ended (around : project.Setting h root) (logged : h.Logged h') (n : Nat)
    {waiting known : List Source} (start : known = [] ∧ waiting = [root] ∨ root ∈ known)
    (good : ∀ s ∈ waiting, s.path ∉ paths known → project.Needed h.files h.cwd root s.path ∧
      Own h.files h.cwd root s)
    (legible : ∀ s ∈ known, Illegible h.files h.cwd s.path → s.path = root.path)
    (clear : ∀ s ∈ known, ¬ project.Hindered h.files h.cwd root s.path) :
    h.Ended (jobOf (walk (project.importsOf h.files h.cwd) n waiting known)) .notText
      (∃ s ∈ walk (project.importsOf h.files h.cwd) n waiting known,
        project.Hindered h.files h.cwd root s.path)
      ((project.collect n waiting (jobOf known)).perform h') := by
  induction n generalizing h' waiting known with
  | zero => exact .given logged fun ⟨s, mem, hindered⟩ => clear s mem hindered
  | succ n ih =>
    unfold collect walk
    simp only [has_jobOf]
    obtain ⟨none, -⟩ | ⟨s, rest, shape, new, -⟩ := dropWhile_shape waiting
    · rw [none]
      exact .given logged fun ⟨s, mem, hindered⟩ => clear s mem hindered
    · rw [shape]
      dsimp only
      have kept : s :: rest ⊆ waiting := shape ▸ (List.dropWhile_sublist _).subset
      obtain ⟨needed, own⟩ := good s (kept List.mem_cons_self) new
      have job : ({ sources := (jobOf known).sources ++ [(s.path, s)] } : Job) =
          jobOf (known ++ [s]) := by
        rw [jobOf, jobOf, List.map_append]
        rfl
      have found : (((find s.content).filterMap (project.meant? h.files h.cwd s.path)).filter
          fun t => !(jobOf (known ++ [s])).has t.path)
            = unknown (known ++ [s]) (project.importsOf h.files h.cwd s) := by
        simp only [has_jobOf]
        rfl
      -- The document is taken up first, so what is imported later never stands for it.
      have there : root ∈ known ++ [s] := by
        rcases start with ⟨rfl, rfl⟩ | there
        · exact List.mem_append_right _
            (List.mem_singleton.mp (kept List.mem_cons_self) ▸ List.mem_singleton_self s)
        · exact List.mem_append_left _ there
      have legible : ∀ t ∈ known ++ [s], Illegible h.files h.cwd t.path → t.path = root.path := by
        refine List.forall_mem_append.mpr ⟨legible,
          List.forall_mem_singleton.mpr fun illegible => ?_⟩
        by_contra other
        cases illegible.textAt?.symm.trans ((if_neg other).symm.trans own)
      have read :=
        readImports_ended around logged needed own (jobOf (known ++ [s])) fun _ mem => mem
      rw [found] at read
      rw [job]
      refine .congr (.bind (read.congr rfl (hindered_iff own there legible)) fun h₁ logged₁ free =>
        ih logged₁ (.inr there) (fun t mem fresh => ?_) legible ?_) rfl
          (or_iff_right_of_imp fun hindered => ?_)
      · rcases List.mem_append.mp mem with mem | mem
        · refine good t (kept (List.mem_cons_of_mem s mem)) fun inside => fresh ?_
          rw [paths, List.map_append]
          exact List.mem_append_left _ inside
        · have imported := (List.mem_filter.mp mem).1
          refine ⟨.imported needed ((leads_iff own).mpr (List.mem_map_of_mem imported)),
            own_of_imported imported ?_⟩
          exact fun same => fresh (same ▸ List.mem_map_of_mem there)
      · exact List.forall_mem_append.mpr ⟨clear, List.forall_mem_singleton.mpr free⟩
      · exact ⟨s, subset_walk _ _ _ (List.mem_append_right _ (List.mem_singleton_self s)), hindered⟩

/-- Where every file holds text, nothing is in the way. -/
theorem collect_perform (around : project.Surrounding h root) (logged : h.Logged h') (n : Nat)
    {waiting known : List Source} (start : known = [] ∧ waiting = [root] ∨ root ∈ known)
    (good : ∀ s ∈ waiting, s.path ∉ paths known → project.Needed h.files h.cwd root s.path ∧
      Own h.files h.cwd root s) :
    ∃ h'', (project.collect n waiting (jobOf known)).perform h'
      = (.ok (jobOf (walk (project.importsOf h.files h.cwd) n waiting known)), h'') ∧
      h.Logged h'' := by
  have ended := collect_ended around.toSetting logged n start good
    (fun s _ illegible => absurd illegible (around.not_illegible _))
    fun s _ => around.not_hindered s.path
  generalize (project.collect n waiting (jobOf known)).perform h' = done at ended ⊢
  cases ended with
  | given logged => exact ⟨_, rfl, logged⟩
  | stopped _ hindered =>
    obtain ⟨s, -, hindered⟩ := hindered
    exact absurd hindered (around.not_hindered s.path)

/-- **What the job of a document is to be**: the needed sources, each once and under its own path;
the document first, with its own text, and every other one with the text on disk; and the nearer
sources before the farther ones. -/
structure Complete (project : Project) (fs : FileSystem) (cwd : Place) (root : Source) (job : Job) :
    Prop where
  keys : ∀ path, path ∈ job.sources.map Prod.fst ↔ project.Needed fs cwd root path
  once : (job.sources.map Prod.fst).Nodup
  named : ∀ e ∈ job.sources, e.1 = e.2.path
  document : job.sources.head? = some (root.path, root)
  others : ∀ e ∈ job.sources.tail, textAt? fs cwd e.1 = some e.2.content
  /-- The sources stand in layers: each source in the layer of its distance, and within a layer in
  the order in which the layer before imports them. -/
  layered : ∃ n, job.toSources = (List.range n).flatMap (layer (project.importsOf fs cwd) root)
  distance : ∀ n path, path ∈ paths (layer (project.importsOf fs cwd) root n) ↔
    project.Away fs cwd root n path ∧ ∀ m < n, ¬ project.Away fs cwd root m path

/-- All layers together are a complete job. -/
theorem complete_layers {n : Nat} (last : layer (project.importsOf fs cwd) root n = []) :
    project.Complete fs cwd root (jobOf (above (project.importsOf fs cwd) root n)) := by
  have keys : (jobOf (above (project.importsOf fs cwd) root n)).sources.map Prod.fst
      = paths (above (project.importsOf fs cwd) root n) := by
    rw [jobOf, List.map_map]
    rfl
  have shape : ∃ others, above (project.importsOf fs cwd) root n = root :: others := by
    cases n with
    | zero => cases last
    | succ n => exact above_head n
  refine ⟨fun path => ?_, ?_, fun e mem => ?_, ?_, fun e mem => ?_, ⟨n, ?_⟩, mem_layer⟩
  · rw [keys]
    exact mem_above_last last path
  · rw [keys]
    exact nodup_above n
  · obtain ⟨s, -, rfl⟩ := List.mem_map.mp mem
    rfl
  · obtain ⟨others, shape⟩ := shape
    rw [shape]
    rfl
  · have once := @nodup_above (project.importsOf fs cwd) root n
    have own {s : Source} (inside : s ∈ above (project.importsOf fs cwd) root n) :
        Own fs cwd root s := by
      rw [above_eq] at inside
      obtain ⟨m, -, inside⟩ := List.mem_flatMap.mp inside
      exact own_layer inside
    obtain ⟨others, shape⟩ := shape
    rw [shape] at mem once own
    obtain ⟨s, later, rfl⟩ := List.mem_map.mp mem
    have other : s.path ≠ root.path := fun same =>
      (List.nodup_cons.mp once).1 (same ▸ List.mem_map_of_mem later)
    exact (if_neg other).symm.trans (own (List.mem_cons_of_mem root later))
  · rw [← above_eq, Job.toSources, jobOf, List.map_map]
    exact List.map_id _

/-- **Resolving a document ends, and gives a job of just the sources that it needs.** -/
theorem resolve_exact (project : Project) (h : Host) (path text : Text)
    (around : project.Surrounding h ⟨Path.Posix.normalise path, text⟩) :
    ∃ job h', (project.resolve path text).perform h = (.ok job, h') ∧ h.Logged h' ∧
      project.Complete h.files h.cwd ⟨Path.Posix.normalise path, text⟩ job := by
  obtain ⟨n, last⟩ : ∃ n, layer (project.importsOf h.files h.cwd) ⟨Path.Posix.normalise path,
    text⟩ n = [] :=
    exists_layer_nil length_above
  obtain ⟨h₁, performed, logged⟩ := collect_perform around (.refl h) rounds (.inl ⟨rfl, rfl⟩)
    fun s mem _ => List.mem_singleton.mp mem ▸ ⟨.document, own_root⟩
  have empty : jobOf [] = {} := rfl
  have complete := complete_layers last
  rw [walk_eq last (length_above n), empty] at performed
  generalize jobOf (above _ _ n) = job at performed complete
  obtain ⟨h₂, noted, logged'⟩ := Log.debug_logged owner ("Resolved ".toList ++ Text.ofNat job.size
    ++ " source(s)".toList) [("file".toList, .text (Path.Posix.normalise path))] h₁
    (logged.shows.ready around.ready)
  refine ⟨job, h₂, ?_, logged.trans logged', complete⟩
  unfold resolve
  dsimp only
  rw [Action.perform_bind_ok performed, Action.perform_bind_ok noted]
  rfl

/-- A document that imports itself and three files; these import it, each other, a file that may not
be read and one that is not there.  On disk the document has an older text. -/
def knot : Host where
  files :=
    { entries := [(["p".toList], .directory),
        (["p".toList, "A.sol".toList], .file (Utf8.encode "import './Old.sol';".toList) .plain),
        (["p".toList, "B.sol".toList],
          .file (Utf8.encode "import './C.sol'; import './A.sol';".toList) .plain),
        (["p".toList, "C.sol".toList],
          .file (Utf8.encode "import './B.sol'; import './No.sol';".toList) .plain),
        (["p".toList, "D.sol".toList], .file (Utf8.encode "import './Gone.sol';".toList) .plain),
        (["p".toList, "No.sol".toList], .file [0xff] { readable := false })] }

/-- The text of the document. -/
def knotText : Text :=
  "import './C.sol'; import './A.sol'; import './D.sol'; import './B.sol';".toList

theorem knot_resolved : ∃ job h',
    (resolve { root := "/p".toList } "/p/A.sol".toList knotText).perform knot = (.ok job, h') ∧
    knot.Logged h' ∧ Complete { root := "/p".toList } knot.files knot.cwd
      ⟨Path.Posix.normalise "/p/A.sol".toList, knotText⟩ job := by
  refine resolve_exact { root := "/p".toList } knot "/p/A.sol".toList knotText
    ⟨⟨?_, rfl, nofun, ?_⟩, ?_⟩
  · exact FileSystem.isTree_of_entries (by decide +kernel)
  · rintro - - - - - - - - ⟨path, mem, -⟩
    cases mem
  · intro q content x there free
    have checked : ∀ e ∈ knot.files.entries,
        (match e.2 with
          | .file content mode => !mode.readable || (Utf8.read? content).isSome
          | .directory => true) = true := by
      decide +kernel
    rcases FileSystem.mem_entries there with ⟨-, directory⟩ | mem
    · cases directory
    · have text := checked _ mem
      dsimp only at text
      rwa [free, Bool.not_true, Bool.false_or] at text

/-- A document with an import that is to be passed over has no job if that cannot be noted. -/
theorem gone_unlogged :
    ∃ h', (resolve { root := "/p".toList } "/p/A.sol".toList "import './Gone.sol';".toList).perform
    { knot with log := Host.homeless.log } = (.error .noHome, h') := by
  obtain ⟨n, more⟩ : ∃ n, rounds = n + 1 := ⟨_, rfl⟩
  unfold resolve
  rw [more]
  exact ⟨_, rfl⟩

end Project
end Import
end ContractCheck
