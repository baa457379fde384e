import ContractCheck.Proofs.Compilation.Staged
import ContractCheck.Proofs.FileSystem.Receiving
import ContractCheck.Proofs.Host.Logged
import ContractCheck.Proofs.Import.Mirrored
import ContractCheck.Proofs.Layout.Copies

/-! # Copies of sources

The copies of the sources of a job are written one after the other, each into its mirrored directory
and under its marked name.  What a turn can change is the file at the place of the copy, the log,
and directories that are missing (`stageSource_turn`).  Different sources have their copies at
different places, so every copy that was written stays as it was written, and a file without the
marker in front of its name is never touched (`stage_copies`).
-/
namespace ContractCheck

open ContractCheck.Action
open FileSystem (placeOf Fits)
open Layout (CopyRow)
open ContractCheck.Path (Usable)

variable {h h' h'' : Host}

namespace Host

/-- What logging, making directories and writing to files at some places make of a host. -/
structure Stores (places : Place → Prop) (h h' : Host) : Prop where
  shows : h.Shows [] h'
  atLog : ∀ q, h'.AtLog q → h.AtLog q
  files : h.files.AlikeBut (fun q => places q ∨ h.AtLog q) (fun _ => True) h'.files

namespace Stores

variable {places places' : Place → Prop}

theorem refl (places : Place → Prop) (h : Host) : h.Stores places h :=
  ⟨.refl h, fun _ => id, .refl ..⟩

theorem cwd (stores : h.Stores places h') : h'.cwd = h.cwd := stores.shows.cwd

theorem mono (stores : h.Stores places h') (less : ∀ q, places q → places' q) :
    h.Stores places' h' :=
  ⟨stores.shows, stores.atLog, stores.files.mono (fun q => Or.imp_left (less q)) fun _ => id⟩

theorem trans (first : h.Stores places h') (second : h'.Stores places h'') :
    h.Stores places h'' where
  shows := first.shows.trans second.shows
  atLog q := first.atLog q ∘ second.atLog q
  files := first.files.trans (second.files.mono (fun q => Or.imp_right (first.atLog q)) fun _ => id)

theorem of_logged (logged : h.Logged h') : h.Stores places h' :=
  ⟨logged.shows, logged.atLog, logged.files.mono (fun _ => .inr) fun _ _ => trivial⟩

theorem of_files {fs : FileSystem}
    (files : h.files.AlikeBut (fun q => places q ∨ h.AtLog q) (fun _ => True) fs) :
    h.Stores places { h with files := fs } :=
  ⟨.files h fs, fun _ => id, files⟩

/-- A file that is at none of the places and is no log stays as it is, and none comes to be
there. -/
theorem file_iff (stores : h.Stores places h') {q : Place} (other : ¬ places q)
    (aside : ¬ h.AtLog q) {content : Bytes} {x : Mode} :
    h'.files.get? q = some (.file content x) ↔ h.files.get? q = some (.file content x) :=
  stores.files.file_iff (not_or.mpr ⟨other, aside⟩)

end Stores
end Host

namespace Staging

variable (s : Staging)

/-- A source and where its copy is. -/
def entry (source : Source) : StagedFile :=
  { source := source.path, staged := s.layout.stagedPath source.path }

/-- Whether the copy of a source can be written: the source is no copy itself, and the file system
takes the path of the copy and can receive it. -/
structure Writable (h : Host) (source : Source) : Prop where
  own : s.layout.isTransient (Layout.splitPath source.path).2 = false
  fits : Fits (s.layout.stagedPath source.path)
  receives : h.files.Receives (s.placeFor h.cwd source)

/-- How the turn of a source ends. -/
inductive Turn (source : Source) (h : Host) : Except Fault (Option StagedFile) × Host → Prop where
  | written {h' : Host} (can : s.Writable h source)
      (stores : h.Stores (· = s.placeFor h.cwd source) h')
      (holds : ¬ h.AtLog (s.placeFor h.cwd source) →
        ∃ x, h'.files.get? (s.placeFor h.cwd source) = some (.file (s.copyOf source) x)) :
      Turn source h (.ok (some (s.entry source)), h')
  | passed {h' : Host} (cannot : ¬ s.Writable h source) (stores : h.Stores (fun _ => False) h') :
      Turn source h (.ok none, h')

variable {s} {m : Char} {source : Source} {lead names : List Text} {name : Text}

/-! ## One source -/

/-- What the system refuses is logged. -/
theorem refused_logged (source : Source) (e : Fault) (stores : h.Stores (fun _ => False) h')
    (ready : h.LogReady) :
    ∃ h'', (do
      Log.warning owner ("Failed to stage ".toList ++ source.path ++ " at ".toList ++
        s.layout.stagedPath source.path ++
        ": ".toList ++ e.message)
      pure false : Action Bool).perform h' = (.ok false, h'') ∧ h.Stores (fun _ => False) h'' := by
  obtain ⟨h'', logged, records⟩ :=
    Log.write_logged .warning owner ("Failed to stage ".toList ++ source.path ++
    " at ".toList ++ s.layout.stagedPath source.path ++ ": ".toList ++ e.message) [] h'
      (stores.shows.ready ready)
  exact ⟨h'', perform_bind_ok logged, stores.trans (.of_logged records)⟩

/-- **A copy is written** if the file system takes its path and can receive it, and passed over if
not. -/
theorem writeCopy_stores (own : CopyRow s.layout m source.path lead names name)
    (usable : Usable (s.layout.stagedPath source.path)) (ready : h.LogReady) :
    (∃ h', (s.writeCopy source).perform h = (.ok true, h') ∧
      (Fits (s.layout.stagedPath source.path) ∧ h.files.Receives (s.placeFor h.cwd source)) ∧
      h.Stores (· = s.placeFor h.cwd source) h' ∧
      ∃ x, h'.files.get? (s.placeFor h.cwd source) = some (.file (s.copyOf source) x)) ∨
    ∃ h', (s.writeCopy source).perform h = (.ok false, h') ∧
      ¬ (Fits (s.layout.stagedPath source.path) ∧ h.files.Receives (s.placeFor h.cwd source)) ∧
      h.Stores (fun _ => False) h' := by
  have place : s.placeFor h.cwd source =
    Layout.mirror s.layout.contracts s.layout.temp names ++ [m :: name] := own.place h.cwd
  have tidy : Path.Posix.tidy (s.layout.stagedPath source.path) = s.layout.stagedPath source.path :=
    own.tidy.trans own.staged.symm
  have leads : placeOf h.cwd (s.layout.stagedPath source.path) = s.placeFor h.cwd source := by
    rw [placeFor, tidy]
  have can_iff :=
    FileSystem.receives_iff own.mirrored own.marked own.plain h.files h.cwd (s.copyOf source)
  rw [← own.staged, ← place, ← own.parent] at can_iff
  have made {places : Place → Prop} : h.Stores places
      { h with
        files := (h.files.makeDirectories h.cwd
          (Path.Posix.parent (s.layout.stagedPath source.path))).1 } :=
    .of_files (FileSystem.makeDirectories_alike (fun _ => trivial) ..)
  unfold writeCopy writeText writeFile
  dsimp only
  rw [tidy, perform_orSystem, perform_bind, perform_makeDirectories]
  cases refused : (h.files.makeDirectories h.cwd
    (Path.Posix.parent (s.layout.stagedPath source.path))).2 with
  | some e =>
    dsimp only [andThen, orElse]
    rw [if_pos (show (Fault.file e _).fromSystem =
      true from FileSystem.makeDirectories_fromSystem usable.parent refused)]
    obtain ⟨h', passed, stores⟩ := refused_logged (s := s) source (.file e _) made ready
    refine .inr ⟨h', passed, fun held => ?_, stores⟩
    rw [(can_iff.mpr held).1] at refused
    cases refused
  | none =>
    generalize (h.files.makeDirectories h.cwd
      (Path.Posix.parent (s.layout.stagedPath source.path))).1 = fs at can_iff made
    dsimp only [andThen]
    rw [perform_bind, perform_change]
    dsimp only
    rw [show Utf8.encode (s.stagedContent source) = s.copyOf source from rfl]
    cases wrote : fs.write h.cwd (s.layout.stagedPath source.path) (s.copyOf source) with
    | error e =>
      dsimp only [andThen, orElse]
      rw [if_pos (show (Fault.file e _).fromSystem =
        true from FileSystem.update_fromSystem usable wrote)]
      obtain ⟨h', passed, stores⟩ := refused_logged (s := s) source (.file e _) made ready
      refine .inr ⟨h', passed, fun held => ?_, stores⟩
      obtain ⟨-, fs', done⟩ := can_iff.mpr held
      cases wrote.symm.trans done
    | ok fs' =>
      obtain ⟨p, x, led, there, -⟩ := FileSystem.write_get? wrote
      obtain rfl := (FileSystem.resolve_place led).trans leads
      exact .inl ⟨_, rfl, can_iff.mp ⟨refused, fs', wrote⟩,
        made.trans (.of_files (FileSystem.update_alike wrote (.inl leads))), x, there⟩

/-- **The turn of a source.** -/
theorem stageSource_turn (own : CopyRow s.layout m source.path lead names name)
    (usable : s.layout.isTransient (Layout.splitPath source.path).2 = false →
      Usable (s.layout.stagedPath source.path))
    (ready : h.LogReady) : s.Turn source h ((s.stageSource source).perform h) := by
  unfold stageSource
  cases copy : s.layout.isTransient (Layout.splitPath source.path).2 with
  | true =>
    rw [if_pos rfl]
    obtain ⟨h', logged, records⟩ :=
      Log.debug_logged owner ("Skipping transient source ".toList ++ source.path) [] h ready
    rw [perform_bind_ok logged]
    exact .passed (fun can => Bool.false_ne_true (can.own.symm.trans copy)) (.of_logged records)
  | false =>
    rw [if_neg Bool.false_ne_true]
    dsimp only
    rcases writeCopy_stores own (usable copy) ready with
      ⟨h₁, wrote, ⟨fits, receives⟩, stores, x, holds⟩ | ⟨h₁, passed, cannot, stores⟩
    · obtain ⟨h', logged, records⟩ :=
        Log.debug_logged owner ("Staged ".toList ++ source.path ++ " -> ".toList ++
        s.layout.stagedPath source.path) [] h₁ (stores.shows.ready ready)
      rw [perform_bind_ok wrote, if_pos rfl, perform_bind_ok logged]
      refine .written ⟨copy, fits, receives⟩ (stores.trans (.of_logged records)) fun aside =>
        ⟨x, ?_⟩
      exact (records.files.file_iff fun inside => aside (stores.atLog _ inside)).mpr holds
    · rw [perform_bind_ok passed, if_neg Bool.false_ne_true]
      exact .passed (fun can => cannot ⟨can.fits, can.receives⟩) stores

/-! ## One after the other -/

variable (s) in
/-- What staging sources in order comes to. -/
structure Copies (sources : List Source) (h : Host) (staged : List StagedFile) (h' : Host) :
    Prop where
  order : staged.Sublist (sources.map s.entry)
  /-- Exactly those are staged that can be written when it is their turn. -/
  exact : ∀ before source after, sources = before ++ source :: after →
    (s.entry source ∈ staged ↔ s.Writable ((s.stageSources before).perform h).2 source)
  stores : h.Stores (fun q => ∃ source ∈ sources, s.entry source ∈ staged ∧
    q = s.placeFor h.cwd source) h'
  holds : ∀ source ∈ sources, s.entry source ∈ staged → ¬ h.AtLog (s.placeFor h.cwd source) →
    ∃ x, h'.files.get? (s.placeFor h.cwd source) = some (.file (s.copyOf source) x)

/-- What is done after a source does not depend on what was staged. -/
theorem perform_stageSources_cons {one : Option StagedFile}
    (performed : (s.stageSource source).perform h = (.ok one, h'))
    (rest : List Source) :
    ((s.stageSources (source :: rest)).perform h).2 = ((s.stageSources rest).perform h').2 := by
  rw [stageSources, perform_bind_ok performed, perform_bind]
  rcases (s.stageSources rest).perform h' with ⟨_ | _, _⟩ <;> rfl

variable (s) in
/-- Whether two sources have different paths, and their copies different places. -/
structure Apart (cwd : Place) (a b : Source) : Prop where
  source : a.path ≠ b.path
  copy : s.placeFor cwd a ≠ s.placeFor cwd b

theorem entry_ne {cwd : Place} {a b : Source} (apart : s.Apart cwd a b) : s.entry a ≠ s.entry b :=
  fun same => apart.source (congrArg StagedFile.source same)

/-- **One source and the others.** -/
theorem Copies.cons {rest : List Source} {one : Option StagedFile} {more : List StagedFile}
    (turn : s.Turn source h (.ok one, h'))
    (performed : (s.stageSource source).perform h = (.ok one, h'))
    (others : s.Copies rest h' more h'') (apart : ∀ y ∈ rest, s.Apart h.cwd source y) :
    s.Copies (source :: rest) h (one.toList ++ more) h'' := by
  have first : s.entry source ∉ more := fun mem => by
    obtain ⟨y, inside, same⟩ := List.mem_map.mp (others.order.subset mem)
    exact entry_ne (apart y inside) same.symm
  have later {y : Source} (mem : y ∈ rest) : s.entry y ∈ one.toList ++ more ↔ s.entry y ∈ more := by
    refine ⟨fun inside => (List.mem_append.mp inside).resolve_left fun here => ?_,
      List.mem_append_right _⟩
    cases turn with
    | written => exact entry_ne (apart y mem) (List.mem_singleton.mp here).symm
    | passed => cases here
  have own : s.entry source ∈ one.toList ++ more ↔ s.Writable h source := by
    cases turn with
    | written can => exact ⟨fun _ => can, fun _ => List.mem_cons_self⟩
    | passed cannot => exact ⟨fun mem => absurd mem first, fun can => absurd can cannot⟩
  have stores : h.Stores (fun q => s.entry source ∈ one.toList ++ more ∧
      q = s.placeFor h.cwd source) h' := by
    cases turn with
    | written can stores => exact stores.mono fun q same => ⟨own.mpr can, same⟩
    | passed cannot stores => exact stores.mono fun _ => False.elim
  have cwd : h'.cwd = h.cwd := stores.cwd
  have after := others.stores
  rw [cwd] at after
  refine ⟨?_, fun before y behind shape => ?_, ?_, fun y mem staged aside => ?_⟩
  · cases turn with
    | written => exact others.order.cons_cons _
    | passed => exact others.order.cons _
  · cases before with
    | nil =>
      obtain ⟨rfl, rfl⟩ := List.cons.inj shape
      exact own
    | cons z before =>
      obtain ⟨rfl, rfl⟩ := List.cons.inj shape
      rw [later (by simp), perform_stageSources_cons performed, others.exact before y behind rfl]
  · refine (stores.mono fun q => ?_).trans (after.mono fun q => ?_)
    · rintro ⟨staged, same⟩
      exact ⟨source, List.mem_cons_self, staged, same⟩
    · rintro ⟨y, mem, staged, same⟩
      exact ⟨y, List.mem_cons_of_mem _ mem, (later mem).mpr staged, same⟩
  · rcases List.mem_cons.mp mem with rfl | mem
    · -- No copy that is written later is at the place of this one.
      have aside' : ¬ h'.AtLog (s.placeFor h.cwd y) := fun inside => aside (stores.atLog _ inside)
      have kept : ¬ ∃ z ∈ rest, s.entry z ∈ more ∧ s.placeFor h.cwd y = s.placeFor h.cwd z :=
        fun ⟨z, inside, _, same⟩ => (apart z inside).copy same
      cases turn with
      | written can stores holds =>
        obtain ⟨x, there⟩ := holds aside
        exact ⟨x, (after.file_iff kept aside').mpr there⟩
      | passed cannot => exact absurd (own.mp staged) cannot
    · have there := others.holds y mem ((later mem).mp staged)
      rw [cwd] at there
      exact there fun inside => aside (stores.atLog _ inside)

variable (s) in
/-- Sources that can be staged side by side: each has a copy of its own, no two are the same file,
and the path of each copy can be asked for. -/
structure Stageable (cwd : Place) (sources : List Source) : Prop where
  own : ∀ source ∈ sources, Layout.Copied s.layout source.path
  distinct : sources.Pairwise fun a b => placeOf cwd a.path ≠ placeOf cwd b.path
  usable : ∀ source ∈ sources, s.layout.isTransient (Layout.splitPath source.path).2 = false →
    Usable (s.layout.stagedPath source.path)

theorem Stageable.tail {cwd : Place} {rest : List Source} (can : s.Stageable cwd (source :: rest)) :
    s.Stageable cwd rest where
  own := (List.forall_mem_cons.mp can.own).2
  distinct := (List.pairwise_cons.mp can.distinct).2
  usable := (List.forall_mem_cons.mp can.usable).2

section Layout

variable (single : Layout.Named s.layout) (marker : s.layout.marker = [m])
  (other : Layout.isSlash m = false)
include single marker other

/-- Sources that are not the same file are apart. -/
theorem apart_of_distinct {cwd : Place} {a b : Source} (own : Layout.Copied s.layout a.path)
    (own' : Layout.Copied s.layout b.path) (distinct : placeOf cwd a.path ≠ placeOf cwd b.path) :
    s.Apart cwd a b := by
  obtain ⟨lead, names, name, row⟩ := own.row single marker other
  obtain ⟨lead', names', name', row'⟩ := own'.row single marker other
  exact ⟨fun same => distinct (by rw [same]), fun same => distinct (row.place_unique row' same)⟩

/-- A copy has a name with the marker in front. -/
theorem placeFor_marked (own : Layout.Copied s.layout source.path) (cwd : Place) :
    ∃ name, (s.placeFor cwd source).getLast? = some name ∧ s.layout.isTransient name = true := by
  obtain ⟨lead, names, name, row⟩ := own.row single marker other
  refine ⟨m :: name, ?_, ?_⟩
  · rw [placeFor, row.place, List.getLast?_concat]
  · rw [Layout.isTransient, marker]
    exact Text.startsWith_iff.mpr ⟨name, rfl⟩

/-- **Sources in order.** -/
theorem stageSources_copies {sources : List Source} (can : s.Stageable h.cwd sources)
    (ready : h.LogReady) :
    ∃ staged h', (s.stageSources sources).perform h = (.ok staged, h') ∧
      s.Copies sources h staged h' := by
  induction sources generalizing h with
  | nil =>
    exact ⟨[], h, rfl, List.Sublist.slnil, fun before _ after shape => by simp at shape,
      .refl _ h, nofun⟩
  | cons source rest ih =>
    obtain ⟨own, owns⟩ := List.forall_mem_cons.mp can.own
    obtain ⟨lead, names, name, row⟩ := own.row single marker other
    have turn := stageSource_turn row (can.usable source List.mem_cons_self) ready
    have apart : ∀ y ∈ rest, s.Apart h.cwd source y := fun y mem =>
      apart_of_distinct single marker other own (owns y mem)
        ((List.pairwise_cons.mp can.distinct).1 y mem)
    obtain ⟨one, h₁, performed, shows⟩ :
        ∃ one h₁, (s.stageSource source).perform h = (.ok one, h₁) ∧ h.Shows [] h₁ := by
      cases turn_ : (s.stageSource source).perform h with
      | mk out h₁ =>
        rw [turn_] at turn
        cases turn with
        | written _ stores => exact ⟨_, _, rfl, stores.shows⟩
        | passed _ stores => exact ⟨_, _, rfl, stores.shows⟩
    rw [performed] at turn
    obtain ⟨more, h', performed', others⟩ := ih (h := h₁) (shows.cwd ▸ can.tail) (shows.ready ready)
    refine ⟨one.toList ++ more, h', ?_, .cons turn performed others apart⟩
    rw [stageSources, perform_bind_ok performed, perform_bind_ok performed']
    rfl

/-- **Staging a job.**  It ends, and exactly those of its sources are staged, in order, that are no
copies themselves and whose copies can be written when it is their turn.  Every copy that was staged
is there in the end with the content that its source has for it, the copies of different sources
have different paths, and no file changes, comes or goes whose name has no marker in front. -/
theorem stage_copies {job : Job} (can : s.Stageable h.cwd job.toSources) (ready : h.LogReady) :
    ∃ staged h', (s.stage job).perform h = (.ok staged, h') ∧ s.Copies job.toSources h staged h' ∧
      job.toSources.Pairwise (fun a b => s.layout.stagedPath a.path ≠ s.layout.stagedPath b.path) ∧
      ∀ q, (∀ name, q.getLast? = some name → s.layout.isTransient name = false) → ¬ h.AtLog q →
        ∀ content x,
          h'.files.get? q = some (.file content x) ↔ h.files.get? q = some (.file content x) := by
  obtain ⟨staged, h', performed, copies⟩ := stageSources_copies single marker other can ready
  refine ⟨staged, h', performed, copies, ?_, fun q plain aside content x =>
    copies.stores.file_iff ?_ aside⟩
  · refine can.distinct.imp_of_mem fun mem mem' distinct same => ?_
    refine (apart_of_distinct single marker other (can.own _ mem) (can.own _ mem') distinct).copy ?_
    rw [placeFor, placeFor, same]
  · rintro ⟨source, mem, -, rfl⟩
    obtain ⟨name, last, marked⟩ := placeFor_marked single marker other (can.own source mem) h.cwd
    exact Bool.false_ne_true ((plain name last).symm.trans marked)

end Layout

/-! ## A job that is staged in part -/

/-- The sources of a job: a contract, one in a directory without staged copies, and a copy. -/
def mixedJob : Job where
  sources := [("/p/contracts/A.sol".toList,
    { path := "/p/contracts/A.sol".toList, content := "import './B.sol';".toList }),
    ("/p/contracts/x/B.sol".toList,
      { path := "/p/contracts/x/B.sol".toList, content := "contract B {}".toList }),
    ("/p/contracts/~C.sol".toList, { path := "/p/contracts/~C.sol".toList, content := [] })]

/-- A project in which nothing can be made in the directory of staged copies, but for what has a
place there already. -/
def partlyStaged : Host where
  files :=
    { entries := [(["p".toList], .directory), (["p".toList, ".temp".toList], .directory),
        (["p".toList, ".temp".toList, "~A.sol".toList], .file [] .plain),
        (["p".toList, "contracts".toList], .directory),
        (["p".toList, "contracts".toList, "A.sol".toList],
          .file (Utf8.encode "import './B.sol';".toList) .plain)]
      denied := [["p".toList, ".temp".toList]] }

theorem mixedJob_stageable : ({} : Staging).Stageable [] mixedJob.toSources where
  own source mem := by
    simp only [mixedJob, Job.toSources, List.map_cons, List.map_nil, List.mem_cons,
      List.not_mem_nil, or_false] at mem
    rcases mem with rfl | rfl | rfl <;> exact ⟨by decide +kernel, by decide, by decide +kernel,
      by decide, by decide⟩
  distinct := by decide +kernel
  usable := by decide +kernel

/-- Only the copy that was there is written, and the contract is left alone. -/
theorem mixedJob_staged :
    ∃ h', (({} : Staging).stage mixedJob).perform partlyStaged =
        (.ok [{ source := "/p/contracts/A.sol".toList, staged := "/p/.temp/~A.sol".toList }], h') ∧
      (∃ x, h'.files.get? ["p".toList, ".temp".toList, "~A.sol".toList] =
        some (.file (Utf8.encode "import './~B.sol';".toList) x)) ∧
      h'.files.get? ["p".toList, "contracts".toList, "A.sol".toList] =
        some (.file (Utf8.encode "import './B.sol';".toList) .plain) := by
  have silent (q : Place) : ¬ partlyStaged.AtLog q := by
    rintro ⟨path, mem, -⟩
    cases mem
  obtain ⟨staged, h', performed, copies, -, spared⟩ := stage_copies (s := {})
    (h := partlyStaged) (m := '~')
    (Import.named_default ['~']) rfl rfl mixedJob_stageable (fun _ planned => nomatch planned)
  have only : ((({} : Staging).stage mixedJob).perform partlyStaged).1.toOption =
      some [{ source := "/p/contracts/A.sol".toList, staged := "/p/.temp/~A.sol".toList }] := by
      decide +kernel
  rw [performed] at only
  obtain rfl := Option.some.inj only
  refine ⟨h', performed, ?_, ?_⟩
  · have there := copies.holds _ List.mem_cons_self (by decide +kernel) (silent _)
    have place : ({} : Staging).placeFor []
      { path := "/p/contracts/A.sol".toList, content := "import './B.sol';".toList } =
      ["p".toList, ".temp".toList, "~A.sol".toList] := by decide +kernel
    have copy : ({} : Staging).copyOf
      { path := "/p/contracts/A.sol".toList, content := "import './B.sol';".toList } =
      Utf8.encode "import './~B.sol';".toList := by decide +kernel
    rwa [show partlyStaged.cwd = [] from rfl, place, copy] at there
  · exact (spared _ (by decide +kernel) (silent _) _ _).mpr (by decide +kernel)

/-- Staging with a marker that no path can have. -/
def zeroMarked : Staging where
  layout := { marker := ['\x00'] }

/-- A job of one contract. -/
def contractJob : Job := .single "/p/contracts/A.sol".toList "contract A {}".toList

/-- Staging with such a marker fails, though the sources each have a copy of their own. -/
theorem zeroMarked_fails :
    Layout.isSlash '\x00' = false ∧ Layout.Named zeroMarked.layout ∧
      (∀ source ∈ contractJob.toSources, Layout.Copied zeroMarked.layout source.path) ∧
      contractJob.toSources.Pairwise (fun a b => placeOf [] a.path ≠ placeOf [] b.path) ∧
      ((zeroMarked.stage contractJob).perform {}).1 =
        .error (.file .unusablePath "/p/.temp/\x00A.sol".toList) := by
  refine ⟨by decide, Import.named_default _, fun source mem => ?_, by decide +kernel, rfl⟩
  obtain rfl := List.mem_singleton.mp mem
  exact ⟨by decide +kernel, by decide, by decide +kernel, by decide, by decide⟩

end Staging
end ContractCheck
