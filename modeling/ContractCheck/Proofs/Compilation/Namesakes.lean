import ContractCheck.Proofs.Compilation.Staged
import ContractCheck.Proofs.Diagnostic.Printing
import ContractCheck.Proofs.Path.Names
import ContractCheck.Proofs.Schedule.Findings

/-! # Files of one name

A document is compiled together with the files that it imports, and of all that the tools report the
diagnostics are shown that are in a file of the document's name.  So what is located in another file
of the job is left out, unless that file has the same name in another directory: then it is shown as
if it were the document's own (`published_by_name`).
-/
namespace ContractCheck

open ContractCheck.Path Layout ContractCheck.Action

/-! ## Where diagnostics are located -/

/-- What the tools wrote, source by source. -/
abbrev Output := List (Source × List Text)

/-- The file that a diagnostic is located in, when it was read from what the tools wrote for a
source.  A bare name is that of a file beside the source. -/
def origin (x : Source × Diagnostic) : Text :=
  if x.2.path = x.2.file then Posix.join (Posix.dirname x.1.path) x.2.file else x.2.path

/-- The diagnostics that are shown for a document. -/
def Document.shown (d : Document) (located : List (Source × Diagnostic)) :
    List (Source × Diagnostic) :=
  located.filter fun x => x.2.file = d.basename

/-- No other source has the name of the document. -/
def Document.Sole (d : Document) (sources : List Source) : Prop :=
  ∀ s ∈ sources, Posix.leaf s.path = d.basename → s.path = d.path

instance (d : Document) (sources : List Source) : Decidable (d.Sole sources) :=
  inferInstanceAs (Decidable (∀ s ∈ sources, _))

/-- Of what is shown, all that is located in one of the sources is in the document's own file. -/
def Document.Own (d : Document) (sources : List Source) (shown : List (Source × Diagnostic)) :
    Prop :=
  ∀ x ∈ shown, origin x ∈ sources.map Source.path → origin x = d.path

/-- A file name that the tools can print as it is. -/
structure Layout.Prints (l : Layout) (name : Text) : Prop where
  isName : IsName name
  inLine : name.InLine
  unmarked : l.stripMarker name = name

namespace ReportReader

variable {r : ReportReader} {out : Output} {x : Source × Diagnostic} {d : Document}

/-- The diagnostics that are read from what the tools wrote, each with the source that it was
written for. -/
def located (r : ReportReader) (out : Output) : List (Source × Diagnostic) :=
  out.flatMap fun part => (r.read part.2).map fun x => (part.1, x)

theorem read_located (r : ReportReader) (out : Output) :
    r.read (out.flatMap Prod.snd) = (r.located out).map Prod.snd := by
  induction out with
  | nil => rfl
  | cons part out ih =>
    rw [List.flatMap_cons, read_append, ih, located, located, List.flatMap_cons, List.map_append,
      List.map_map]
    exact congrArg (· ++ _) (List.map_id _).symm

/-- The errors of a compilation that belong to a document. -/
theorem ownErrors_located (r : ReportReader) (out : Output) (d : Document) :
    Scheduler.ownErrors d ((r.read (out.flatMap Prod.snd)).map Diagnostic.toCompilerError)
      = (d.shown (r.located out)).map fun x => x.2.toEditor compilerSource := by
  rw [read_located, Scheduler.ownErrors, Document.shown, List.map_map, List.filter_map,
    List.map_map]
  rfl

/-- What is read in a block refers to a file. -/
theorem sourceOf_of_readLines {lines : List Text} {x : Diagnostic}
    (read : r.readLines? lines = some (.ok x)) :
    ∃ place, r.sourceOf place = (x.file, x.path) := by
  unfold readLines? at read
  split at read
  · obtain read := Option.some.inj read
    unfold readBlock at read
    split at read
    · cases read
    · split at read
      · cases read
      · next l _ =>
        obtain rfl := Except.ok.inj read
        exact ⟨l.file, rfl⟩
  · cases read

theorem sourceOf_of_mem {chunks : List Text} {x : Diagnostic} (mem : x ∈ r.read chunks) :
    ∃ place, r.sourceOf place = (x.file, x.path) := by
  obtain ⟨block, inside, ok⟩ := List.mem_filterMap.mp mem
  obtain ⟨chunk, -, inside⟩ := List.mem_flatMap.mp inside
  obtain ⟨text, -, read⟩ := List.mem_filterMap.mp inside
  cases block with
  | error e => cases ok
  | ok y =>
    obtain rfl := Option.some.inj ok
    exact sourceOf_of_readLines read

/-- A file is a bare name, or a name that was resolved in a directory. -/
theorem sourceOf_cases (posix : r.platform = .posix) {place file path : Text}
    (source : r.sourceOf place = (file, path)) :
    path = file ∨ ∃ directory, path = Posix.absolute r.cwd (Posix.join directory file) := by
  unfold sourceOf at source
  dsimp only at source
  split at source
  · obtain ⟨rfl, rfl⟩ := Prod.mk.inj source
    exact .inl rfl
  · obtain ⟨rfl, rfl⟩ := Prod.mk.inj source
    rw [posix]
    exact .inr ⟨_, rfl⟩

/-- **A diagnostic is located in a file of the name that it bears.** -/
theorem leaf_origin (posix : r.platform = .posix) (mem : x ∈ r.located out) (bare : '/' ∉ x.2.file)
    (proper : Proper x.2.file) : Posix.leaf (origin x) = x.2.file := by
  obtain ⟨part, -, inside⟩ := List.mem_flatMap.mp mem
  obtain ⟨y, read, rfl⟩ := List.mem_map.mp inside
  obtain ⟨place, source⟩ := sourceOf_of_mem read
  unfold origin
  split
  · exact leaf_join _ bare proper
  · next other =>
    obtain ⟨directory, path⟩ := (sourceOf_cases posix source).resolve_left other
    dsimp only at bare proper path ⊢
    rw [path]
    exact leaf_absolute _ _ bare proper

/-! ## Documents among files of their name -/

/-- A notice about the first character of a file. -/
def notice (name : Text) : Notice :=
  { severity := "Error".toList, message := [], name, line := 1, column := 1, third := "|".toList,
    fourth := "|".toList, underline := "^".toList, marked := false, closed := true }

theorem notice_printable {l : Layout} {name : Text} (prints : l.Prints name) :
    (notice name).Printable l where
  severity_given := (by decide : "Error".toList ≠ [])
  severity_trimmed := (by decide +kernel : Text.trim "Error".toList = "Error".toList)
  severity_bare := (by decide : ':' ∉ "Error".toList)
  message_trimmed := rfl
  name := prints.isName
  unmarked := prints.unmarked
  marks := nofun
  small_line := Text.small_number (by decide : 1 ≤ Text.maxDigits)
  small_column := Text.small_number (by decide : 1 ≤ Text.maxDigits)
  third_given := (by decide : "|".toList ≠ [])
  fourth_given := (by decide : "|".toList ≠ [])
  underline_given := (by decide : "^".toList ≠ [])
  inLine := by
    have rest : ∀ t ∈ ["Error".toList, [], "|".toList, "^".toList], Text.InLine t := by
      unfold Text.InLine; decide
    have named := prints.inLine
    simp only [notice, List.forall_mem_cons] at rest ⊢
    tauto

/-- Only a document's own diagnostics are shown, if no other source has its name. -/
theorem own_of_sole (posix : r.platform = .posix) {sources : List Source}
    (proper : Proper d.basename)
    (sole : d.Sole sources) (out : Output) : d.Own sources (d.shown (r.located out)) := by
  obtain ⟨bare, -⟩ := (leaf_cases d.path).resolve_left proper.1
  intro x shown inside
  obtain ⟨mem, named⟩ := List.mem_filter.mp shown
  have same : x.2.file = d.basename := of_decide_eq_true named
  obtain ⟨s, there, path⟩ := List.mem_map.mp inside
  have leaf : Posix.leaf s.path = d.basename := by
    rw [path, leaf_origin posix mem (same ▸ bare) (same ▸ proper), same]
  rw [← path]
  exact sole s there leaf

/-- A source of the document's name may be reported on by its bare name, and then that is shown. -/
theorem shown_of_leaf (prints : r.layout.Prints d.basename) {sources : List Source} {s : Source}
    (mem : s ∈ sources) (resolved : Resolved s.path) (leaf : Posix.leaf s.path = d.basename) :
    ∃ out : Output, out.map Prod.fst = sources ∧ ∃ x ∈ d.shown (r.located out),
      origin x = s.path := by
  have read := (notice_printable prints).read
  refine ⟨sources.map fun y => (y, [(notice d.basename).block r.layout r.platform]), ?_,
    (s, (notice d.basename).diagnostic), List.mem_filter.mpr ⟨?_, decide_eq_true rfl⟩, ?_⟩
  · rw [List.map_map]
    exact List.map_id sources
  · refine List.mem_flatMap.mpr ⟨_, List.mem_map_of_mem mem, ?_⟩
    rw [read]
    exact List.mem_singleton.mpr rfl
  · have given : Posix.leaf s.path ≠ [] := leaf.symm ▸ prints.isName.given
    have named := resolved.join_dirname_leaf given
    rw [leaf] at named
    exact (if_pos rfl).trans named

end ReportReader

/-! ## What a compilation gives -/

namespace Compilation

variable {c : Compilation} {h h' : Host}

variable (c) in
/-- What the tools wrote for sources that are staged and compiled one after another. -/
def written : List Source → Host → Output
  | [], _ => []
  | x :: rest, h =>
    (x, ((c.runSource x).perform h).1.toOption.getD []) :: written rest
      ((c.runSource x).perform h).2

theorem runSources_written {sources : List Source} {blocks : List Text}
    (done : (c.runSources sources).perform h = (.ok blocks, h')) :
    blocks = (c.written sources h).flatMap Prod.snd := by
  induction sources generalizing h h' blocks with
  | nil =>
    obtain rfl := eq_of_pure done
    rfl
  | cons x rest ih =>
    unfold runSources at done
    obtain ⟨first, h₁, ran, done⟩ := ok_of_bind done
    obtain ⟨more, h₂, others, done⟩ := ok_of_bind done
    obtain rfl := eq_of_pure done
    rw [written, List.flatMap_cons, ran, ih others]
    rfl

/-- The reader that a compilation uses in some directory. -/
def readerIn (c : Compilation) (cwd : Text) : ReportReader :=
  { platform := c.platform, layout := c.layout, cwd }

/-- **What a compilation gives was read from what its tools wrote.** -/
theorem compile_written {job : Job} {found : List Diagnostic}
    (done : (c.compile job).perform h = (.ok found, h')) :
    ∃ cwd, found = (c.readerIn cwd).read ((c.written job.toSources h).flatMap Prod.snd) := by
  unfold compile at done
  obtain ⟨output, h₁, ran, done⟩ := ok_of_bind done
  obtain ⟨h₂, h₃, got, done⟩ := ok_of_bind done
  obtain ⟨-, h₄, -, done⟩ := ok_of_bind done
  obtain ⟨-, h₅, -, done⟩ := ok_of_bind done
  obtain rfl := eq_of_pure done
  obtain rfl := runSources_written ran
  exact ⟨h₂.directory, rfl⟩

/-- What compiling a document gives of it: of the diagnostics in the sources of a job that was made
for it, those that are shown. -/
def Gives (c : Compilation) (d : Document) (sources : List Source)
    (shown : List (Source × Diagnostic)) : Prop :=
  ∃ project h job h' cwd, (c.jobOf d.path d.text project).perform h = (.ok job, h') ∧
    sources = job.toSources ∧
    shown = d.shown ((c.readerIn cwd).located (c.written sources h'))

theorem gives_of_compileDocument {d : Document} {project : Option Import.Project}
    {errors : List CompilerError}
    (done : (c.compileDocument d.path d.text project).perform h = (.ok errors, h')) :
    ∃ sources shown, c.Gives d sources shown ∧
      Scheduler.ownErrors d errors = shown.map fun x => x.2.toEditor compilerSource := by
  unfold compileDocument at done
  obtain ⟨job, h₁, made, done⟩ := ok_of_bind done
  obtain ⟨found, h₂, compiled, done⟩ := ok_of_bind done
  obtain rfl := eq_of_pure done
  obtain ⟨cwd, rfl⟩ := compile_written compiled
  exact ⟨_, _, ⟨project, h, job, h₁, cwd, made, rfl, rfl⟩, ReportReader.ownErrors_located ..⟩

/-- Only a document's own diagnostics are given, if no other source of the job has its name. -/
theorem Gives.own {d : Document} {sources : List Source} {shown : List (Source × Diagnostic)}
    (given : c.Gives d sources shown) (posix : c.platform = .posix) (proper : Proper d.basename)
    (sole : d.Sole sources) : d.Own sources shown := by
  obtain ⟨project, h, job, h', cwd, -, -, rfl⟩ := given
  exact ReportReader.own_of_sole (r := c.readerIn cwd) posix proper sole _

end Compilation

/-! ## What is shown for a document -/

namespace Schedule

/-- Whether documents are compiled in this way, on whatever host. -/
def Surroundings.Uses (w : Surroundings) (c : Compilation) : Prop :=
  ∀ occasion d errors, w.compile occasion d = .ok errors →
    ∃ project h h', (c.compileDocument d.path d.text project).perform h = (.ok errors, h')

/-- **A document is shown what is located in files of its name.**  Whatever is published for a
document is empty, or what linting found and behind it the diagnostics that are shown of a job that
was made for the document.  If no other source of the job has the document's name, then these are in
no source but the document itself; but any source that has its name can be reported on in such a way
that this is shown for the document. -/
theorem published_by_name {w : Surroundings} {c : Compilation} (uses : w.Uses c)
    (root : Option Text) (settings : Option ValidationSettings) (given : Option Linter)
    (events : List Scheduler.Event) :
    (∀ t uri found, (t, .publish uri found) ∈
      ((Scheduler.start w root settings given).2.run w events).history →
      found = [] ∨ ∃ d lints sources shown, d.uri = uri ∧
        found = lints ++ shown.map (fun x => x.2.toEditor compilerSource) ∧ Linted w d lints ∧
        (shown = [] ∨ c.Gives d sources shown) ∧
        (c.platform = .posix → Proper d.basename → d.Sole sources → d.Own sources shown)) ∧
    ∀ (r : ReportReader) (d : Document) (sources : List Source), ∀ s ∈ sources,
      r.layout.Prints d.basename → Resolved s.path → Posix.leaf s.path = d.basename →
        ∃ out : Output, out.map Prod.fst = sources ∧ ∃ x ∈ d.shown (r.located out),
          origin x = s.path := by
  refine ⟨fun t uri found mem => ?_, fun r d sources s inside prints resolved leaf =>
    r.shown_of_leaf prints inside resolved leaf⟩
  rcases published_found mem with empty | ⟨d, same, lints, errors, split, linted, compiled⟩
  · exact .inl empty
  · rcases compiled with rfl | ⟨occasion, all, answer, rfl⟩
    · exact .inr ⟨d, lints, [], [], same, split, linted, .inl rfl,
        fun _ _ _ => List.forall_mem_nil _⟩
    · obtain ⟨project, h, h', done⟩ := uses occasion d all answer
      obtain ⟨sources, shown, gives, errors⟩ := Compilation.gives_of_compileDocument done
      exact .inr ⟨d, lints, sources, shown, same, errors ▸ split, linted, .inr gives, gives.own⟩

/-! A contract imports another one of its name.  The compiler finds an error in the imported one. -/

/-- The document that is checked. -/
def importer : Document :=
  { uri := "file:///p/contracts/A.sol".toList, path := "/p/contracts/A.sol".toList,
    text := "import './lib/A.sol';".toList }

/-- The imported contract. -/
def namesake : Source := { path := "/p/contracts/lib/A.sol".toList, content := ['?'] }

/-- What the compiler prints about the copy of the imported contract. -/
def remark : Text :=
  "Error: Expected pragma.\n --> /p/.temp/lib/~A.sol:1:1:\n  |\n1 | ?\n  | ^\n".toList

/-- A host with both contracts and a toolchain.  The compiler prints its remark when it runs in the
directory of the imported contract's copy. -/
def sharing : Host where
  files := { entries := Compilation.fresh.files.entries ++
    [(["p".toList], .directory), (["p".toList, "contracts".toList], .directory),
      (["p".toList, "contracts".toList, "lib".toList], .directory),
      (["p".toList, "contracts".toList, "lib".toList, "A.sol".toList],
        .file (Utf8.encode namesake.content) .plain)] }
  tools _ _ i fs :=
    (.ok (if i.program = Compilation.installed.toolchain.compiler.path ∧
      i.directory = "/p/.temp/lib".toList then
        { status := 1, output := [], errors := Utf8.encode remark }
      else { status := 0, output := [], errors := [] }), fs)

/-- Surroundings in which documents are compiled on a host, and no linter is set. -/
def Surroundings.on (c : Compilation) (h : Host) (project : Option Import.Project) : Surroundings :=
  { Surroundings.calm with
    compile := fun _ d =>
      match (c.compileDocument d.path d.text project).perform h with
      | (.ok errors, _) => .ok errors
      | (.error e, _) => .error { kind := [], message := e.message } }

theorem on_uses (c : Compilation) (h : Host) (project : Option Import.Project) :
    (Surroundings.on c h project).Uses c := by
  intro occasion d errors answer
  simp only [Surroundings.on] at answer
  split at answer
  · next found h' done =>
    obtain rfl := Except.ok.inj answer
    exact ⟨project, h, h', done⟩
  · cases answer

/-- Surroundings in which both contracts are compiled. -/
def sharedSurroundings : Surroundings :=
  .on Compilation.installed sharing (some { root := "/p".toList })

/-- The run in which the document is opened and checked. -/
def checked : Scheduler :=
  (Scheduler.start sharedSurroundings none none none).2.run sharedSurroundings
    [.request 0 (.opened importer), .resume 0]

/-- The sets that were published according to notes, the newest first. -/
def publications (h : History) : List (Text × List EditorDiagnostic) :=
  h.filterMap fun n => match n.2 with
    | .publish uri found => some (uri, found)
    | _ => none

theorem mem_publications {h : History} {uri : Text} {found : List EditorDiagnostic} :
    (uri, found) ∈ publications h ↔ ∃ t, (t, .publish uri found) ∈ h := by
  constructor
  · intro mem
    obtain ⟨⟨t, n⟩, inside, some⟩ := List.mem_filterMap.mp mem
    cases n with
    | publish uri' found' =>
      obtain ⟨rfl, rfl⟩ := Prod.mk.inj (Option.some.inj some)
      exact ⟨t, inside⟩
    | _ => cases some
  · rintro ⟨t, inside⟩
    exact List.mem_filterMap.mpr ⟨_, inside, rfl⟩

/-- The diagnostic in the imported contract. -/
def foreign : Source × Diagnostic :=
  (namesake,
    { severity := "Error".toList, message := "Expected pragma.".toList, file := "A.sol".toList,
               path := "/p/contracts/lib/A.sol".toList, line := 1, column := 1, length := 1 })

/-- The job that is made for the document, and the host on which it is compiled. -/
def shared : Except Fault Job × Host :=
  (Compilation.installed.jobOf importer.path importer.text (some { root := "/p".toList })).perform
    sharing

/-- The two contracts. -/
def bothContracts : Job :=
  Job.ofSources [{ path := importer.path, content := importer.text }, namesake]

theorem shared_eq : shared = (.ok bothContracts, shared.2) := eq_ok_of_toOption (by decide +kernel)

/-- It is the only one of the job, it is located in the imported contract, and yet it is published
for the document that imports it. -/
theorem foreign_shown :
    ∃ job h, shared = (.ok job, h) ∧ namesake ∈ job.toSources ∧
      (Compilation.installed.reader h).located (Compilation.installed.written job.toSources h) =
        [foreign] ∧
      origin foreign = namesake.path ∧ origin foreign ≠ importer.path ∧
      ∃ t, (t, .publish importer.uri [foreign.2.toEditor compilerSource]) ∈ checked.history :=
  ⟨bothContracts, shared.2, shared_eq, by decide +kernel, by decide +kernel, by decide +kernel,
    by decide +kernel,
    mem_publications.mp (by decide +kernel)⟩

theorem prints_importer : ({} : Layout).Prints importer.basename where
  isName := ⟨by decide +kernel, by decide +kernel, Text.eq_false_of_any (by decide +kernel)⟩
  inLine := by unfold Text.InLine; decide +kernel
  unmarked := by decide +kernel

/-- What is published in the run is found as is said above, and for the imported contract there is
such a report. -/
theorem importer_published :
    sharedSurroundings.Uses Compilation.installed ∧
      (∃ d lints sources shown, d.uri = importer.uri ∧
        [foreign.2.toEditor compilerSource] =
          lints ++ shown.map (fun x => x.2.toEditor compilerSource) ∧
        Linted sharedSurroundings d lints ∧
        (shown = [] ∨ Compilation.installed.Gives d sources shown) ∧
        (Compilation.installed.platform = .posix → Proper d.basename → d.Sole sources →
          d.Own sources shown)) ∧
      ∃ out : Output, out.map Prod.fst = bothContracts.toSources ∧
        ∃ x ∈ importer.shown (({ cwd := ['/'] } : ReportReader).located out),
          origin x = namesake.path := by
  have uses : sharedSurroundings.Uses Compilation.installed := on_uses _ _ _
  obtain ⟨t, mem⟩ : ∃ t, (t, .publish importer.uri [foreign.2.toEditor compilerSource]) ∈
    checked.history :=
    mem_publications.mp (by decide +kernel)
  obtain ⟨found, shown⟩ :=
    published_by_name uses none none none [.request 0 (.opened importer), .resume 0]
  refine ⟨uses, (found t _ _ mem).resolve_left (List.cons_ne_nil _ _), ?_⟩
  exact shown { cwd := ['/'] } importer _ namesake (by decide +kernel) prints_importer
    (by decide +kernel)
    (by decide +kernel)

/-- Beside an imported contract of another name the document has its own name to itself. -/
example : importer.Sole [{ path := importer.path, content := importer.text },
    { path := "/p/contracts/lib/B.sol".toList, content := ['?'] }] := by decide +kernel

end Schedule
end ContractCheck
