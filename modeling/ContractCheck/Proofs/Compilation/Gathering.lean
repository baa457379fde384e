import ContractCheck.Proofs.Compilation.Staged
import ContractCheck.Proofs.Diagnostic.Isolation
import ContractCheck.Proofs.Layout.Naming
import ContractCheck.Proofs.Toolchain.Following

/-! # What is gathered from a job

Each source of a job has its turn: it is staged, and what was staged is compiled and linked.  Tools
that fail are passed over, and so are sources that cannot be staged, so the job always ends with
what all the tools wrote, in the order of the sources (`compile_gathers`).
-/
namespace ContractCheck

open ContractCheck.Action
open ContractCheck.Path (Usable)

variable {h h' : Host}

/-! ## Staging -/

namespace Staging

variable {s : Staging} {x : Source}

/-- A file that is written is the only change, and if it is not, the system has refused it. -/
theorem writeText_shows {path : Text} (usable : Usable path) (t : Text) (h : Host) :
    (∃ h', (writeText path t).perform h = (.ok ⟨⟩, h') ∧ h.Shows [] h') ∨
      ∃ e, (writeText path t).perform h = (.error e, h) ∧ e.fromSystem = true := by
  unfold writeText writeFile
  rw [perform_change]
  split
  · next fs _ => exact .inl ⟨_, rfl, .files h fs⟩
  · next e refused => exact .inr ⟨_, rfl, FileSystem.update_fromSystem usable refused⟩

theorem makeDirectories_shows {path : Text} (usable : Usable path) (h : Host) :
    ∃ out h', (makeDirectories path).perform h = (out, h') ∧ h.Shows [] h' ∧
      ∀ e, out = .error e → e.fromSystem = true := by
  refine ⟨_, _, perform_makeDirectories path h, .files h _, fun e failed => ?_⟩
  cases refused : (h.files.makeDirectories h.cwd path).2 with
  | none =>
    rw [refused] at failed
    cases failed
  | some e' =>
    rw [refused] at failed
    obtain rfl := Except.error.inj failed
    exact FileSystem.makeDirectories_fromSystem usable refused

/-- **A copy is written or not**, and that is all. -/
theorem writeCopy_shows (usable : Usable (s.layout.stagedPath x.path)) (ready : h.LogReady) :
    ∃ wrote h', (s.writeCopy x).perform h = (.ok wrote, h') ∧ h.Shows [] h' := by
  -- What the system refuses is logged.
  have passed (e : Fault) {h' : Host} (shows : h.Shows [] h') : ∃ h'', (do
      Log.warning owner ("Failed to stage ".toList ++ x.path ++ " at ".toList ++
        s.layout.stagedPath x.path ++
        ": ".toList ++ e.message)
      pure false : Action Bool).perform h' = (.ok false, h'') ∧ h.Shows [] h'' := by
    obtain ⟨h'', logged, beside⟩ :=
      Log.warning_logs owner ("Failed to stage ".toList ++ x.path ++ " at ".toList ++
      s.layout.stagedPath x.path ++ ": ".toList ++ e.message) [] h' (shows.ready ready)
    exact ⟨h'', perform_bind_ok logged, shows.trans beside.shows⟩
  obtain ⟨out, h₁, made, shows, refused⟩ := makeDirectories_shows usable.parent h
  unfold writeCopy
  dsimp only
  rw [perform_orSystem]
  cases out with
  | error e =>
    rw [perform_bind_error made]
    dsimp only [orElse]
    rw [if_pos (refused e rfl)]
    exact ⟨false, passed e shows⟩
  | ok _ =>
    rw [perform_bind_ok made]
    rcases writeText_shows usable.tidy (s.stagedContent x) h₁ with
      ⟨h₂, wrote, shows'⟩ | ⟨e, failed, own⟩
    · rw [perform_bind_ok wrote]
      exact ⟨true, h₂, rfl, shows.trans shows'⟩
    · rw [perform_bind_error failed]
      dsimp only [orElse]
      rw [if_pos own]
      exact ⟨false, passed e shows⟩

variable (s x) in
/-- Whether a source is staged: it is not a copy itself, and its copy can be written. -/
def stages (h : Host) : Bool :=
  !s.layout.isTransient (Layout.splitPath x.path).2 &&
    ((s.writeCopy x).perform h).1.toOption.getD false

theorem stageSource_shows (usable : Usable (s.layout.stagedPath x.path)) (ready : h.LogReady) :
    ∃ h', (s.stageSource x).perform h
        = (.ok (if s.stages x h then
            some { source := x.path, staged := s.layout.stagedPath x.path }
          else none), h') ∧
      h.Shows [] h' := by
  unfold stageSource stages
  split
  · next transient =>
    obtain ⟨h', logged, beside⟩ :=
      Log.debug_logs owner ("Skipping transient source ".toList ++ x.path) [] h ready
    rw [transient]
    exact ⟨h', perform_bind_ok logged, beside.shows⟩
  · next other =>
    obtain ⟨wrote, h₁, performed, shows⟩ := writeCopy_shows usable ready
    dsimp only
    rw [perform_bind_ok performed, performed, Bool.eq_false_iff.mpr other]
    cases wrote with
    | false => exact ⟨h₁, rfl, shows⟩
    | true =>
      obtain ⟨h', logged, beside⟩ :=
        Log.debug_logs owner ("Staged ".toList ++ x.path ++ " -> ".toList ++
        s.layout.stagedPath x.path) [] h₁ (shows.ready ready)
      exact ⟨h', perform_bind_ok logged, shows.trans beside.shows⟩

end Staging

/-! ## Compiling and linking a file -/

namespace Compilation

variable {c : Compilation} {file target : Text}

/-- A fault that compiling passes over: a failure of the toolchain, or one that the system gives, if
these are passed over too. -/
def Handled (withSystem : Bool) (e : Fault) : Prop :=
  (∃ f, e = .failure f ∧ f.kind.isA .toolchain = true) ∨ withSystem = true ∧ e.fromSystem = true

theorem orLogged_ok {act : Action Unit} {withSystem : Bool} {out : Except Fault Unit}
    (lead : String) (performed : act.perform h = (out, h')) (ready : h'.LogReady)
    (handled : ∀ e, out = .error e → Handled withSystem e) :
    ∃ h'', (orLogged act withSystem lead file).perform h = (.ok ⟨⟩, h'') ∧ h'.Beside h'' := by
  unfold orLogged
  rw [perform_tryCatch, performed]
  cases out with
  | ok _ => exact ⟨h', rfl, .refl h'⟩
  | error e =>
    have logs :=
      Log.debug_logs owner (lead.toList ++ e.message) [("file".toList, .text file)] h' ready
    dsimp only [orElse]
    rcases handled e rfl with ⟨f, rfl, kind⟩ | ⟨rfl, own⟩
    · dsimp only
      rw [if_pos kind]
      exact logs
    · cases e with
      | failure f => cases own
      | file e path =>
        dsimp only
        rw [if_pos (by rw [own]; rfl)]
        exact logs
      | unreachable => exact logs
      | _ => cases own

/-- A file that can be worked on: its tools start unless the system refuses, and the paths that are
made for it, or come from the linker, have no zero character. -/
structure Workable (c : Compilation) (file target : Text) (h : Host) : Prop where
  compiling : h.Starts (c.compiling file target)
  linking : h.Starts (c.linking file target)
  output : ∀ ext ∈ [Layout.bytecodeExt, Layout.codeExt], Usable (outputOf file target ext)
  saved : ∀ fs finished name, (h.tools h.cwd h.environment (c.linking file target) fs).1 =
    .ok finished →
    savedFile? (Utf8.readLenient finished.output) = some name →
    Usable (Path.Posix.join (directoryOf file) name)

theorem Workable.follows {new : List ToolRun} (w : c.Workable file target h)
    (f : h.Follows new h') :
    c.Workable file target h' where
  compiling := f.starts w.compiling
  linking := f.starts w.linking
  output := w.output
  saved fs finished name ran := by
    rw [f.tools, f.cwd, f.environment] at ran
    exact w.saved fs finished name ran

/-- What comes after the linker has said which file it made. -/
theorem place_shows {name : Text} (from_ : Usable (Path.Posix.join (directoryOf file) name))
    (output : ∀ ext ∈ [Layout.bytecodeExt, Layout.codeExt], Usable (outputOf file target ext))
    (h : Host) :
    ∃ out h', (do
      change (fun fs cwd p => fs.rename cwd p (outputOf file target Layout.bytecodeExt))
        (Path.Posix.join (directoryOf file) name)
      change FileSystem.remove (outputOf file target Layout.codeExt) : Action Unit).perform
        h = (out, h') ∧
        h.Shows [] h' ∧ ∀ e, out = .error e → e.fromSystem = true := by
  rw [perform_bind, perform_change]
  split
  · next fs _ =>
    dsimp only [andThen]
    rw [perform_change]
    split
    · next fs' _ => exact ⟨_, _, rfl, .files h fs', nofun⟩
    · next e refused =>
      refine ⟨_, _, rfl, .files h fs, fun e' same => ?_⟩
      obtain rfl := Except.error.inj same
      exact FileSystem.remove_fromSystem (output _ (by simp)) refused
  · next e refused =>
    refine ⟨_, _, rfl, .refl h, fun e' same => ?_⟩
    obtain rfl := Except.error.inj same
    exact FileSystem.rename_fromSystem from_ (output _ (by simp)) refused

/-- **Linking** runs the linker once, unless it is missing; what fails is passed over. -/
theorem link_shows (w : c.Workable file target h) (ready : h.LogReady) :
    ∃ linking : Option ToolRun, ∃ out h', (c.link file target).perform h = (out, h') ∧
      (∀ e, out = .error e → Handled true e) ∧ h.Shows linking.toList h' ∧
      (∀ r ∈ linking, r.invocation = c.linking file target) ∧
      (linking = none → h.files.isThere h.cwd c.toolchain.linker.path = false) := by
  unfold link
  dsimp only
  cases there : h.files.isThere h.cwd c.toolchain.linker.path with
  | false =>
    obtain ⟨f, missing, kind⟩ := c.toolchain.linker.run_missing there
    refine ⟨none, _, h, perform_bind_error missing, fun e same => ?_, .refl h, fun r mem => ?_,
      fun _ => rfl⟩
    · obtain rfl := Except.error.inj same
      exact .inl ⟨f, rfl, kind⟩
    · cases mem
  | true =>
    have ran : Component.Ran (c.linking file target) h
        ((c.toolchain.linker.run .keeping (directoryOf file)
        ["compile".toList, outputOf file target Layout.codeExt, "--lib".toList,
          c.toolchain.stdlib.path]).perform h) :=
      c.toolchain.linker.run_ran there ready w.linking
    generalize performed : (c.toolchain.linker.run .keeping (directoryOf file) _).perform
      h = out at ran
    cases ran with
    | failed invocation shows grows kind =>
      refine ⟨some _, _, _, perform_bind_error performed, fun e same => ?_, shows,
        fun r mem => Option.some.inj mem ▸ invocation, fun gone => by cases gone⟩
      obtain rfl := Except.error.inj same
      exact .inl ⟨_, rfl, kind⟩
    | @done finished r h' invocation outcome shows grows =>
      have linked : ∀ r' ∈ some r, r'.invocation = c.linking file target :=
        fun r' mem => Option.some.inj mem ▸ invocation
      rw [perform_bind_ok performed]
      split
      · obtain ⟨h'', logged, beside⟩ :=
          Log.debug_logs owner "Linker did not report a contract".toList
          [("file".toList, .text file)] h' (shows.ready ready)
        refine ⟨some r, _, h'', logged, fun e same => ?_, shows.trans beside.shows, linked,
          fun gone => by cases gone⟩
        cases same
      · next name told =>
        have ended : (h.tools h.cwd h.environment (c.linking file target) r.files).1 =
            .ok finished := by
          rw [← outcome, Host.outcome, invocation]
        obtain ⟨out, h'', placed, shows', own⟩ :=
          place_shows (w.saved r.files finished name ended told) w.output h'
        refine ⟨some r, out, h'', placed, fun e same => .inr ⟨rfl, own e same⟩,
          shows.trans shows', linked,
          fun gone => by cases gone⟩

/-- **Compiling and linking a file** runs the compiler, and then the linker unless it is missing by
then. -/
theorem runTools_shows (w : c.Workable file target h) (ready : h.LogReady)
    (there : h.files.isThere h.cwd c.toolchain.compiler.path = true) :
    ∃ compiling : ToolRun, ∃ linking :
      Option ToolRun, ∃ h', (c.runTools file target).perform h = (.ok ⟨⟩, h') ∧
      h.Shows (compiling :: linking.toList) h' ∧ compiling.invocation = c.compiling file target ∧
      (∀ r ∈ linking, r.invocation = c.linking file target) ∧
      (linking = none → (h.filesAfter compiling).isThere h.cwd c.toolchain.linker.path =
        false) := by
  have ran : Component.Ran (c.compiling file target) h
      ((c.toolchain.compiler.run .keeping (directoryOf file)
      ["-o".toList, target, Path.Posix.basename file]).perform h) :=
    c.toolchain.compiler.run_ran there ready w.compiling
  obtain ⟨compiling, out, h₁, performed, handled, shows, grows, invocation⟩ :
      ∃ compiling : ToolRun, ∃ out h₁, (do
        let _ ← c.toolchain.compiler.run .keeping (directoryOf file)
          ["-o".toList, target, Path.Posix.basename file]
        : Action Unit).perform h = (out, h₁) ∧ (∀ e, out = .error e → Handled false e) ∧
          h.Shows [compiling] h₁ ∧
          (h.filesAfter compiling).Grows h₁.files ∧
          compiling.invocation = c.compiling file target := by
    generalize performed : (c.toolchain.compiler.run .keeping (directoryOf file) _).perform
      h = out at ran
    cases ran with
    | done invocation outcome shows grows =>
      exact ⟨_, _, _, perform_bind_ok performed, nofun, shows, grows, invocation⟩
    | failed invocation shows grows kind =>
      refine ⟨_, _, _, perform_bind_error performed, fun e same => ?_, shows, grows, invocation⟩
      obtain rfl := Except.error.inj same
      exact .inl ⟨_, rfl, kind⟩
  obtain ⟨h₂, compiled, beside⟩ :=
    orLogged_ok "Compiler failed: " performed (shows.ready ready) handled
  have shows₂ := shows.trans beside.shows
  obtain ⟨linking, out, h₃, linked, handled', shows', invocation', gone⟩ :=
    link_shows (w.follows shows₂.toFollows) (shows₂.ready ready)
  obtain ⟨h₄, passed, beside'⟩ :=
    orLogged_ok "Linking failed: " linked (shows'.ready (shows₂.ready ready)) handled'
  refine ⟨compiling, linking, h₄, ?_, ?_, invocation, invocation', fun none => ?_⟩
  · unfold runTools
    rw [perform_bind_ok compiled, passed]
  · have all := (shows₂.trans shows').trans beside'.shows
    simpa using all
  · -- What the compiler left would still be there.
    refine Bool.eq_false_iff.mpr fun left => ?_
    have still := (grows.trans beside.grows).isThere left
    rw [← shows₂.cwd, gone none] at still
    cases still

end Compilation

/-! ## Turns -/

/-- A source that was compiled: the run of the compiler on its copy, and that of the linker unless
it was missing. -/
structure Turn where
  source : Source
  compiling : ToolRun
  linking : Option ToolRun

namespace Turn

variable (t : Turn)

/-- The runs of a turn. -/
def runs : List ToolRun := t.compiling :: t.linking.toList

/-- What the tools wrote in a turn. -/
def written (h : Host) : List Text := t.runs.flatMap h.written

/-- The tools ran on the staged copy, each as it should. -/
structure OnCopy (c : Compilation) (h : Host) : Prop where
  compiling : t.compiling.invocation
    = c.compiling (c.stagedPath t.source) (Compilation.targetOf h (c.stagedPath t.source) none)
  linking : ∀ r ∈ t.linking, r.invocation
    = c.linking (c.stagedPath t.source) (Compilation.targetOf h (c.stagedPath t.source) none)
  unlinked : t.linking = none → (h.filesAfter t.compiling).isThere h.cwd
    c.toolchain.linker.path = false

variable {t}

theorem OnCopy.of_follows {c : Compilation} {new : List ToolRun} (own : t.OnCopy c h')
    (f : h.Follows new h') :
    t.OnCopy c h where
  compiling := by rw [own.compiling, Compilation.targetOf_congr f.cwd]
  linking r mem := by rw [own.linking r mem, Compilation.targetOf_congr f.cwd]
  unlinked none := by
    have gone := own.unlinked none
    rwa [f.filesAfter, f.cwd] at gone

end Turn

namespace Compilation

variable {c : Compilation} {x : Source} {sources taken more : List Source}

variable (c) in
/-- Whether a source is compiled when its turn comes: it is staged, and its copy has the extension
of a source. -/
def takes (x : Source) (h : Host) : Bool :=
  c.staging.stages x h &&
    sourceExtensions.contains (Path.Posix.extension (Path.Posix.basename (c.stagedPath x)))

/-- Under a usual marker, sources with the extension of a source are compiled if they are staged,
and no others. -/
theorem takes_iff {m : Char} (marker : c.staging.layout.marker = [m]) (bare : m ≠ '/')
    (own : m ≠ '.') :
    c.takes x h = true ↔ c.staging.stages x h = true ∧ ∃ ext ∈ sourceExtensions,
    ext <:+ x.path := by
  have names : sourceExtensions = ['.' :: "sol".toList, '.' :: "tsol".toList] := by decide
  have sol : Path.Posix.extension (Path.Posix.basename (c.stagedPath x)) = '.' :: "sol".toList
      ↔ '.' :: "sol".toList <:+ x.path := Layout.extension_stagedPath marker bare own
        (Text.eq_false_of_any (by decide))
  have tsol : Path.Posix.extension (Path.Posix.basename (c.stagedPath x)) = '.' :: "tsol".toList
      ↔ '.' :: "tsol".toList <:+ x.path := Layout.extension_stagedPath marker bare own
        (Text.eq_false_of_any (by decide))
  rw [takes, Bool.and_eq_true, List.contains_iff_mem, names]
  refine and_congr_right fun _ => ?_
  simp only [List.mem_cons, List.not_mem_nil, or_false, exists_eq_or_imp, exists_eq_left, sol, tsol]

/-- What compiling sources comes to: what the tools wrote in the turns of those that are taken. -/
inductive Gathers (c : Compilation) (h : Host) (taken : List Source) :
    Except Fault (List Text) × Host → Prop where
  | turns {turns : List Turn} {h' : Host} (sources : turns.map Turn.source = taken)
      (follows : h.Follows (turns.flatMap Turn.runs) h') (own : ∀ t ∈ turns, t.OnCopy c h) :
      Gathers c h taken (.ok (turns.flatMap fun t => t.written h), h')

theorem gathers_nothing (follows : h.Follows [] h') : c.Gathers h [] (.ok [], h') :=
  @Gathers.turns c h [] [] h' rfl follows nofun

/-- A file without the extension of a source is left alone. -/
theorem run_other {file : Text} {out : Option Text} (ready : h.LogReady)
    (other : sourceExtensions.contains (Path.Posix.extension (Path.Posix.basename file)) = false) :
    ∃ h', (c.run file out).perform h = (.ok [], h') ∧ h.Shows [] h' := by
  obtain ⟨h', logged, beside⟩ := Log.info_logs owner "Not compiling: unsupported extension".toList
    [("file".toList, .text file)] h ready
  unfold run
  rw [other, if_pos (show (!false) = true from rfl), perform_bind_ok logged]
  exact ⟨h', rfl, beside.shows⟩

/-- **A turn.**  What the tools write is taken out of the transcript. -/
theorem run_gathers (w : c.Workable (c.stagedPath x) (targetOf h (c.stagedPath x) none) h)
    (ready : h.LogReady) (installed : c.toolchain.Installed h)
    (own : sourceExtensions.contains (Path.Posix.extension (Path.Posix.basename (c.stagedPath x))) =
      true) :
    c.Gathers h [x] ((c.run (c.stagedPath x) none).perform h) := by
  have clear : h.Follows [] { h with transcript := [] } := ⟨rfl, rfl, rfl,
    Host.ready_of_same rfl rfl, by simp⟩
  have there :=
    (installed (c.toolchain.compiler, c.toolchain.compilerVersion)
      (by simp [Toolchain.wanted])).there
  have still : c.toolchain.Installed { h with transcript := [] } := fun w mem =>
    ⟨(installed w mem).there, (installed w mem).version⟩
  obtain ⟨compiling, linking, h', performed, shows, invocation, invocation', gone⟩ :=
    runTools_shows (w.follows clear) (clear.ready ready) there
  have inside : (do
      c.toolchain.ensure .keeping
      c.runTools (c.stagedPath x) (targetOf (← get) (c.stagedPath x) none) : Action Unit).perform
        { h with transcript := [] } = (.ok ⟨⟩, h') := by
    rw [perform_bind_ok (Toolchain.ensure_installed still .keeping),
      perform_bind_ok (perform_get _)]
    exact performed
  have transcribed := perform_transcribed (do
      c.toolchain.ensure .keeping
      c.runTools (c.stagedPath x) (targetOf (← get) (c.stagedPath x) none)) h
  rw [inside] at transcribed
  let turn : Turn := ⟨x, compiling, linking⟩
  have wrote : h'.transcript = [turn].flatMap fun t => t.written h := by
    rw [shows.transcript, List.flatMap_singleton, clear.written]
    rfl
  unfold run
  rw [own, if_neg (show ¬ (!true) = true by decide), perform_bind_ok transcribed]
  dsimp only
  rw [wrote]
  refine @Gathers.turns c h [x] [turn] _ rfl ?_
    (List.forall_mem_singleton.mpr ⟨invocation, invocation', gone⟩)
  refine ⟨shows.cwd, shows.environment, shows.tools, ?_, ?_⟩
  · exact fun ready => Host.ready_of_same rfl rfl (shows.ready (clear.ready ready))
  · rw [List.flatMap_singleton]
    exact shows.runs

/-! ## Sources in order -/

theorem Gathers.after {out : Except Fault (List Text) × Host} (follows : h.Follows [] h')
    (gathers : c.Gathers h' taken out) : c.Gathers h taken out := by
  obtain ⟨sources, follows', own⟩ := gathers
  have same : h'.written = h.written := follows.written
  simp only [Turn.written, same]
  exact .turns sources (follows.trans follows') fun t mem => (own t mem).of_follows follows

/-- What two activities gather one after the other. -/
theorem Gathers.bind {act act' : Action (List Text)} (first : c.Gathers h taken (act.perform h))
    (rest : ∀ h', ((act.perform h).2 = h') → (∃ new, h.Follows new h') →
      c.Gathers h' more (act'.perform h')) :
    c.Gathers h (taken ++ more) ((do
      let blocks ← act
      let others ← act'
      pure (blocks ++ others) : Action (List Text)).perform h) := by
  generalize performed : act.perform h = out at first rest
  obtain @⟨turns, h₁, sources, follows, own⟩ := first
  have second := rest h₁ rfl ⟨_, follows⟩
  generalize performed' : act'.perform h₁ = out' at second
  obtain @⟨turns', h₂, sources', follows', own'⟩ := second
  rw [perform_bind_ok performed, perform_bind_ok performed', perform_pure]
  have all : (turns.flatMap fun t => t.written h) ++ (turns'.flatMap fun t => t.written h₁)
      = (turns ++ turns').flatMap fun t => t.written h := by
    simp only [Turn.written, follows.written, List.flatMap_append]
  rw [all]
  refine .turns (by rw [List.map_append, sources, sources']) ?_ ?_
  · rw [List.flatMap_append]
    exact follows.trans follows'
  · refine List.forall_mem_append.mpr ⟨own, fun t mem => (own' t mem).of_follows follows⟩

variable (c) in
/-- The sources that are compiled when sources have their turns one after another. -/
def compiledIn : List Source → Host → List Source
  | [], _ => []
  | x :: rest, h =>
    (if c.takes x h then [x] else []) ++ compiledIn rest ((c.runSource x).perform h).2

variable (c) in
/-- Whether the toolchain is installed whenever a source is compiled, whatever the tools did
before. -/
def StaysInstalled : List Source → Host → Prop
  | [], _ => True
  | x :: rest, h =>
    (c.takes x h = true → c.toolchain.Installed ((c.staging.stageSource x).perform h).2) ∧
      StaysInstalled rest ((c.runSource x).perform h).2

/-- An invocation without a zero character in it. -/
structure Free (i : Invocation) : Prop where
  program : Usable i.program
  arguments : ∀ a ∈ i.arguments, Usable a
  directory : Usable i.directory

variable (c) in
/-- No zero character is in a path or an argument, and tools that are run without one start unless
the system refuses. -/
structure Clean (sources : List Source) (h : Host) : Prop where
  directory : Usable h.directory
  temp : Usable c.staging.layout.temp
  marker : Usable c.staging.layout.marker
  toolchain : ∀ w ∈ c.toolchain.wanted, Usable w.1.path
  paths : ∀ x ∈ sources, Usable x.path
  saved : ∀ x ∈ sources, ∀ fs finished name,
    (h.tools h.cwd h.environment (c.linking (c.stagedPath x) (targetOf h (c.stagedPath x) none))
      fs).1
        = .ok finished →
      savedFile? (Utf8.readLenient finished.output) = some name → Usable name
  starts : ∀ i, Free i → h.Starts i

theorem Clean.follows {new : List ToolRun} (clean : c.Clean sources h) (f : h.Follows new h') :
    c.Clean sources h' where
  directory := f.directory ▸ clean.directory
  temp := clean.temp
  marker := clean.marker
  toolchain := clean.toolchain
  paths := clean.paths
  saved x mem fs finished name ran := by
    rw [f.tools, f.cwd, f.environment, targetOf_congr f.cwd] at ran
    exact clean.saved x mem fs finished name ran
  starts i free := f.starts (clean.starts i free)

theorem Clean.stagedPath (clean : c.Clean sources h) (mem : x ∈ sources) :
    Usable (c.stagedPath x) :=
  Layout.usable_stagedPath clean.temp clean.marker (clean.paths x mem)

theorem usable_directoryOf {file : Text} (usable : Usable file) : Usable (directoryOf file) := by
  unfold directoryOf
  dsimp only
  split
  · exact Path.usable_here
  · exact usable.dirname

theorem Clean.workable (clean : c.Clean sources h) (mem : x ∈ sources) :
    c.Workable (c.stagedPath x) (targetOf h (c.stagedPath x) none) h := by
  have staged := clean.stagedPath mem
  have directory := usable_directoryOf staged
  have target : Usable (targetOf h (c.stagedPath x) none) := clean.directory.absolute directory
  have output : ∀ ext ∈ [Layout.bytecodeExt, Layout.codeExt],
      Usable (outputOf (c.stagedPath x) (targetOf h (c.stagedPath x) none) ext) := fun ext one =>
    target.below (Layout.usable_replaceExtension staged.basename (by
      rcases List.mem_pair.mp one with rfl | rfl <;> decide))
  have compiler :=
    clean.toolchain (c.toolchain.compiler, c.toolchain.compilerVersion) (by simp [Toolchain.wanted])
  have linker :=
    clean.toolchain (c.toolchain.linker, c.toolchain.linkerVersion) (by simp [Toolchain.wanted])
  have stdlib :=
    clean.toolchain (c.toolchain.stdlib, c.toolchain.stdlibVersion) (by simp [Toolchain.wanted])
  refine ⟨clean.starts _ ⟨compiler, ?_, directory⟩, clean.starts _ ⟨linker, ?_, directory⟩, output,
    fun fs finished name ran told => directory.below (clean.saved x mem fs finished name ran told)⟩
  · exact List.forall_mem_cons.mpr ⟨by decide,
      List.forall_mem_cons.mpr ⟨target, List.forall_mem_singleton.mpr
      staged.basename⟩⟩
  · exact List.forall_mem_cons.mpr ⟨by decide, List.forall_mem_cons.mpr ⟨output _ (by simp),
      List.forall_mem_cons.mpr ⟨by decide, List.forall_mem_singleton.mpr stdlib⟩⟩⟩

/-- **A source** has its turn, or is passed over. -/
theorem runSource_gathers (clean : c.Clean sources h) (mem : x ∈ sources) (ready : h.LogReady)
    (installed : c.takes x h = true →
      c.toolchain.Installed ((c.staging.stageSource x).perform h).2) :
    c.Gathers h (if c.takes x h then [x] else []) ((c.runSource x).perform h) := by
  obtain ⟨h₁, performed, shows⟩ := Staging.stageSource_shows (clean.stagedPath mem) ready
  have follows := shows.toFollows
  have ready₁ := follows.ready ready
  unfold runSource
  rw [perform_bind_ok performed]
  cases stages : c.staging.stages x h with
  | false =>
    have passed : c.takes x h = false := by rw [takes, stages]; rfl
    rw [passed]
    exact gathers_nothing follows
  | true =>
    cases own : sourceExtensions.contains
      (Path.Posix.extension (Path.Posix.basename (c.stagedPath x))) with
    | false =>
      have passed : c.takes x h = false := by rw [takes, stages, own]; rfl
      obtain ⟨h₂, left, shows'⟩ : ∃ h₂, (c.run (c.stagedPath x) none).perform h₁ = (.ok [], h₂) ∧
        h₁.Shows [] h₂ :=
        run_other ready₁ own
      rw [passed, if_pos rfl]
      dsimp only
      rw [left]
      exact gathers_nothing (follows.trans shows'.toFollows)
    | true =>
      have taken : c.takes x h = true := by rw [takes, stages, own]; rfl
      have there := installed taken
      rw [performed] at there
      rw [taken, if_pos rfl, if_pos rfl]
      have same : targetOf h₁ (c.stagedPath x) none = targetOf h (c.stagedPath x) none :=
        targetOf_congr follows.cwd _
      exact (run_gathers (same ▸ (clean.workable mem).follows follows) ready₁ there own).after
        follows

/-- **Sources in order.** -/
theorem runSources_gathers {all : List Source} (within : sources ⊆ all) (clean : c.Clean all h)
    (ready : h.LogReady) (installed : c.StaysInstalled sources h) :
    c.Gathers h (c.compiledIn sources h) ((c.runSources sources).perform h) := by
  induction sources generalizing h with
  | nil => exact gathers_nothing (Host.Shows.refl h).toFollows
  | cons x rest ih =>
    obtain ⟨here, behind⟩ := installed
    obtain ⟨mem, within⟩ := List.cons_subset.mp within
    unfold runSources
    refine (runSource_gathers clean mem ready here).bind fun h' turn after => ?_
    obtain ⟨new, follows⟩ := after
    rw [turn] at behind ⊢
    exact ih within (clean.follows follows) (follows.ready ready) behind

/-! ## Jobs -/

variable (c) in
/-- The diagnostics in what a run of a tool wrote: those of its output and then those of its
complaints.  A tool that could not be started wrote nothing. -/
def diagnosticsOf (h : Host) (r : ToolRun) : List Diagnostic :=
  match h.outcome r with
  | .ok finished =>
    (c.reader h).read [Utf8.readLenient finished.output] ++ (c.reader h).read
    [Utf8.readLenient finished.errors]
  | .error _ => []

theorem read_written (r : ToolRun) : (c.reader h).read (h.written r) = c.diagnosticsOf h r := by
  unfold diagnosticsOf Host.written
  cases h.outcome r with
  | error e => rfl
  | ok finished => exact ((c.reader h).read_given _).trans ((c.reader h).read_cons _ _)

/-- The diagnostics of turns are those of their runs. -/
theorem read_turns (turns : List Turn) :
    (c.reader h).read (turns.flatMap fun t => t.written h)
      = turns.flatMap fun t => t.runs.flatMap (c.diagnosticsOf h) := by
  have one (runs : List ToolRun) :
      (c.reader h).read (runs.flatMap h.written) = runs.flatMap (c.diagnosticsOf h) := by
    induction runs with
    | nil => rfl
    | cons r runs ih =>
      rw [List.flatMap_cons, List.flatMap_cons, ReportReader.read_append, read_written, ih]
  induction turns with
  | nil => rfl
  | cons t turns ih =>
    rw [List.flatMap_cons, List.flatMap_cons, ReportReader.read_append, Turn.written, one, ih]

/-- **The diagnostics of a job are those of its parts.**  Whatever the tools do, a job ends: with
the diagnostics of the runs of its tools, turn by turn in the order of the sources that are
compiled.  These are the ones that are staged and have the extension of a source.  A tool that
fails, and a source that is passed over, leaves the diagnostics of the others as they are. -/
theorem compile_gathers (c : Compilation) (job : Job) (h : Host) (ready : h.LogReady)
    (clean : c.Clean job.toSources h) (installed : c.StaysInstalled job.toSources h) :
    ∃ (turns : List Turn) (h' : Host), (c.compile job).perform h
        = (.ok (turns.flatMap fun t => t.runs.flatMap (c.diagnosticsOf h)), h') ∧
      turns.map Turn.source = c.compiledIn job.toSources h ∧ (∀ t ∈ turns, t.OnCopy c h) ∧
      h'.runs = h.runs ++ turns.flatMap Turn.runs ∧
      ∀ m, c.staging.layout.marker = [m] → m ≠ '/' → m ≠ '.' → ∀ (x : Source) (h : Host),
        (c.takes x h = true ↔ c.staging.stages x h = true ∧ ∃ ext ∈ sourceExtensions,
          ext <:+ x.path) := by
  have gathers := runSources_gathers (List.Subset.refl _) clean ready installed
  unfold compile
  generalize performed : (c.runSources job.toSources).perform h = out at gathers
  obtain @⟨turns, h₁, sources, follows, own⟩ := gathers
  have same : c.reader h₁ = c.reader h := by rw [reader, reader, follows.directory]
  have ready₁ := follows.ready ready
  obtain ⟨h₂, logged, beside⟩ := c.logSkipped_logs
    ((c.reader h).skipped (turns.flatMap fun t => t.written h)) h₁ ready₁
  obtain ⟨h₃, logged', beside'⟩ :=
    Log.debug_logs owner ("Compiled ".toList ++ Text.ofNat job.size ++
    " source(s): ".toList ++ Text.ofNat
      ((c.reader h).read (turns.flatMap fun t => t.written h)).length ++
    " diagnostic(s)".toList) [] h₂ (beside.shows.ready ready₁)
  have all := (follows.trans beside.shows.toFollows).trans beside'.shows.toFollows
  refine ⟨turns, h₃, ?_, sources, own, ?_, fun m marker bare dotless x h =>
    takes_iff marker bare dotless⟩
  · rw [perform_bind_ok performed, perform_bind_ok (perform_get _), same]
    dsimp only
    rw [perform_bind_ok logged, perform_bind_ok logged', perform_pure, read_turns]
  · simpa using all.runs

/-! Two contracts among other files.  Neither compiles, and the linker cannot be started. -/

/-- A job of two contracts, a text, and a copy of a contract. -/
def mixed : Job := Job.ofSources
  [{ path := "/p/contracts/A.sol".toList, content := "?".toList },
    { path := "/p/contracts/notes.txt".toList, content := [] },
    { path := "/p/contracts/~A.sol".toList, content := "?".toList },
    { path := "/p/contracts/B.tsol".toList, content := "?".toList }]

/-- What the compiler prints, whatever it compiles. -/
def complaint : Text := "Error: Expected pragma.\n --> ~A.sol:1:1:\n  |\n1 | ?\n  | ^\n".toList

/-- A host with a toolchain that finds an error in everything. -/
def unlinked : Host where
  files := fresh.files
  tools _ _ i fs :=
    (if i.program = installed.toolchain.compiler.path then
        .ok { status := 1, output := [], errors := Utf8.encode complaint }
      else .error .missing, fs)

theorem unlinked_starts (i : Invocation) : unlinked.Starts i := by
  intro fs e failed
  dsimp only [unlinked] at failed
  split at failed
  · cases failed
  · obtain rfl := Except.error.inj failed
    rfl

theorem unlinked_clean : installed.Clean mixed.toSources unlinked where
  directory := by decide +kernel
  temp := by decide
  marker := by decide
  toolchain := by decide +kernel
  paths := by decide +kernel
  saved x mem fs finished name ran told := by
    have other : ¬ installed.toolchain.linker.path = installed.toolchain.compiler.path := by
      decide +kernel
    have ended : (if installed.toolchain.linker.path = installed.toolchain.compiler.path then
        .ok { status := 1, output := [], errors := Utf8.encode complaint }
      else .error .missing : Except FileError Finished) = .ok finished := ran
    rw [if_neg other] at ended
    cases ended
  starts i _ := unlinked_starts i

theorem unlinked_staysInstalled : installed.StaysInstalled mixed.toSources unlinked := by
  have there (h : Host) (all : (installed.toolchain.wanted.all fun w =>
      h.files.isThere h.cwd w.1.path) = true) :
      installed.toolchain.Installed h := fun w mem => by
    refine ⟨List.all_eq_true.mp all w mem, .inl ?_⟩
    have any : ∀ w ∈ installed.toolchain.wanted, w.2 = [] := by decide
    exact any w mem
  have sources : mixed.toSources = [
      { path := "/p/contracts/A.sol".toList, content := "?".toList },
      { path := "/p/contracts/notes.txt".toList, content := [] },
      { path := "/p/contracts/~A.sol".toList, content := "?".toList },
      { path := "/p/contracts/B.tsol".toList, content := "?".toList }] := by decide +kernel
  rw [sources]
  exact ⟨fun _ => there _ (by decide +kernel), fun _ => there _ (by decide +kernel),
    fun _ => there _ (by decide +kernel), fun _ => there _ (by decide +kernel), trivial⟩

/-- Both contracts are compiled, one after the other. -/
theorem mixed_gathers :
    unlinked.LogReady ∧ installed.Clean mixed.toSources unlinked ∧
      installed.StaysInstalled mixed.toSources unlinked ∧
      ∃ (turns : List Turn) (h' : Host), (installed.compile mixed).perform unlinked
          = (.ok (turns.flatMap fun t => t.runs.flatMap (installed.diagnosticsOf unlinked)), h') ∧
        (turns.map Turn.source).map Source.path =
          ["/p/contracts/A.sol".toList, "/p/contracts/B.tsol".toList] ∧
        ∀ (x : Source) (h : Host), installed.takes x h = true ↔
          installed.staging.stages x h = true ∧ ∃ ext ∈ sourceExtensions, ext <:+ x.path := by
  refine ⟨nofun, unlinked_clean, unlinked_staysInstalled, ?_⟩
  obtain ⟨turns, h', performed, sources, -, -, taken⟩ :=
    installed.compile_gathers mixed unlinked nofun unlinked_clean unlinked_staysInstalled
  refine ⟨turns, h', performed, ?_, taken '~' rfl (by decide) (by decide)⟩
  rw [sources]
  decide +kernel

/-- The same job gives nothing if its first record meets a log that cannot be set up. -/
theorem mixed_unlogged :
    ∃ h', (installed.compile mixed).perform { unlinked with log := Host.homeless.log }
    = (.error .noHome, h') :=
  ⟨_, rfl⟩

end Compilation
end ContractCheck
