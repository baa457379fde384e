import ContractCheck.Proofs.Toolchain.Installing

/-! # Making sure of the toolchain again

Once it was made sure that the toolchain is there, doing so again changes nothing if every component
that a version is asked of tells that version, and otherwise installs anew what was installed just
before (`Toolchain.ensure_again_iff`).
-/
namespace ContractCheck

open FileSystem (placeOf)
open ContractCheck.Action

variable {π : Premises} {h h' : Host}

namespace Component

variable {c : Component} {version : Text}

theorem tells_of_outcome (same : h'.outcome = h.outcome) (runs : List ToolRun) :
    c.Tells version h' runs ↔ c.Tells version h runs := by
  unfold Tells
  rw [same]

/-- What was made sure of stays so as long as the note is left alone and other tools are run. -/
theorem Settled.onward {changed : Place → Prop} {run : Invocation → Prop} {runs more : List ToolRun}
    (settled : c.Settled version runs h) (on : h.On π) (onward : π.Onward changed run h h')
    (site : π.site c.path) (note : π.note c.versionPath)
    (kept : ¬ changed (placeOf π.cwd c.versionPath))
    (other : ∀ r ∈ more, r.invocation ≠ c.asking) : c.Settled version (runs ++ more) h' where
  there := by
    rw [onward.on.cwd]
    exact onward.stays.there _ site (on.cwd ▸ settled.there)
  noted := settled.noted.imp_right fun ⟨bytes, t, read, decoded, same⟩ => by
    refine ⟨bytes, t, ?_, decoded, ?_⟩
    · rw [onward.on.cwd]
      exact onward.stays.read _ ⟨note, kept⟩ bytes (on.cwd ▸ read)
    · rw [same, tells_append other, tells_of_outcome (on.outcome onward.on)]

theorem Settled.prepend {runs more : List ToolRun} (settled : c.Settled version runs h)
    (other : ∀ r ∈ more, r.invocation ≠ c.asking) : c.Settled version (more ++ runs) h where
  there := settled.there
  noted := settled.noted.imp_right fun ⟨bytes, t, read, decoded, same⟩ =>
    ⟨bytes, t, read, decoded, same.trans (tells_prepend other).symm⟩

/-- What is logged on a terminal that keeps it stays there. -/
theorem log_shows {message : Text} {rest : Action Unit} {u : Unit} (on : h.On π)
    (within : Within (π.Step (c.Own π.cwd) fun _ => True) rest)
    (done : (Terminal.keeping.log message >>= fun _ => rest).perform h = (.ok u, h')) :
    h.transcript.length < h'.transcript.length := by
  obtain ⟨_, h₁, shown, done⟩ := ok_of_bind done
  have shows : π.Onward (c.Own π.cwd) (fun _ => True) h h₁ := (log_step _ _).after shown on
  have longer : h₁.transcript.length = h.transcript.length + 1 := by
    obtain rfl := (Prod.mk.inj shown).2
    exact List.length_append
  have kept := (within.after done shows.on).transcript.length_le
  omega

/-- An installation is announced. -/
theorem install_shows {chosen : Points} (expected : c.partOf = none → π.expected c.asking)
    (on : h.On π) (done : (c.install .keeping chosen).perform h = (.ok ⟨⟩, h')) :
    h.transcript.length < h'.transcript.length := by
  obtain ⟨_, h₁, told, done⟩ := ok_of_bind done
  have announced : π.Onward (c.Own π.cwd) (fun _ => True) h h₁ :=
    (announce_step .keeping chosen).after told on
  have rest : Within (π.Step (c.Own π.cwd) fun _ => True)
      (c.unpacked chosen >>= c.settleIn .keeping chosen) :=
    .bind (.of_still (c.unpacked_still chosen)) fun bytes =>
      settleIn_step expected (fun _ => id) trivial .keeping chosen bytes
  have kept := (rest.after done announced.on).transcript.length_le
  have longer : h.transcript.length < h₁.transcript.length := by
    unfold announce at told
    dsimp only at told
    split at told
    · exact log_shows (c := c) on (Premises.log_step _ _ _ _) told
    · rw [if_neg (by decide)] at told
      exact log_shows (c := c) on Premises.open_step told
  omega

end Component

namespace Toolchain

/-! ## One component after another -/

section Each

variable {l : List (Component × Text)}
  (expected : ∀ w ∈ l, w.1.partOf = none → π.expected w.1.asking)
include expected

theorem ensureEach_step (terminal : Terminal) :
    Within (π.Step (fun q => ∃ w ∈ l, w.1.Own π.cwd q) fun i => ∃ w ∈ l, i = w.1.asking)
      (ensureEach terminal l) := by
  have each (rest : List (Component × Text)) (sub : rest ⊆ l) :
      Within (π.Step (fun q => ∃ w ∈ l, w.1.Own π.cwd q) fun i => ∃ w ∈ l, i = w.1.asking)
        (ensureEach terminal rest) := by
    induction rest with
    | nil => exact .pure _
    | cons w rest ih =>
      obtain ⟨mem, sub⟩ := List.cons_subset.mp sub
      exact .bind (Component.ensure_step (expected w mem) (fun q own => ⟨w, mem, own⟩) ⟨w, mem, rfl⟩
        terminal w.2)
        fun _ => ih sub
  exact each l (List.Subset.refl l)

/-- What it takes that components do not get into each other's way: the later one is installed
elsewhere and is another program. -/
def Beside (cwd : Place) (w w' : Component × Text) : Prop :=
  ¬ w'.1.Own cwd (placeOf cwd w.1.versionPath) ∧ w.1.asking ≠ w'.1.asking

/-- **Each component is left as it was made sure of**, whatever is done for those behind it. -/
theorem ensureEach_settles (site : ∀ w ∈ l, π.site w.1.path)
    (note : ∀ w ∈ l, π.note w.1.versionPath) (apart : l.Pairwise (Beside π.cwd))
    {terminal : Terminal} (on : h.On π) (done : (ensureEach terminal l).perform h = (.ok ⟨⟩, h')) :
    ∃ new, h'.runs = h.runs ++ new ∧ (∀ r ∈ new, ∃ w ∈ l, r.invocation = w.1.asking) ∧
      ∀ w ∈ l, w.1.Settled w.2 new h' := by
  induction l generalizing h with
  | nil =>
    obtain rfl := (Prod.mk.inj done).2
    exact ⟨[], (List.append_nil _).symm, nofun, nofun⟩
  | cons w rest ih =>
    obtain ⟨expected₁, expected⟩ := List.forall_mem_cons.mp expected
    obtain ⟨site₁, site⟩ := List.forall_mem_cons.mp site
    obtain ⟨note₁, note⟩ := List.forall_mem_cons.mp note
    obtain ⟨apart₁, apart⟩ := List.pairwise_cons.mp apart
    obtain ⟨_, h₁, first, done⟩ := ok_of_bind done
    obtain ⟨new₁, runs₁, asked₁, settled₁⟩ :=
      Component.ensure_settles expected₁ site₁ note₁ on first
    have ensured : Within (π.Step (w.1.Own π.cwd) (· = w.1.asking)) (w.1.ensure terminal w.2) :=
      Component.ensure_step expected₁ (fun _ => id) (by rfl) terminal w.2
    have on₁ := (ensured.after first on).on
    obtain ⟨new, runs, asked, settled⟩ := ih expected site note apart on₁ done
    have onward := (ensureEach_step expected terminal).after done on₁
    refine ⟨new₁ ++ new, by rw [runs, runs₁, List.append_assoc], fun r mem => ?_,
      List.forall_mem_cons.mpr ⟨?_, ?_⟩⟩
    · rcases List.mem_append.mp mem with mem | mem
      · exact ⟨w, List.mem_cons_self, asked₁ r mem⟩
      · obtain ⟨w', mem', asked⟩ := asked r mem
        exact ⟨w', List.mem_cons_of_mem _ mem', asked⟩
    · -- The components behind leave this one's note alone, and are asked themselves.
      refine settled₁.onward on₁ onward site₁ note₁ (fun ⟨w', mem', own⟩ => (apart₁ w' mem').1 own)
        fun r mem same => ?_
      obtain ⟨w', mem', asked⟩ := asked r mem
      exact (apart₁ w' mem').2 (same.symm.trans asked)
    · intro w' mem'
      exact (settled w' mem').prepend fun r mem same =>
        (apart₁ w' mem').2 ((asked₁ r mem).symm.trans same)

/-- A pass that leaves the host as it is finds every component installed. -/
theorem installed_of_still (on : h.On π) (still : (ensureEach .keeping l).perform h = (.ok ⟨⟩, h)) :
    ∀ w ∈ l, w.1.Installed w.2 h := by
  induction l with
  | nil => exact nofun
  | cons w rest ih =>
    obtain ⟨expected₁, expected⟩ := List.forall_mem_cons.mp expected
    obtain ⟨_, h₁, first, done⟩ := ok_of_bind still
    have ensured : Within (π.Step (w.1.Own π.cwd) (· = w.1.asking)) (w.1.ensure .keeping w.2) :=
      Component.ensure_step expected₁ (fun _ => id) (by rfl) .keeping w.2
    have on₁ := (ensured.after first on).on
    have back := ((ensureEach_step expected .keeping).after done on₁).transcript.length_le
    rcases Component.ensure_done first with ⟨installed, rfl⟩ | ⟨version, -, installs⟩
    · exact List.forall_mem_cons.mpr ⟨installed, ih expected done⟩
    · -- An installation is announced, and what was said is never taken back.
      have longer := Component.install_shows expected₁ on installs
      omega

end Each

/-! ## The toolchain of a configuration -/

/-- A toolchain that is left alone by what surrounds it: a program that is asked for its version
takes nothing away that is installed and changes no note, the log is kept elsewhere, and a note that
is there can be read. -/
structure Undisturbed (t : Toolchain) (h : Host) : Prop where
  gentle : ∀ w ∈ t.wanted, w.1.partOf = none → ∀ fs,
    FileSystem.Stays h.cwd (fun path => ∃ w ∈ t.wanted, path = w.1.path)
      (fun path => ∃ w ∈ t.wanted, path = w.1.versionPath) fs
        (h.tools h.cwd h.environment w.1.asking fs).2
  log : ∀ file ∈ h.logFiles, ∀ w ∈ t.wanted, placeOf h.cwd w.1.versionPath ≠ placeOf h.cwd file
  legible : ∀ w ∈ t.wanted, h.files.locked (placeOf h.cwd w.1.versionPath) = false

/-- What surrounds a toolchain. -/
def premises {t : Toolchain} (undisturbed : t.Undisturbed h) : Premises where
  cwd := h.cwd
  environment := h.environment
  tools := h.tools
  expected i := ∃ w ∈ t.wanted, w.1.partOf = none ∧ i = w.1.asking
  site path := ∃ w ∈ t.wanted, path = w.1.path
  note path := ∃ w ∈ t.wanted, path = w.1.versionPath
  gentle := by
    rintro i ⟨w, mem, program, rfl⟩ fs
    exact undisturbed.gentle w mem program fs

theorem on_premises {t : Toolchain} (undisturbed : t.Undisturbed h) :
    h.On (premises undisturbed) where
  cwd := rfl
  environment := rfl
  tools := rfl
  log := by
    rintro file mem path ⟨w, mem', rfl⟩
    exact undisturbed.log file mem w mem'
  legible := by
    rintro path ⟨w, mem, rfl⟩
    exact undisturbed.legible w mem

section Names

variable (home : Text) (s : ToolchainSettings)

/-- The file of a component in the directory of its family. -/
def fileOf (home file : Text) : Text := Path.Posix.child (Path.Posix.child home family) file

theorem placeOf_fileOf {file : Text} (bare : '/' ∉ file) (proper : Path.Proper file) (cwd : Place) :
    (placeOf cwd (fileOf home file)).getLast? = some file :=
  FileSystem.placeOf_endsIn bare proper (Path.EndsIn.child bare _ proper) cwd

/-- A note has a name of its own. -/
theorem placeOf_note {file : Text} (bare : '/' ∉ file) (proper : Path.Proper file) (cwd : Place) :
    (placeOf cwd (Path.Posix.tidy (fileOf home file ++ ".version".toList))).getLast?
      = some (file ++ ".version".toList) := by
  have bare' : '/' ∉ file ++ ".version".toList := by
    rw [List.mem_append, not_or]
    exact ⟨bare, by decide⟩
  have proper' : Path.Proper (file ++ ".version".toList) :=
    Path.proper_of_mem (List.mem_append_right _ (show 'v' ∈ ".version".toList by decide))
      (by decide)
  have ends : Path.EndsIn (file ++ ".version".toList) (fileOf home file ++ ".version".toList) := by
    rcases Path.EndsIn.child bare (Path.Posix.child home family) proper with same | ⟨front, same⟩
    · exact .inl (by rw [fileOf, same])
    · exact .inr ⟨front, by rw [fileOf, same, List.append_assoc]; rfl⟩
  exact FileSystem.placeOf_endsIn bare' proper' (ends.tidy bare' proper') cwd

theorem beside_of_files {c c' : Component} {file file' : Text} (path : c.path = fileOf home file)
    (path' : c'.path = fileOf home file') (bare : '/' ∉ file ∧ '/' ∉ file')
    (proper : Path.Proper file ∧ Path.Proper file')
    (other : file ≠ file') (note : file ++ ".version".toList ≠ file') (cwd : Place)
    (version version' : Text) :
    Beside cwd (c, version) (c', version') := by
  have last := placeOf_fileOf home bare.1 proper.1 cwd
  have last' := placeOf_fileOf home bare.2 proper.2 cwd
  have noted := placeOf_note home bare.1 proper.1 cwd
  have noted' := placeOf_note home bare.2 proper.2 cwd
  rw [← path] at last noted
  rw [← path'] at last' noted'
  constructor
  · rintro (same | same)
    · rw [Component.versionPath] at same
      rw [same, last'] at noted
      exact note (Option.some.inj noted).symm
    · rw [Component.versionPath, Component.versionPath] at same
      rw [same, noted'] at noted
      exact other (List.append_cancel_right (Option.some.inj noted)).symm
  · intro same
    have path : c.path = c'.path := congrArg Invocation.program same
    rw [path, last'] at last
    exact other (Option.some.inj last).symm

/-- The components of a configuration have files of their own. -/
theorem beside_at (cwd : Place) : (at_ home s).wanted.Pairwise (Beside cwd) := by
  have compiler : (at_ home s).compiler.path = fileOf home compilerName := by rw [fileOf]; rfl
  have linker : (at_ home s).linker.path = fileOf home linkerName := by rw [fileOf]; rfl
  have stdlib : (at_ home s).stdlib.path = fileOf home (stdlibName ++ ".tvm".toList) := by
    rw [fileOf]; rfl
  have first (v v' : Text) : Beside cwd ((at_ home s).compiler, v) ((at_ home s).linker, v') :=
    beside_of_files home compiler linker (by decide) (by decide) (by decide) (by decide) cwd v v'
  have second (v v' : Text) : Beside cwd ((at_ home s).compiler, v) ((at_ home s).stdlib, v') :=
    beside_of_files home compiler stdlib (by decide) (by decide) (by decide) (by decide) cwd v v'
  have third (v v' : Text) : Beside cwd ((at_ home s).linker, v) ((at_ home s).stdlib, v') :=
    beside_of_files home linker stdlib (by decide) (by decide) (by decide) (by decide) cwd v v'
  unfold wanted
  exact List.pairwise_cons.mpr ⟨List.forall_mem_cons.mpr ⟨first _ _,
    List.forall_mem_singleton.mpr (second _ _)⟩,
    List.pairwise_pair.mpr (third _ _)⟩

end Names

/-- **Making sure of a toolchain again changes nothing exactly if every component tells the version
that is asked for**: the data file the version itself, and a program in its answer when it was
installed. -/
theorem ensure_again_iff {home : Text} {s : ToolchainSettings} {terminal : Terminal}
    (undisturbed : (at_ home s).Undisturbed h)
    (done : ((at_ home s).ensure terminal).perform h = (.ok ⟨⟩, h')) :
    ∃ asked, h'.runs = h.runs ++ asked ∧
      ((∀ terminal', ((at_ home s).ensure terminal').perform h' = (.ok ⟨⟩, h')) ↔
        ∀ w ∈ (at_ home s).wanted, w.2 = [] ∨ w.1.Tells w.2 h asked) := by
  have on := on_premises undisturbed
  have expected : ∀ w ∈ (at_ home s).wanted, w.1.partOf = none →
      (premises undisturbed).expected w.1.asking :=
    fun w mem program => ⟨w, mem, program, rfl⟩
  obtain ⟨asked, runs, -, settled⟩ := ensureEach_settles expected (fun w mem => ⟨w, mem, rfl⟩)
    (fun w mem => ⟨w, mem, rfl⟩) (beside_at home s h.cwd) on done
  have on' := ((ensureEach_step expected terminal).after done on).on
  have told : (at_ home s).Installed h' ↔ ∀ w ∈ (at_ home s).wanted, w.2 = [] ∨
      w.1.Tells w.2 h asked := by
    refine forall₂_congr fun w mem => ?_
    rw [(settled w mem).installed_iff, Component.tells_of_outcome (on.outcome on')]
  refine ⟨asked, runs, ?_⟩
  rw [← told]
  exact ⟨fun still => installed_of_still expected on' (still .keeping), ensure_installed⟩

/-! ## Versions that are told in other words -/

/-- What the programs say when they are asked for their versions. -/
def saidBy (program : Text) : Text :=
  if program = "/tc/solidity/solc".toList then "Version: 0.47.0".toList else "linker 0.1".toList

/-- A host that offers each component in one version, and the compiler under a shorter version too.
The compiler tells its version with all its parts. -/
def offering : Host where
  files :=
    { entries := [(["bins".toList], .directory)] ++
        ["solc_0_47_0_linux.gz".toList, "solc_0_47_linux.gz".toList,
          "tvm_linker_0_1_linux.gz".toList,
          "stdlib_sol_0_47_0.tvm.gz".toList].map fun name =>
            (["bins".toList, name], .file (Compression.pack [35]) .plain) }
  tools _ _ i fs := (.ok { status := 0, output := Utf8.encode (saidBy i.program), errors := [] },
    fs)

/-- The toolchain with a version of the compiler, and with the others as they are offered. -/
def wanting (compiler : Text) : Toolchain :=
  at_ "/tc".toList
    { sourceUrl := "file:///bins".toList, compilerVersion := compiler, linkerVersion := "0.1".toList
      stdlibVersion := "0.47.0".toList }

/-- The host after it was first made sure that the toolchain is there. -/
def supplied (compiler : Text) : Host := (((wanting compiler).ensure .keeping).perform offering).2

theorem offering_undisturbed (compiler : Text) : (wanting compiler).Undisturbed offering where
  gentle _ _ _ fs := .refl _ _ _ fs
  log := nofun
  legible := by
    have all : ∀ w ∈ (wanting []).wanted,
        offering.files.locked (placeOf offering.cwd w.1.versionPath) = false := by
      decide +kernel
    -- Where a component is does not depend on the version that is asked for.
    intro w mem
    simp only [wanted, List.mem_cons, List.not_mem_nil, or_false] at mem
    rcases mem with rfl | rfl | rfl
    · exact all ((wanting []).compiler, []) List.mem_cons_self
    · exact all _ (List.mem_cons_of_mem _ List.mem_cons_self)
    · exact all _ (List.mem_cons_of_mem _ (List.mem_cons_of_mem _ List.mem_cons_self))

theorem wanting_tells (runs : List ToolRun) :
    ∀ w ∈ (wanting "0.47.0".toList).wanted, w.2 = [] ∨ w.1.Tells w.2 offering runs := by
  have outcome (r : ToolRun) :
      offering.outcome r = .ok
        { status := 0, output := Utf8.encode (saidBy r.invocation.program), errors := [] } := rfl
  have compiler : (wanting "0.47.0".toList).compiler.Tells "0.47.0".toList offering runs := by
    intro r _ called
    rw [outcome, called]
    decide +kernel
  have linker : (wanting "0.47.0".toList).linker.Tells "0.1".toList offering runs := by
    intro r _ called
    rw [outcome, called]
    decide +kernel
  have stdlib : (wanting "0.47.0".toList).stdlib.Tells "0.47.0".toList offering runs :=
    (by decide +kernel : Text.reread "0.47.0".toList = "0.47.0".toList)
  exact List.forall_mem_cons.mpr ⟨.inr compiler, List.forall_mem_cons.mpr ⟨.inr linker,
    List.forall_mem_singleton.mpr (.inr stdlib)⟩⟩

/-- The version with all its parts is told, so a second pass finds it. -/
theorem full_version_kept :
    (wanting "0.47.0".toList).Undisturbed offering ∧
      ((wanting "0.47.0".toList).ensure .keeping).perform offering =
        (.ok ⟨⟩, supplied "0.47.0".toList) ∧
      ∀ terminal, ((wanting "0.47.0".toList).ensure terminal).perform (supplied "0.47.0".toList)
        = (.ok ⟨⟩, supplied "0.47.0".toList) := by
  have done : ((wanting "0.47.0".toList).ensure .keeping).perform offering =
      (.ok ⟨⟩, supplied "0.47.0".toList) :=
    eq_ok_of_toOption (by decide +kernel)
  obtain ⟨runs, -, again⟩ := ensure_again_iff (offering_undisturbed "0.47.0".toList) done
  exact ⟨offering_undisturbed _, done, again.mpr (wanting_tells runs)⟩

/-- The shorter version is never told, so a second pass downloads the compiler once more. -/
theorem short_version_downloaded_again :
    ((wanting "0.47".toList).ensure .keeping).perform offering = (.ok ⟨⟩, supplied "0.47".toList) ∧
      (((wanting "0.47".toList).ensure .keeping).perform (supplied "0.47".toList)).2.transcript
        = (supplied "0.47".toList).transcript ++
          ["Downloading solc 0.47 from file:///bins/solc_0_47_linux.gz\n".toList,
            "solc 0.47.0 installed\n".toList] :=
  ⟨eq_ok_of_toOption (by decide +kernel), by decide +kernel⟩

end Toolchain
end ContractCheck
