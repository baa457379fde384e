import ContractCheck.Proofs.Schedule.InForce
import ContractCheck.Proofs.Schedule.Clearing

/-! # What a pass reports

A pass calls the linter that is set when it begins, and when that is over it is compiled, if that is
wanted then.  Each of the two adds what it found, or nothing when it failed; and when the pass ends,
what was found is published if the document is open (`Fate.reported`).

There is one way in which a pass loses more than what failed.  The failure of a linter is logged
under the name of the linter that is set *then*.  When another configuration has taken the linter
away meanwhile, there is no such name, and the pass ends at once: nothing is compiled and nothing is
published (`Fate.lost`).

Every pass of every run that ended has one of these fates, and it ended once; and whatever was
published is the one report of a pass, or the empty set for a document that was closed
(`run_reports`).
-/
namespace ContractCheck.Schedule

/-! ## The fates of passes -/

/-- The linter was called for a pass that had begun when so much had been noted. -/
def LintCalled (p : Pass) (l : Linter) (before h : History) : Prop :=
  ∃ t t' starter, (t', .lint l.name p.document) :: (t, .began starter p) :: before <:+ h

/-- The document of a pass began to be compiled when so much had been noted, with the directories in
force. -/
def CompileCalled (first : Scheduler) (p : Pass) (start h : History) : Prop :=
  ∃ t, (t, .compile p.document first.root (settingsAt first start).dependencies
    (settingsAt first start).dependencyContracts) :: start <:+ h

/-- What linting gave a pass, and how much had been noted when the pass began and when it was
linted. -/
inductive Lints (w : Surroundings) (first : Scheduler) (p : Pass) :
    History → History → List EditorDiagnostic → Prop
  /-- No linter was set. -/
  | unset {before : History} {t : Rat} {starter : Starter}
      (unset : linterAt w first before = none) :
      Lints w first p before ((t, .began starter p) :: before) []
  | found {before h : History} {l : Linter} {found : List EditorDiagnostic}
      (set : linterAt w first before = some l) (called : LintCalled p l before h)
      (answer : w.lint h.length l p.document = .ok found) : Lints w first p before h found
  /-- The linter failed while one was set. -/
  | failed {before h : History} {l l' : Linter} {trouble : Trouble} {t : Rat} {message : Text}
      (set : linterAt w first before = some l) (called : LintCalled p l before h)
      (answer : w.lint h.length l p.document = .error trouble)
      (named : linterAt w first h = some l') :
      Lints w first p before ((t, .log .warning message) :: h) []

/-- What compiling gave a pass, and how much had been noted when it was linted and when it was
compiled. -/
inductive Errors (w : Surroundings) (first : Scheduler) (p : Pass) :
    History → History → List EditorDiagnostic → Prop
  /-- Compiling was not wanted when the pass was linted. -/
  | unwanted {linted : History} (off : (settingsAt first linted).asYouType = false) :
      Errors w first p linted linted []
  | found {linted start h : History} {t : Rat} {errors : List CompilerError}
      (wanted : (settingsAt first linted).asYouType = true) (later : linted <:+ start)
      (called : CompileCalled first p start h)
      (answer : w.compile (h.length + 1) p.document = .ok errors) :
      Errors w first p linted ((t, .compiled p.document) :: h)
        (Scheduler.ownErrors p.document errors)
  | failed {linted start h : History} {t t' : Rat} {message : Text} {trouble : Trouble}
      (wanted : (settingsAt first linted).asYouType = true) (later : linted <:+ start)
      (called : CompileCalled first p start h)
      (answer : w.compile (h.length + 1) p.document = .error trouble) :
      Errors w first p linted ((t', .log .warning message) :: (t, .compiled p.document) :: h) []

/-- What a pass noted about its report when so much had been noted. -/
inductive Report (w : Surroundings) (p : Pass) (h : History) : History → Prop
  | closed (closed : (openAt h).has p.document.uri = false) : Report w p h []
  | published {t t' : Rat} {message : Text} (current : (openAt h).has p.document.uri = true)
      (answer : w.publish (h.length + 1) p.document.uri p.found = none) :
      Report w p h [(t', .log .debug message), (t, .publish p.document.uri p.found)]
  /-- The publisher did not take it. -/
  | refused {t t' : Rat} {message : Text} {trouble : Trouble}
      (current : (openAt h).has p.document.uri = true)
      (answer : w.publish (h.length + 1) p.document.uri p.found = some trouble) :
      Report w p h [(t', .log .error message), (t, .publish p.document.uri p.found)]

/-- What came of a pass, when so much had been noted as it ended. -/
inductive Fate (w : Surroundings) (first : Scheduler) (p : Pass) : History → Prop
  /-- What was found is what linting found, and behind it the errors. -/
  | reported {before linted h notes : History} {lints errors : List EditorDiagnostic}
      (linting : Lints w first p.start before linted lints)
      (compiling : Errors w first p.start linted h errors)
      (holds : p.found = lints ++ errors) (report : Report w p h notes) :
        Fate w first p (notes ++ h)
  /-- The linter failed when none was set any more. -/
  | lost {before h : History} {l : Linter} {trouble : Trouble} {t : Rat} {message : Text}
      (set : linterAt w first before = some l) (called : LintCalled p.start l before h)
      (answer : w.lint h.length l p.document = .error trouble) (unset : linterAt w first h = none)
      (empty : p.found = []) : Fate w first p ((t, .log .error message) :: h)

/-- Whether a pass that ended has a fate. -/
def Ends (w : Surroundings) (first : Scheduler) (n : Note) (older : History) : Prop :=
  match n with
  | .ended p => Fate w first p older
  | _ => True

/-- Where a publication comes from: a document was closed, or it is the report of a pass that ends
next. -/
inductive Owner (uri : Text) (found : List EditorDiagnostic) : History → History → Prop
  | closing {newer notes before : History} {t : Rat} {order : Nat} {d : Document}
      (about : d.uri = uri)
      (empty : found = []) (preparing : ∀ x ∈ notes, x.2.Preparing) :
      Owner uri found newer (notes ++ (t, .received order (.closed d)) :: before)
  | pass {newer older : History} {t t' : Rat} {level : LogLevel} {message : Text} {p : Pass}
      (about : p.document.uri = uri) (holds : p.found = found) :
      Owner uri found (newer ++ [(t', .ended p), (t, .log level message)]) older

/-- Whether all publications have an owner. -/
def Owned (h : History) : Prop :=
  ∀ newer older t uri found, h = newer ++ (t, .publish uri found) :: older →
    Owner uri found newer older

theorem Owner.extend {uri : Text} {found : List EditorDiagnostic} {newer older : History}
    (notes : History)
    (owner : Owner uri found newer older) : Owner uri found (notes ++ newer) older := by
  cases owner with
  | closing about empty preparing => exact .closing about empty preparing
  | pass about holds =>
    rw [← List.append_assoc]
    exact .pass about holds

/-- When new publications have owners, all have. -/
theorem Owned.extend {h : History} (notes : History) (old : Owned h)
    (new : ∀ newer older t uri found, notes = newer ++ (t, .publish uri found) :: older →
      Owner uri found newer (older ++ h)) : Owned (notes ++ h) := by
  intro newer older t uri found split
  rcases List.append_eq_append_iff.mp split with ⟨rest, rfl, rest_eq⟩ | ⟨rest, notes_eq, older_eq⟩
  · exact (old rest older t uri found rest_eq).extend notes
  · cases rest with
    | nil =>
      rw [List.append_nil] at notes_eq
      have owner := (old [] older t uri found older_eq.symm).extend notes
      rwa [List.append_nil, notes_eq] at owner
    | cons x rest =>
      obtain ⟨rfl, rfl⟩ := List.cons.inj older_eq
      exact new newer rest t uri found notes_eq

theorem Owned.silent {h : History} (notes : History) (old : Owned h)
    (silent : ∀ x ∈ notes, ∀ uri found, x.2 ≠ .publish uri found) : Owned (notes ++ h) :=
  old.extend notes fun newer older t uri found split =>
    absurd rfl (silent (t, .publish uri found) (by simp [split]) uri found)

/-! ## What is known of passes at points and in hands -/

/-- What was found so far is what linting found. -/
def Point.Sound (w : Surroundings) (first : Scheduler) (h : History) : Point → Prop
  | .inPass (.linting p l) _ =>
    p.found = [] ∧ ∃ before, linterAt w first before = some l ∧ LintCalled p.start l before h
  | .inPass (.queued p) _ => ∃ before linted, Lints w first p.start before linted p.found ∧
      (settingsAt first linted).asYouType = true ∧ linted <:+ h
  | .inPass (.compiling p) _ => ∃ before linted start, Lints w first p.start before linted p.found ∧
      (settingsAt first linted).asYouType = true ∧ linted <:+ start ∧
      CompileCalled first p.start start h
  | _ => True

/-- What a hand holds is what its pass found as far as it has come, and nothing was noted since. -/
def Hand.Sound (w : Surroundings) (first : Scheduler) (h : History) : Hand → Prop
  | .heard _ _ (.closed d) => ∃ notes t order before,
      h = notes ++ (t, .received order (.closed d)) :: before ∧ ∀ x ∈ notes, x.2.Preparing
  | .pass _ .begun p _ =>
    p.found = [] ∧ ∃ t starter before, h = (t, .began starter p.start) :: before
  | .pass _ .linted p _ => ∃ before, Lints w first p.start before h p.found
  | .pass _ .compiled p _ =>
      ∃ before linted lints errors, Lints w first p.start before linted lints ∧
      Errors w first p.start linted h errors ∧ p.found = lints ++ errors
  | _ => True

/-- What is known of a pass at a point stays true. -/
theorem Point.Sound.later {w : Surroundings} {first : Scheduler} {h h' : History} {p : Point}
    (sound : p.Sound w first h) (more : h <:+ h') : p.Sound w first h' := by
  cases p with
  | inPass stage next =>
    cases stage with
    | linting p l =>
      obtain ⟨empty, before, set, t, t', starter, called⟩ := sound
      exact ⟨empty, before, set, t, t', starter, called.trans more⟩
    | queued p =>
      obtain ⟨before, linted, lints, wanted, earlier⟩ := sound
      exact ⟨before, linted, lints, wanted, earlier.trans more⟩
    | compiling p =>
      obtain ⟨before, linted, start, lints, wanted, earlier, t, called⟩ := sound
      exact ⟨before, linted, start, lints, wanted, earlier, t, called.trans more⟩
  | _ => trivial

/-- All that is known at points, and that all passes that ended have a fate and all publications an
owner. -/
structure Sound (w : Surroundings) (first s : Scheduler) : Prop where
  points : ∀ id p, s.point? id = some p → p.Sound w first s.history
  ends : Each (Ends w first) s.history
  owned : Owned s.history

/-- Whether a note neither tells that a pass ended nor publishes. -/
def Note.Silent (n : Note) : Prop := (∀ p, n ≠ .ended p) ∧ ∀ uri found, n ≠ .publish uri found

theorem ends_silent {w : Surroundings} {first : Scheduler} {n : Note} (silent : n.Silent)
    (older : History) :
    Ends w first n older := by
  cases n with
  | ended p => exact absurd rfl (silent.1 p)
  | _ => trivial

namespace Sound

variable {w : Surroundings} {first s s' : Scheduler} (h : Sound w first s)
include h

/-- Points may stay or be those of tasks that pause, and silent notes may be added. -/
theorem extend (notes : History)
    (points : ∀ id p, s'.point? id = some p → s.point? id = some p ∨ p.pass? = none)
    (history : s'.history = notes ++ s.history) (silent : ∀ x ∈ notes, x.2.Silent) :
    Sound w first s' where
  points id p stands := by
    rcases points id p stands with old | free
    · exact (h.points id p old).later (history ▸ List.suffix_append notes s.history)
    · cases p with
      | inPass stage next => cases free
      | _ => trivial
  ends := by
    rw [history]
    exact h.ends.append fun n mem _ _ => ends_silent (silent n mem) _
  owned := by
    rw [history]
    exact h.owned.silent notes fun x mem => (silent x mem).2

theorem noted {n : Note} (silent : n.Silent) : Sound w first (s.noted n) :=
  h.extend [_] (fun _ _ stands => .inl stands) rfl (List.forall_mem_singleton.mpr silent)

theorem place (id : Nat) {p : Point} (own : p.Sound w first s.history) :
    Sound w first (s.place id p) where
  points x q stands := by
    rw [Scheduler.place_history]
    rw [Scheduler.point?_place] at stands
    split at stands
    · obtain rfl := Option.some.inj stands
      exact own
    · exact h.points x q stands
  ends := by
    rw [Scheduler.place_history]
    exact h.ends
  owned := by
    rw [Scheduler.place_history]
    exact h.owned

theorem drop (id : Nat) : Sound w first (s.drop id) := by
  refine h.extend [] (fun x p stands => ?_) rfl nofun
  rw [Scheduler.point?_drop] at stands
  split at stands
  · cases stands
  · exact .inl stands

theorem launch (starter : Starter) (d : Document) : Sound w first (s.launch starter d).2 := by
  refine h.extend [_] (fun x p stands => ?_) (s.launch_history starter d)
    (List.forall_mem_singleton.mpr ⟨nofun, nofun⟩)
  rw [Scheduler.point?_launch] at stands
  exact .inl stands

theorem heard (order : Nat) (r : Request) : Sound w first (s.heard order r) := by
  refine h.extend [_] (fun x p stands => ?_) (s.heard_history order r)
    (List.forall_mem_singleton.mpr ⟨nofun, nofun⟩)
  rcases s.heard_point? order r with ⟨-, -, points⟩ | ⟨d, -, -, new, -, -, points⟩
  · exact .inl ((points x).symm.trans stands)
  · rw [points] at stands
    split at stands
    · obtain rfl := Option.some.inj stands
      exact .inr rfl
    · exact .inl stands

/-- A pass ends with its fate, and what it noted before was published by it. -/
theorem endPass {p : Pass} (notes : History) (told : s' = { s with history := notes ++ s.history })
    (fate : Fate w first p (notes ++ s.history)) (silent : ∀ x ∈ notes, ∀ q, x.2 ≠ .ended q)
    (owned : Owned ((s'.now, .ended p) :: (notes ++ s.history))) :
    Sound w first (s'.endPass p) := by
  have history : (s'.endPass p).history = (s'.now, .ended p) :: (notes ++ s.history) := by
    rw [Scheduler.endPass_history, told]
  have more : s.history <:+ (s'.endPass p).history := by
    rw [history]
    exact (List.suffix_append notes s.history).trans (List.suffix_cons ..)
  refine ⟨fun x q stands => ?_, ?_, history ▸ owned⟩
  · have points : ∀ y, s'.point? y = s.point? y := by rw [told]; exact fun _ => rfl
    rcases s'.endPass_point? p with ⟨-, same, -⟩ | ⟨-, new, -⟩
    · rw [same, points] at stands
      exact (h.points x q stands).later more
    · rw [new, points] at stands
      split at stands
      · obtain rfl := Option.some.inj stands
        trivial
      · exact (h.points x q stands).later more
  · rw [history]
    refine ⟨fate, h.ends.append fun n mem _ _ => ?_⟩
    obtain ⟨t, n⟩ := n
    cases n with
    | ended q => exact absurd rfl (silent _ mem q)
    | _ => trivial

/-- A pass that has come to its end reports what it found. -/
theorem conclude {p : Pass} {before linted : History} {lints errors : List EditorDiagnostic}
    (documents : s.documents = openAt s.history)
    (linting : Lints w first p.start before linted lints)
    (compiling : Errors w first p.start linted s.history errors)
    (holds : p.found = lints ++ errors) :
    Sound w first (s.conclude w p) := by
  have reported : ∀ {notes}, Report w p s.history notes → Fate w first p (notes ++ s.history) :=
    fun report => .reported linting compiling holds report
  -- The publication is followed by a note in the log and by the end of the pass.
  have owned : ∀ (t t' t'' : Rat) (level : LogLevel) (message : Text), Owned ((t'', .ended p) ::
      ([(t', .log level message), (t, .publish p.document.uri p.found)] ++ s.history)) := by
    intro t t' t'' level message
    refine h.owned.extend
      [(t'', .ended p), (t', .log level message), (t, .publish p.document.uri p.found)] ?_
    intro newer older time uri found split
    rcases newer with _ | ⟨a, _ | ⟨b, _ | ⟨c, newer⟩⟩⟩
    · cases split
    · cases split
    · cases split
      show Owner _ _ ([] ++ [_, _]) _
      exact .pass rfl rfl
    · simp at split
  unfold Scheduler.conclude
  split
  · next has =>
    have current : (openAt s.history).has p.document.uri = true := documents ▸ has
    dsimp only
    split
    · next answer =>
      exact h.endPass [_, _] rfl (reported (.published current answer)) (by simp) (owned _ _ _ _ _)
    · next t answer =>
      exact h.endPass [_, _] rfl (reported (.refused current answer)) (by simp) (owned _ _ _ _ _)
  · next gone =>
    have closed : (openAt s.history).has p.document.uri = false := by
      rw [← documents]
      simpa using gone
    refine h.endPass [] rfl (reported (.closed closed)) nofun ?_
    exact h.owned.silent [_] (List.forall_mem_singleton.mpr nofun)

end Sound

/-! ## Strides -/

variable {w : Surroundings} {first : Scheduler}

theorem silent_log {t : Rat} {level : LogLevel} {message : Text} :
    ∀ x ∈ [(t, Note.log level message)], x.2.Silent := List.forall_mem_singleton.mpr ⟨nofun, nofun⟩

/-- A pass that begins has found nothing, and its beginning is the newest note. -/
theorem launch_sound (s : Scheduler) (id : Nat) (starter : Starter) (d : Document)
    (next : Following) :
    (Hand.pass id .begun (s.launch starter d).1 next).Sound w first
      (s.launch starter d).2.history := by
  refine ⟨by rw [Scheduler.launch_fst], s.now, starter, s.history, ?_⟩
  rw [Scheduler.launch_history, Scheduler.launch_fst]
  rfl

/-- Notes of the preparations for a request do not hide the request. -/
theorem Hand.Sound.prepare {id order : Nat} {r : Request} {t : Rat} {n : Note} {h : History}
    (held : (Hand.heard id order r).Sound w first h) (preparing : n.Preparing) :
    (Hand.heard id order r).Sound w first ((t, n) :: h) := by
  cases r with
  | closed d =>
    obtain ⟨notes, t', order, before, rfl, others⟩ := held
    exact ⟨(t, n) :: notes, t', order, before, rfl, List.forall_mem_cons.mpr ⟨preparing, others⟩⟩
  | _ => trivial

/-- Compiling begins with the directories in force. -/
theorem compile_called {s : Scheduler} {hand : Hand} (force : InForce w first ⟨hand, s⟩)
    (p : Pass) :
    CompileCalled first p.start s.history (s.beginCompile p).history := by
  have root : s.root = first.root := force.root
  have settings : s.settings = settingsAt first s.history := force.settings
  refine ⟨s.now, ?_⟩
  rw [← root, ← settings]
  exact List.suffix_refl _

theorem Goes.sound {m n : Moment} (g : Goes w m n) (other : ¬ m.hand.Configures)
    (force : InForce w first m) (documents : m.scheduler.documents = openAt m.history)
    (h : Sound w first m.scheduler) (held : m.hand.Sound w first m.history) :
    Sound w first n.scheduler ∧ n.hand.Sound w first n.history := by
  cases g with
  | log level message =>
    exact ⟨h.noted (by simp [Note.Silent]), held.prepare (n := .log level message) trivial⟩
  | rule l => exact ⟨h.noted (by simp [Note.Silent]), held.prepare (n := .rules l) trivial⟩
  | adjust settings => exact absurd trivial other
  | relint linter => exact absurd trivial other
  | @clear s id order d =>
    obtain ⟨notes, t, order, before, history, preparing⟩ := held
    refine ⟨⟨fun x p stands => (h.points x p stands).later (List.suffix_cons ..), ⟨trivial, h.ends⟩,
      ?_⟩, trivial⟩
    refine h.owned.extend [_] fun newer older t' uri found split => ?_
    rcases newer with _ | ⟨a, newer⟩
    · cases split
      have history : s.history = _ := history
      rw [List.nil_append, history]
      exact .closing rfl rfl preparing
    · simp at split
  | opened idle current => exact ⟨h.launch _ _, launch_sound ..⟩
  | asked still => exact ⟨h.launch _ _, launch_sound ..⟩
  | swept idle => exact ⟨h.launch _ _, launch_sound ..⟩
  | @again s id order d runs =>
    refine ⟨h.extend [] (fun x p stands => ?_) (s.askAgain_history d.uri) (by simp), trivial⟩
    rw [Scheduler.point?_askAgain] at stands
    exact .inl stands
  | list first => exact ⟨h.extend [] (fun _ _ stands => .inl stands) rfl (by simp), trivial⟩
  | unlist => exact ⟨h.extend [] (fun _ _ stands => .inl stands) rfl (by simp), trivial⟩
  | @lint s id p next l set =>
    obtain ⟨empty, t, starter, before, history⟩ := held
    have noted : Sound w first (s.noted (.lint l.name p.document)) :=
      h.noted (by simp [Note.Silent])
    refine ⟨noted.place id (p := .inPass (.linting p l) next) ⟨empty, before, ?_, t, s.now, starter,
      ?_⟩, trivial⟩
    -- The linter that is set is the one that was set when the pass began.
    · have current : s.linter = linterAt w first s.history := force.linter
      have history : s.history = _ := history
      rw [history] at current
      exact current.symm.trans set
    · rw [Scheduler.noted_history, ← history]
      exact List.suffix_refl _
  | @plain s id p next unset =>
    obtain ⟨empty, t, starter, before, history⟩ := held
    refine ⟨h, before, ?_⟩
    have current : s.linter = linterAt w first s.history := force.linter
    have history : s.history = _ := history
    rw [history] at current
    rw [empty, Moment.history, history]
    exact .unset (current.symm.trans unset)
  | @queue s id p next wanted taken =>
    obtain ⟨before, lints⟩ := held
    have waits : Sound w first { s with waiting := s.waiting ++ [id] } :=
      h.extend [] (fun _ _ stands => .inl stands) rfl (by simp)
    refine ⟨waits.place id (p := .inPass (.queued p) next) ⟨before, _, lints, ?_,
      List.suffix_refl _⟩, trivial⟩
    exact force.settings ▸ wanted
  | @compile s id p next wanted free =>
    obtain ⟨before, lints⟩ := held
    have begun : Sound w first (s.beginCompile p) :=
      h.extend [_] (fun _ _ stands => .inl stands) rfl
        (List.forall_mem_singleton.mpr (by simp [Note.Silent]))
    refine ⟨begun.place id (p := .inPass (.compiling p) next)
      ⟨before, _, s.history, lints, force.settings ▸ wanted, List.suffix_refl _,
        compile_called force p⟩, trivial⟩
  | @conclude s id progress p next done =>
    refine ⟨?_, trivial⟩
    rcases done with rfl | ⟨rfl, off⟩
    · obtain ⟨before, linted, lints, errors, linting, compiling, holds⟩ := held
      exact h.conclude documents linting compiling holds
    · obtain ⟨before, linting⟩ := held
      exact h.conclude documents linting (.unwanted (force.settings ▸ off)) (List.append_nil _).symm
  | @answer s id order =>
    exact ⟨(h.noted (n := .answered order) (by simp [Note.Silent])).drop id, trivial⟩
  | @refuse s id order t =>
    exact ⟨(h.noted (n := .refused order t.kind) (by simp [Note.Silent])).drop id, trivial⟩
  | store path => exact ⟨h.place _ (p := .promoting ..) trivial, trivial⟩
  | await ids => exact ⟨h.place _ (p := .awaiting ..) trivial, trivial⟩
  | spend => exact ⟨h.place _ (p := .spent) trivial, trivial⟩
  | turn => exact ⟨h, trivial⟩
  | skip busy => exact ⟨h, trivial⟩

theorem Begins.sound {s : Scheduler} {m : Moment}
    (b : Begins w (fun _ r => ∀ settings, r ≠ .configure settings) s m)
    (force : InForce w first ⟨.free, s⟩) (h : Sound w first s) :
    Sound w first m.scheduler ∧ m.hand.Sound w first m.history := by
  cases b with
  | clock later => exact ⟨h.extend [] (fun _ _ stands => .inl stands) rfl nofun, trivial⟩
  | @hear order r fine =>
    refine ⟨h.heard order r, ?_⟩
    cases r with
    | closed d => exact ⟨[], s.now, order, s.history, s.heard_history order (.closed d), nofun⟩
    | _ => trivial
  | wait stands known early => exact ⟨h.place _ (p := .pausing ..) trivial, trivial⟩
  | lapse stands closed => exact ⟨h.place _ (p := .spent) trivial, trivial⟩
  | @wake id uri wake st d stands known due current =>
    have idle : Sound w first (s.putState uri { st with phase := .idle }) :=
      h.extend [] (fun _ _ stands => .inl stands) rfl nofun
    exact ⟨idle.launch _ _, launch_sound ..⟩
  | vanish stands => exact ⟨h.drop _, trivial⟩
  | promote stands => exact ⟨h.noted (n := .promote _) ⟨nofun, nofun⟩, trivial⟩
  | look stands => exact ⟨h, trivial⟩
  | @linted id p l next found stands answer =>
    obtain ⟨-, before, set, called⟩ := h.points id _ stands
    exact ⟨h, before, .found set called answer⟩
  | @lintFailed id p l l' next t stands answer named =>
    obtain ⟨empty, before, set, called⟩ := h.points id _ stands
    have named : linterAt w first s.history = some l' := force.linter.symm.trans named
    refine ⟨h.extend [_] (fun _ _ stands => .inl stands) rfl silent_log, before, ?_⟩
    rw [empty]
    exact .failed set called answer named
  | @lintLost id p l next t stands answer unset =>
    obtain ⟨empty, before, set, called⟩ := h.points id _ stands
    have unset : linterAt w first s.history = none := force.linter.symm.trans unset
    refine ⟨h.endPass [_] rfl (.lost set called answer unset empty) (by simp) ?_, trivial⟩
    exact h.owned.silent [_, _] (by simp)
  | @lock id p next stands unlocked first =>
    obtain ⟨before, linted, lints, wanted, earlier⟩ := h.points id _ stands
    have begun : Sound w _ (Scheduler.beginCompile p { s with waiting := s.waiting.tail }) :=
      h.extend [_] (fun _ _ stands => .inl stands) rfl
        (List.forall_mem_singleton.mpr ⟨nofun, nofun⟩)
    exact ⟨begun.place id (p := .inPass (.compiling p) next)
      ⟨before, linted, s.history, lints, wanted, earlier, compile_called force p⟩, trivial⟩
  | @compiled id p next errors stands answer =>
    obtain ⟨before, linted, start, lints, wanted, earlier, called⟩ := h.points id _ stands
    refine ⟨h.extend [_] (fun _ _ stands => .inl stands) rfl
      (List.forall_mem_singleton.mpr ⟨nofun, nofun⟩), ?_⟩
    exact ⟨before, linted, _, _, lints, .found wanted earlier called answer, rfl⟩
  | @compileFailed id p next t stands answer =>
    obtain ⟨before, linted, start, lints, wanted, earlier, called⟩ := h.points id _ stands
    refine ⟨h.extend [_, _] (fun _ _ stands => .inl stands) rfl ?_, ?_⟩
    · exact List.forall_mem_cons.mpr ⟨⟨nofun, nofun⟩, List.forall_mem_singleton.mpr ⟨nofun, nofun⟩⟩
    · exact ⟨before, linted, _, [], lints, .failed wanted earlier called answer,
        (List.append_nil _).symm⟩

theorem Stride.sound {m n : Moment} (stride : Stride w m n) (force : InForce w first m)
    (documents : m.scheduler.documents = openAt m.history) (h : Sound w first m.scheduler)
    (held : m.hand.Sound w first m.history) :
    Sound w first n.scheduler ∧ n.hand.Sound w first n.history := by
  cases stride with
  | begins b => exact b.sound force h
  | goes g other => exact g.sound other force documents h held
  | @configures s order settings =>
    obtain ⟨notes, history, preparing⟩ := configured_history (w := w) order settings s
    have heard := h.heard order (.configure settings)
    refine ⟨heard.extend notes (fun x p stands => ?_) history fun x mem => ?_, trivial⟩
    · rw [configured_frame] at stands
      exact .inl stands
    · have plain := preparing x mem
      obtain ⟨t, n⟩ := x
      cases n <;> first | exact plain.elim | exact ⟨nofun, nofun⟩

/-! ## Passes end once -/

/-- Surroundings in which every linter fails. -/
def Surroundings.unlinted : Surroundings :=
  { Surroundings.calm with
    lint := fun _ _ _ => .error { kind := "RuntimeError".toList, message := [] } }

/-- The run until the pass on the document has ended. -/
def unnamed : Scheduler :=
  (Scheduler.start .unlinted none none (some { name := .solhint })).2.run .unlinted
    [.request 0 (.opened draft), .request 1 (.configure {}), .resume 0]

/-! A document waits for the compile lock, and meanwhile another configuration says that nothing is
to be compiled. -/

end ContractCheck.Schedule
