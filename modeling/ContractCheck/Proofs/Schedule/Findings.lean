import ContractCheck.Proofs.Schedule.Clearing

/-! # Where published diagnostics come from

A pass holds what the linter found in its snapshot, and then the errors of the compiler that belong
to it.  It keeps them from one point to the next, and publishes them for its document when it ends.
So whatever is published was found in a snapshot of that document (`published_found`).
-/
namespace ContractCheck.Schedule

variable {w : Surroundings} {allowed : Scheduler → Request → Prop}

/-- What linting may have found in a snapshot: nothing, or what a linter answered. -/
def Linted (w : Surroundings) (d : Document) (found : List EditorDiagnostic) : Prop :=
  found = [] ∨ ∃ occasion l, w.lint occasion l d = .ok found

/-- What compiling may have found in a snapshot: nothing, or the errors of a compilation that belong
to it. -/
def Compiled (w : Surroundings) (d : Document) (found : List EditorDiagnostic) : Prop :=
  found = [] ∨ ∃ occasion errors, w.compile occasion d = .ok errors ∧
    found = Scheduler.ownErrors d errors

/-- What a pass may have found in a snapshot: what linting found, and behind it what compiling
found. -/
def Found (w : Surroundings) (d : Document) (found : List EditorDiagnostic) : Prop :=
  ∃ lints errors, found = lints ++ errors ∧ Linted w d lints ∧ Compiled w d errors

theorem Linted.found {d : Document} {found : List EditorDiagnostic} (h : Linted w d found) :
    Found w d found :=
  ⟨found, [], (List.append_nil found).symm, h, .inl rfl⟩

/-! ## What is held at points, in hands and in notes -/

/-- Between two points, and before it is compiled, a pass holds what linting found. -/
def Point.Backed (w : Surroundings) : Point → Prop
  | .inPass stage _ => Linted w stage.pass.document stage.pass.found
  | _ => True

/-- A pass in the hand holds what was found as far as it has come. -/
def Hand.Backed (w : Surroundings) : Hand → Prop
  | .pass _ .compiled p _ => Found w p.document p.found
  | .pass _ _ p _ => Linted w p.document p.found
  | _ => True

/-- What is published is empty, or was found in a snapshot of its document. -/
def Note.Backed (w : Surroundings) : Note → Prop
  | .publish uri found => found = [] ∨ ∃ d, d.uri = uri ∧ Found w d found
  | _ => True

/-- All that is held at points and noted so far was found. -/
structure Backed (w : Surroundings) (s : Scheduler) : Prop where
  points : ∀ id p, s.point? id = some p → p.Backed w
  notes : ∀ x ∈ s.history, x.2.Backed w

namespace Backed

variable {s s' : Scheduler} (h : Backed w s)
include h

theorem same (points : ∀ id, s'.point? id = s.point? id) (history : s'.history = s.history) :
    Backed w s' where
  points id p stands := h.points id p ((points id).symm.trans stands)
  notes := history ▸ h.notes

theorem noted {n : Note} (own : n.Backed w) : Backed w (s.noted n) where
  points := h.points
  notes := List.forall_mem_cons.mpr ⟨own, h.notes⟩

theorem place (id : Nat) {p : Point} (own : p.Backed w) : Backed w (s.place id p) where
  points x q stands := by
    rw [Scheduler.point?_place] at stands
    split at stands
    · obtain rfl := Option.some.inj stands
      exact own
    · exact h.points x q stands
  notes := by
    rw [Scheduler.place_history]
    exact h.notes

theorem drop (id : Nat) : Backed w (s.drop id) where
  points x p stands := by
    rw [Scheduler.point?_drop] at stands
    split at stands
    · cases stands
    · exact h.points x p stands
  notes := h.notes

theorem launch (starter : Starter) (d : Document) : Backed w (s.launch starter d).2 where
  points id p stands := h.points id p ((Scheduler.point?_launch s starter d id).symm.trans stands)
  notes := by
    rw [Scheduler.launch_history]
    exact List.forall_mem_cons.mpr ⟨trivial, h.notes⟩

/-- Ending a pass may begin a pause, and nothing else. -/
theorem endPass (p : Pass) : Backed w (s.endPass p) where
  points id q stands := by
    rcases s.endPass_point? p with ⟨-, points, -⟩ | ⟨-, points, -⟩
    · exact h.points id q ((points id).symm.trans stands)
    · rw [points] at stands
      split at stands
      · obtain rfl := Option.some.inj stands
        trivial
      · exact h.points id q stands
  notes := by
    rw [Scheduler.endPass_history]
    exact List.forall_mem_cons.mpr ⟨trivial, h.notes⟩

/-- What a pass publishes as it ends is what it holds. -/
theorem conclude {p : Pass} (own : Found w p.document p.found) : Backed w (s.conclude w p) := by
  have published : (Note.publish p.document.uri p.found).Backed w := .inr ⟨p.document, rfl, own⟩
  unfold Scheduler.conclude
  split
  · dsimp only
    split
    · exact ((h.noted published).noted (n := .log ..) trivial).endPass p
    · exact ((h.noted published).noted (n := .log ..) trivial).endPass p
  · exact h.endPass p

/-- A request brings in no pass; what edits begin are pauses. -/
theorem heard (order : Nat) (r : Request) : Backed w (s.heard order r) where
  points id p stands := by
    rcases s.heard_point? order r with ⟨-, -, points⟩ | ⟨d, -, -, new, -, -, points⟩
    · exact h.points id p ((points id).symm.trans stands)
    · rw [points] at stands
      split at stands
      · obtain rfl := Option.some.inj stands
        trivial
      · exact h.points id p stands
  notes := by
    rw [Scheduler.heard_history]
    exact List.forall_mem_cons.mpr ⟨trivial, h.notes⟩

end Backed

/-! ## Moves -/

/-- A pass that begins has found nothing. -/
theorem launch_linted (s : Scheduler) (starter : Starter) (d : Document) :
    Linted w (s.launch starter d).1.document (s.launch starter d).1.found :=
  .inl (by rw [Scheduler.launch_fst])

theorem Goes.backed {m n : Moment} (g : Goes w m n) (h : Backed w m.scheduler)
    (held : m.hand.Backed w) :
    Backed w n.scheduler ∧ n.hand.Backed w := by
  cases g with
  | log level message => exact ⟨h.noted (n := .log level message) trivial, trivial⟩
  | rule l => exact ⟨h.noted (n := .rules l) trivial, trivial⟩
  | @clear s id order d => exact ⟨h.noted (n := .publish d.uri []) (.inl rfl), trivial⟩
  | opened idle current => exact ⟨h.launch _ _, launch_linted ..⟩
  | asked still => exact ⟨h.launch _ _, launch_linted ..⟩
  | swept idle => exact ⟨h.launch _ _, launch_linted ..⟩
  | @again s id order d runs =>
    exact ⟨h.same (s.point?_askAgain d.uri) (s.askAgain_history d.uri), trivial⟩
  | @lint s id p next l set =>
    exact ⟨(h.noted (n := .lint l.name p.document) trivial).place id
      (p := .inPass (.linting p l) next) held,
      trivial⟩
  | plain unset => exact ⟨h, held⟩
  | @queue s id p next wanted taken =>
    have waits : Backed w { s with waiting := s.waiting ++ [id] } := h.same (fun _ => rfl) rfl
    exact ⟨waits.place id (p := .inPass (.queued p) next) held, trivial⟩
  | @compile s id p next wanted free =>
    have locked : Backed w { s with locked := true } := h.same (fun _ => rfl) rfl
    exact ⟨(locked.noted (n := .compile ..) trivial).place id (p := .inPass (.compiling p) next)
      held, trivial⟩
  | @conclude s id progress p next done =>
    refine ⟨h.conclude ?_, trivial⟩
    rcases done with rfl | ⟨rfl, -⟩
    · exact held
    · exact Linted.found held
  | answer => exact ⟨(h.noted (n := .answered _) trivial).drop _, trivial⟩
  | refuse t => exact ⟨(h.noted (n := .refused _ _) trivial).drop _, trivial⟩
  | store path => exact ⟨h.place _ (p := .promoting ..) trivial, trivial⟩
  | await ids => exact ⟨h.place _ (p := .awaiting ..) trivial, trivial⟩
  | spend => exact ⟨h.place _ (p := .spent) trivial, trivial⟩
  | _ => exact ⟨h.same (fun _ => rfl) rfl, trivial⟩

/-- A pass takes what it holds from its point into the hand, and adds what was found there. -/
theorem Begins.backed {s : Scheduler} {m : Moment} (b : Begins w allowed s m) (h : Backed w s) :
    Backed w m.scheduler ∧ m.hand.Backed w := by
  cases b with
  | hear order fine => exact ⟨h.heard order _, trivial⟩
  | wait stands known early => exact ⟨h.place _ (p := .pausing ..) trivial, trivial⟩
  | lapse stands closed => exact ⟨h.place _ (p := .spent) trivial, trivial⟩
  | @wake id uri wake st d stands known due current =>
    have idle : Backed w (s.putState uri { st with phase := .idle }) := h.same (fun _ => rfl) rfl
    exact ⟨idle.launch _ _, launch_linted ..⟩
  | vanish stands => exact ⟨h.drop _, trivial⟩
  | promote stands => exact ⟨h.noted (n := .promote _) trivial, trivial⟩
  | linted stands answer => exact ⟨h, .inr ⟨_, _, answer⟩⟩
  | lintFailed stands answer named => exact ⟨h.noted (n := .log ..) trivial, h.points _ _ stands⟩
  | lintLost stands answer unset => exact ⟨(h.noted (n := .log ..) trivial).endPass _, trivial⟩
  | @lock id p next stands unlocked first =>
    have locked : Backed w { s with waiting := s.waiting.tail, locked := true } := h.same
      (fun _ => rfl) rfl
    have held : Linted w p.document p.found := h.points _ _ stands
    exact ⟨(locked.noted (n := .compile ..) trivial).place id (p := .inPass (.compiling p) next)
      held, trivial⟩
  | @compiled id p next errors stands answer =>
    have unlocked : Backed w { s with locked := false } := h.same (fun _ => rfl) rfl
    have held : Linted w p.document p.found := h.points _ _ stands
    exact ⟨unlocked.noted (n := .compiled _) trivial, _, _, rfl, held,
      .inr ⟨_, errors, answer, rfl⟩⟩
  | @compileFailed id p next t stands answer =>
    have unlocked : Backed w { s with locked := false } := h.same (fun _ => rfl) rfl
    have held : Linted w p.document p.found := h.points _ _ stands
    exact ⟨(unlocked.noted (n := .compiled _) trivial).noted (n := .log ..) trivial, held.found⟩
  | _ => exact ⟨h.same (fun _ => rfl) rfl, trivial⟩

theorem Move.backed {m n : Moment} (move : Move w allowed m n)
    (h : Backed w m.scheduler ∧ m.hand.Backed w) :
    Backed w n.scheduler ∧ n.hand.Backed w := by
  cases move with
  | begins b => exact b.backed h.1
  | goes g => exact g.backed h.1 h.2

/-! ## Runs -/

theorem start_backed (root : Option Text) (settings : Option ValidationSettings)
    (given : Option Linter) :
    Backed w (Scheduler.start w root settings given).2 where
  points id p stands := by
    cases ((start_blank root settings given).point? id).symm.trans stands
  notes x mem := by
    obtain ⟨t, n⟩ := x
    cases n with
    | publish uri found => exact absurd rfl (start_unpublished root settings given _ mem uri found)
    | _ => trivial

/-- **Whatever is published was found in a snapshot of its document**, or is the empty set. -/
theorem published_found {root : Option Text} {settings : Option ValidationSettings}
    {given : Option Linter} {events : List Scheduler.Event} {t : Rat} {uri : Text}
    {found : List EditorDiagnostic}
    (mem : (t, .publish uri found) ∈
      ((Scheduler.start w root settings given).2.run w events).history) :
    found = [] ∨ ∃ d, d.uri = uri ∧ Found w d found :=
  (kept_run (fun m => Backed w m.scheduler ∧ m.hand.Backed w) (fun _ _ move => move.backed)
    (Permitted.all w _ events)
    ⟨start_backed root settings given, trivial⟩).1.notes _ mem

end ContractCheck.Schedule
