import ContractCheck.Schedule.Machine
import Mathlib.Tactic.Common

/-! # What is seen of a scheduler

What operations do to a scheduler is said through four views: the history, the store of documents,
what is remembered about a document (`state?`), and the point at which a task stands (`point?`).
Each operation has one equation for each view that it changes; the others it leaves alone.
-/
namespace ContractCheck.Schedule

/-- What an edit makes of a document's state. -/
def DocState.edited (s : DocState) (now : Rat) : DocState :=
  match s.phase with
  | .running => { s with requestedAt := now, rerun := true }
  | _ => { s with requestedAt := now, phase := .scheduled }

/-- What the end of a pass makes of the state of its document. -/
def DocState.after (p : Pass) (s : DocState) : DocState :=
  if s.serial = p.serial then
    { s with
      phase := if s.rerun then .scheduled else .idle, rerun := false, passes := s.passes + 1 }
  else s

/-- Whether a note is one that may be written when settings are applied. -/
def Note.Preparing : Note → Prop
  | .rules _ | .log _ _ => True
  | _ => False

namespace Request

/-- What a request makes of the store. -/
def store (r : Request) (documents : DocumentStore) : DocumentStore :=
  match r with
  | .opened d | .changed d | .saved d => documents.put d
  | .closed d => documents.remove d.uri
  | .validate _ | .validateAll | .configure _ | .waitIdle => documents

/-- What a request makes of the state of a document.  A new state has the serial number that is
given. -/
def state (r : Request) (uri : Text) (serial : Nat) (now : Rat) (st : Option DocState) :
    Option DocState :=
  match r with
  | .opened d => if uri = d.uri then some (st.getD { serial }) else st
  | .changed d => if uri = d.uri then some ((st.getD { serial }).edited now) else st
  | .closed d => if uri = d.uri then none else st
  | .saved _ | .validate _ | .validateAll | .configure _ | .waitIdle => st

end Request
end ContractCheck.Schedule

namespace ContractCheck.Scheduler

open Schedule

/-! ## Tasks -/

private theorem find_map_point (id x : Nat) (p : Point) (ts : List Task) :
    ((ts.map fun t => if t.id = id then { t with point := p } else t).find? fun t => t.id = x)
      = if x = id then (ts.find? fun t => t.id = x).map fun t => { t with point := p }
        else ts.find? fun t => t.id = x := by
  induction ts with
  | nil => simp
  | cons t ts ih =>
    simp only [List.map_cons, List.find?_cons, ih]
    by_cases same : t.id = id <;> by_cases here : t.id = x <;> by_cases eq : x = id <;> simp_all

/-- **A task that was placed stands there, and all others where they stood.** -/
theorem point?_place (s : Scheduler) (id x : Nat) (p : Point) :
    (s.place id p).point? x = if x = id then some p else s.point? x := by
  unfold place point?
  by_cases known : ((s.tasks.find? fun t => t.id = id).map Task.point).isSome
  · rw [if_pos known, find_map_point]
    by_cases eq : x = id
    · subst eq
      rw [Option.isSome_map] at known
      obtain ⟨t, found⟩ := Option.isSome_iff_exists.mp known
      simp [found]
    · simp [eq]
  · rw [if_neg known, List.find?_append]
    have unknown : (s.tasks.find? fun t => t.id = id) = none := by simpa using known
    by_cases eq : x = id
    · subst eq
      rw [unknown]
      simp
    · have ne : ¬ id = x := fun h => eq h.symm
      simp [eq, ne]

theorem point?_drop (s : Scheduler) (id x : Nat) :
    (s.drop id).point? x = if x = id then none else s.point? x := by
  unfold drop point?
  induction s.tasks with
  | nil => simp
  | cons t ts ih =>
    by_cases gone : t.id = id <;> by_cases here : t.id = x <;> by_cases eq : x = id <;> simp_all

@[simp] theorem place_documents (s : Scheduler) (id : Nat) (p : Point) :
    (s.place id p).documents = s.documents := by
  unfold place
  split <;> rfl

@[simp] theorem place_history (s : Scheduler) (id : Nat) (p : Point) :
    (s.place id p).history = s.history := by
  unfold place
  split <;> rfl

@[simp] theorem place_fresh (s : Scheduler) (id : Nat) (p : Point) :
    (s.place id p).fresh = s.fresh := by
  unfold place
  split <;> rfl

@[simp] theorem state?_place (s : Scheduler) (id : Nat) (p : Point) (uri : Text) :
    (s.place id p).state? uri = s.state? uri := by
  unfold place
  split <;> rfl

/-! ## Notes -/

@[simp] theorem noted_history (s : Scheduler) (n : Note) :
    (s.noted n).history = (s.now, n) :: s.history := rfl

@[simp] theorem noted_documents (s : Scheduler) (n : Note) :
    (s.noted n).documents = s.documents := rfl

@[simp] theorem noted_fresh (s : Scheduler) (n : Note) : (s.noted n).fresh = s.fresh := rfl

@[simp] theorem point?_noted (s : Scheduler) (n : Note) (id : Nat) :
    (s.noted n).point? id = s.point? id := rfl

@[simp] theorem state?_noted (s : Scheduler) (n : Note) (uri : Text) :
    (s.noted n).state? uri = s.state? uri := rfl

/-! ## States -/

private theorem lookup_filter_ne (uri u : Text) (states : List (Text × DocState)) :
    (states.filter fun e => e.1 ≠ uri).lookup u = if u = uri then none else states.lookup u := by
  induction states with
  | nil => simp
  | cons e states ih =>
    obtain ⟨k, st⟩ := e
    by_cases gone : k = uri
    · rw [List.filter_cons_of_neg (by simp [gone]), ih, List.lookup_cons]
      by_cases eq : u = uri
      · rw [if_pos eq, if_pos eq]
      · have ne : (u == k) = false := beq_eq_false_iff_ne.mpr fun h => eq (h.trans gone)
        rw [ne]
    · rw [List.filter_cons_of_pos (by simp [gone]), List.lookup_cons, List.lookup_cons, ih]
      by_cases eq : u = uri
      · have ne : (u == k) = false := beq_eq_false_iff_ne.mpr fun h => gone (h.symm.trans eq)
        rw [ne, if_pos eq]
      · rw [if_neg eq, if_neg eq]

theorem state?_putState (s : Scheduler) (uri u : Text) (st : DocState) :
    (s.putState uri st).state? u = if u = uri then some st else s.state? u := by
  unfold putState state?
  rw [List.lookup_cons, lookup_filter_ne]
  by_cases eq : u = uri <;> simp [eq, beq_eq_false_iff_ne.mpr]

theorem state?_forget (s : Scheduler) (uri u : Text) :
    (s.forget uri).state? u = if u = uri then none else s.state? u :=
  lookup_filter_ne uri u s.states

theorem remember_fst (s : Scheduler) (uri : Text) :
    (s.remember uri).1 = (s.state? uri).getD { serial := s.fresh } := by
  unfold remember
  split <;> simp_all

theorem state?_remember (s : Scheduler) (uri u : Text) :
    (s.remember uri).2.state? u = if u = uri then some (s.remember uri).1 else s.state? u := by
  unfold remember
  split
  · next st known =>
    by_cases eq : u = uri <;> simp [eq, known]
  · exact state?_putState s uri u _

theorem le_remember_fresh (s : Scheduler) (uri : Text) : s.fresh ≤ (s.remember uri).2.fresh := by
  unfold remember
  split
  · exact Nat.le_refl _
  · exact Nat.le_succ _

@[simp] theorem remember_documents (s : Scheduler) (uri : Text) :
    (s.remember uri).2.documents = s.documents := by
  unfold remember
  split <;> rfl

@[simp] theorem remember_history (s : Scheduler) (uri : Text) :
    (s.remember uri).2.history = s.history := by
  unfold remember
  split <;> rfl

@[simp] theorem remember_now (s : Scheduler) (uri : Text) : (s.remember uri).2.now = s.now := by
  unfold remember
  split <;> rfl

@[simp] theorem point?_remember (s : Scheduler) (uri : Text) (id : Nat) :
    (s.remember uri).2.point? id = s.point? id := by
  unfold remember
  split <;> rfl

/-! ## Pauses -/

@[simp] theorem schedule_documents (s : Scheduler) (uri : Text) (st : DocState) :
    (s.schedule uri st).documents = s.documents := by
  simp [schedule, enlist, putState]

@[simp] theorem schedule_history (s : Scheduler) (uri : Text) (st : DocState) :
    (s.schedule uri st).history = s.history := by
  simp [schedule, enlist, putState]

@[simp] theorem schedule_fresh (s : Scheduler) (uri : Text) (st : DocState) :
    (s.schedule uri st).fresh = s.fresh + 1 := by
  simp [schedule, enlist, putState]

theorem state?_schedule (s : Scheduler) (uri u : Text) (st : DocState) :
    (s.schedule uri st).state? u =
      if u = uri then some { st with phase := .scheduled } else s.state? u := by
  simp only [schedule, enlist, state?_place]
  exact state?_putState s uri u _

theorem point?_schedule (s : Scheduler) (uri : Text) (st : DocState) (id : Nat) :
    (s.schedule uri st).point? id =
      if id = s.fresh then some (.pausing uri s.now) else s.point? id := by
  simp only [schedule, enlist, point?_place]
  rfl

/-! ## Passes -/

/-- The pass that begins is on the document as it is given, and new. -/
theorem launch_fst (s : Scheduler) (starter : Starter) (d : Document) :
    (s.launch starter d).1
      = { document := d, serial := (s.remember d.uri).1.serial, number := s.history.length } := by
  simp [launch, occasion]

theorem launch_history (s : Scheduler) (starter : Starter) (d : Document) :
    (s.launch starter d).2.history =
      (s.now, .began starter (s.launch starter d).1) :: s.history := by
  simp [launch, occasion, putState]

@[simp] theorem launch_documents (s : Scheduler) (starter : Starter) (d : Document) :
    (s.launch starter d).2.documents = s.documents := by
  simp [launch, putState]

theorem state?_launch (s : Scheduler) (starter : Starter) (d : Document) (u : Text) :
    (s.launch starter d).2.state? u
      = if u = d.uri then some { (s.remember d.uri).1 with phase := .running, rerun := false }
        else s.state? u := by
  simp only [launch, state?_noted, state?_putState, state?_remember]
  split <;> rfl

@[simp] theorem point?_launch (s : Scheduler) (starter : Starter) (d : Document) (id : Nat) :
    (s.launch starter d).2.point? id = s.point? id :=
  point?_remember s d.uri id

/-- A pass that begins after a pause begins as any other. -/
theorem launch_putState {s : Scheduler} {d : Document} {st : DocState} (starter : Starter)
    (known : s.state? d.uri = some st) :
    (s.putState d.uri { st with phase := .idle }).launch starter d = s.launch starter d := by
  have again : (s.putState d.uri { st with phase := .idle }).state? d.uri
      = some { st with phase := .idle } := by
    rw [state?_putState, if_pos rfl]
  have here : s.remember d.uri = (st, s) := by simp [remember, known]
  have there : (s.putState d.uri { st with phase := .idle }).remember d.uri
      = ({ st with phase := .idle }, s.putState d.uri { st with phase := .idle }) := by
    simp [remember, again]
  simp only [launch, here, there]
  simp [putState, noted, occasion, List.filter_filter]

/-- How a pass ends: its document was closed since, or it is validated once more, or it is idle
again. -/
theorem endPass_cases (p : Pass) (s : Scheduler) :
    (∀ st, s.state? p.document.uri = some st → st.serial ≠ p.serial) ∧
        s.endPass p = s.noted (.ended p) ∨
      ∃ st, s.state? p.document.uri = some st ∧ st.serial = p.serial ∧
        (st.rerun = true ∧ s.endPass p = (s.noted (.ended p)).schedule p.document.uri
            { st with phase := .idle, rerun := false, passes := st.passes + 1 } ∨
          st.rerun = false ∧ s.endPass p = (s.noted (.ended p)).putState p.document.uri
            { st with phase := .idle, rerun := false, passes := st.passes + 1 }) := by
  simp only [endPass, state?_noted]
  cases known : s.state? p.document.uri with
  | none => exact .inl ⟨nofun, rfl⟩
  | some st =>
    by_cases own : st.serial = p.serial
    · refine .inr ⟨st, rfl, own, ?_⟩
      cases rerun : st.rerun <;> simp [own, rerun]
    · refine .inl ⟨?_, by simp [own]⟩
      intro st' same
      exact Option.some.inj same ▸ own

@[simp] theorem endPass_documents (p : Pass) (s : Scheduler) :
    (s.endPass p).documents = s.documents := by
  rcases endPass_cases p s with ⟨-, h⟩ | ⟨st, -, -, ⟨-, h⟩ | ⟨-, h⟩⟩ <;> rw [h] <;> simp [putState]

theorem endPass_history (p : Pass) (s : Scheduler) :
    (s.endPass p).history = (s.now, .ended p) :: s.history := by
  rcases endPass_cases p s with ⟨-, h⟩ | ⟨st, -, -, ⟨-, h⟩ | ⟨-, h⟩⟩ <;> rw [h] <;> simp [putState]

theorem state?_endPass (p : Pass) (s : Scheduler) (uri : Text) :
    (s.endPass p).state? uri
      = if uri = p.document.uri then (s.state? uri).map (DocState.after p) else s.state? uri := by
  rcases endPass_cases p s with ⟨foreign, h⟩ | ⟨st, known, own, ⟨rerun, h⟩ | ⟨rerun, h⟩⟩
  · rw [h, state?_noted]
    split
    · next same =>
      subst same
      cases known : s.state? p.document.uri with
      | none => rfl
      | some st => simp [DocState.after, foreign st known]
    · rfl
  · rw [h, state?_schedule, state?_noted]
    split
    · next same => simp [same, known, DocState.after, own, rerun]
    · rfl
  · rw [h, state?_putState, state?_noted]
    split
    · next same => simp [same, known, DocState.after, own, rerun]
    · rfl

/-- A pause begins when one more pass was asked for, and only then. -/
theorem endPass_point? (p : Pass) (s : Scheduler) :
    (s.endPass p).fresh = s.fresh ∧ (∀ id, (s.endPass p).point? id = s.point? id) ∧
        (∀ st, s.state? p.document.uri = some st → st.serial = p.serial → st.rerun = false) ∨
      (s.endPass p).fresh = s.fresh + 1 ∧
        (∀ id, (s.endPass p).point? id
          = if id = s.fresh then some (.pausing p.document.uri s.now) else s.point? id) ∧
        ∃ st, s.state? p.document.uri = some st ∧ st.serial = p.serial ∧ st.rerun = true := by
  rcases endPass_cases p s with ⟨foreign, h⟩ | ⟨st, known, own, ⟨rerun, h⟩ | ⟨rerun, h⟩⟩
  · refine .inl ⟨by rw [h]; rfl, fun _ => by rw [h]; rfl, ?_⟩
    exact fun st known own => absurd own (foreign st known)
  · refine .inr ⟨by rw [h, schedule_fresh]; rfl, fun id => ?_, st, known, own, rerun⟩
    rw [h, point?_schedule]
    rfl
  · refine .inl ⟨by rw [h]; rfl, fun _ => by rw [h]; rfl, ?_⟩
    intro st' known' _
    exact Option.some.inj (known.symm.trans known') ▸ rerun

@[simp] theorem point?_askAgain (s : Scheduler) (uri : Text) (id : Nat) :
    (s.askAgain uri).point? id = s.point? id := point?_remember s uri id

theorem state?_askAgain (s : Scheduler) (uri u : Text) :
    (s.askAgain uri).state? u
      = if u = uri then some { (s.remember uri).1 with rerun := true } else s.state? u := by
  simp only [askAgain, state?_putState, state?_remember]
  split <;> rfl

@[simp] theorem askAgain_documents (s : Scheduler) (uri : Text) :
    (s.askAgain uri).documents = s.documents := remember_documents s uri

@[simp] theorem askAgain_history (s : Scheduler) (uri : Text) :
    (s.askAgain uri).history = s.history := remember_history s uri

/-! ## Requests -/

/-- What an edit does: it asks a running pass for one more, or lets the pause go on, or begins
one. -/
theorem edited_cases (uri : Text) (s : Scheduler) :
    (∃ st, s.state? uri = some st ∧ st.phase = .running ∧
        s.edited uri = s.putState uri { st with requestedAt := s.now, rerun := true }) ∨
      (∃ st, s.state? uri = some st ∧ st.phase = .scheduled ∧
        s.edited uri = s.putState uri { st with requestedAt := s.now }) ∨
      (s.remember uri).1.phase = .idle ∧ s.edited uri
        = (s.remember uri).2.schedule uri { (s.remember uri).1 with requestedAt := s.now } := by
  unfold edited
  cases known : s.state? uri with
  | none =>
    refine .inr (.inr ?_)
    simp [remember, known, putState]
  | some st =>
    have here : s.remember uri = (st, s) := by simp [remember, known]
    rw [here]
    cases phase : st.phase with
    | running => exact .inl ⟨st, rfl, phase, by simp [phase]⟩
    | scheduled => exact .inr (.inl ⟨st, rfl, phase, by simp [phase]⟩)
    | idle => exact .inr (.inr ⟨rfl, by simp [phase]⟩)

@[simp] theorem edited_documents (uri : Text) (s : Scheduler) :
    (s.edited uri).documents = s.documents := by
  rcases edited_cases uri s with
    ⟨st, -, -, h⟩ | ⟨st, -, -, h⟩ | ⟨-, h⟩ <;> rw [h] <;> simp [putState]

@[simp] theorem edited_history (uri : Text) (s : Scheduler) :
    (s.edited uri).history = s.history := by
  rcases edited_cases uri s with
    ⟨st, -, -, h⟩ | ⟨st, -, -, h⟩ | ⟨-, h⟩ <;> rw [h] <;> simp [putState]

theorem state?_edited (uri u : Text) (s : Scheduler) :
    (s.edited uri).state? u
      = if u = uri then some ((s.remember uri).1.edited s.now) else s.state? u := by
  rcases edited_cases uri s with ⟨st, known, phase, h⟩ | ⟨st, known, phase, h⟩ | ⟨phase, h⟩
  · have here : (s.remember uri).1 = st := by rw [remember_fst, known, Option.getD_some]
    rw [h, state?_putState, here]
    simp [DocState.edited, phase]
  · have here : (s.remember uri).1 = st := by rw [remember_fst, known, Option.getD_some]
    rw [h, state?_putState, here]
    simp [DocState.edited, phase]
  · rw [h, state?_schedule, state?_remember, DocState.edited, phase]
    by_cases eq : u = uri <;> simp [eq]

/-- A pause begins when an idle document is edited, and only then. -/
theorem edited_point? (uri : Text) (s : Scheduler) :
    s.busy uri = true ∧ (s.edited uri).fresh = s.fresh ∧
        (∀ id, (s.edited uri).point? id = s.point? id) ∨
      s.busy uri = false ∧ ∃ new, s.fresh ≤ new ∧ (s.edited uri).fresh = new + 1 ∧
        ∀ id, (s.edited uri).point? id =
          if id = new then some (.pausing uri s.now) else s.point? id := by
  rcases edited_cases uri s with ⟨st, known, phase, h⟩ | ⟨st, known, phase, h⟩ | ⟨phase, h⟩
  · exact .inl ⟨by simp [busy, known, DocState.busy, phase], by rw [h]; rfl,
      fun _ => by rw [h]; rfl⟩
  · exact .inl ⟨by simp [busy, known, DocState.busy, phase], by rw [h]; rfl,
      fun _ => by rw [h]; rfl⟩
  · refine .inr ⟨?_, (s.remember uri).2.fresh, le_remember_fresh s uri,
      by rw [h, schedule_fresh], ?_⟩
    · rw [remember_fst] at phase
      cases known : s.state? uri with
      | none => simp [busy, known]
      | some st => simp_all [busy, DocState.busy]
    · intro id
      rw [h, point?_schedule, point?_remember, remember_now]

theorem heard_history (s : Scheduler) (order : Nat) (r : Request) :
    (s.heard order r).history = (s.now, .received order r) :: s.history := by
  cases r <;> simp [heard, enlist, forget]

theorem heard_documents (s : Scheduler) (order : Nat) (r : Request) :
    (s.heard order r).documents = r.store s.documents := by
  cases r <;> simp [heard, enlist, forget, Request.store]

theorem state?_heard (s : Scheduler) (order : Nat) (r : Request) (uri : Text) :
    (s.heard order r).state? uri = r.state uri (s.fresh + 1) s.now (s.state? uri) := by
  cases r with
  | opened d =>
    simp only [heard, enlist, state?_remember, remember_fst, Request.state]
    by_cases eq : uri = d.uri
    · subst eq
      rfl
    · rw [if_neg eq, if_neg eq]
      rfl
  | changed d =>
    simp only [heard, enlist, state?_edited, remember_fst, Request.state]
    by_cases eq : uri = d.uri
    · subst eq
      rfl
    · rw [if_neg eq, if_neg eq]
      rfl
  | closed d => exact state?_forget _ d.uri uri
  | saved d => rfl
  | validate d => rfl
  | validateAll => rfl
  | configure settings => rfl
  | waitIdle => rfl

/-- A request makes one new task, unless it edits an idle document: then a pause is a new task
too. -/
theorem heard_point? (s : Scheduler) (order : Nat) (r : Request) :
    (∀ d, r = .changed d → s.busy d.uri = true) ∧ s.fresh < (s.heard order r).fresh ∧
        (∀ id, (s.heard order r).point? id = s.point? id) ∨
      ∃ d, r = .changed d ∧ s.busy d.uri = false ∧
        ∃ new, s.fresh < new ∧ new < (s.heard order r).fresh ∧
          ∀ id, (s.heard order r).point? id
            = if id = new then some (.pausing d.uri s.now) else s.point? id := by
  cases r with
  | opened d =>
    refine .inl ⟨nofun, Nat.lt_of_lt_of_le (Nat.lt_succ_self s.fresh) ?_,
      fun id => point?_remember _ d.uri id⟩
    exact le_remember_fresh { ((s.noted (.received order (.opened d))).enlist).2 with
      documents := s.documents.put d } d.uri
  | changed d =>
    rcases edited_point? d.uri { ((s.noted (.received order (.changed d))).enlist).2 with
      documents := s.documents.put d } with ⟨busy, fresh, same⟩ | ⟨idle, new, later, fresh, points⟩
    · refine .inl ⟨?_, ?_, same⟩
      · rintro _ ⟨⟩
        exact busy
      · exact Nat.lt_of_lt_of_eq (Nat.lt_succ_self _) fresh.symm
    · refine .inr ⟨d, rfl, idle, new, later, ?_, points⟩
      exact Nat.lt_of_lt_of_eq (Nat.lt_succ_self _) fresh.symm
  | closed d => exact .inl ⟨nofun, Nat.lt_succ_self _, fun _ => rfl⟩
  | saved d => exact .inl ⟨nofun, Nat.lt_succ_self _, fun _ => rfl⟩
  | validate d => exact .inl ⟨nofun, Nat.lt_succ_self _, fun _ => rfl⟩
  | validateAll => exact .inl ⟨nofun, Nat.lt_succ_self _, fun _ => rfl⟩
  | configure settings => exact .inl ⟨nofun, Nat.lt_succ_self _, fun _ => rfl⟩
  | waitIdle => exact .inl ⟨nofun, Nat.lt_succ_self _, fun _ => rfl⟩

/-! ## Settings -/

section Settings

variable {w : Surroundings}

/-- A linter that is put in place leaves everything else as it is, notes apart. -/
theorem useLinter_frame (s : Scheduler) (linter : Option Linter) :
    (s.useLinter w linter).2 =
      { s with
        linter := (s.useLinter w linter).2.linter
        history := (s.useLinter w linter).2.history } := by
  unfold useLinter
  split
  · rfl
  · dsimp only
    split <;> rfl

theorem useLinter_notes (s : Scheduler) (linter : Option Linter) :
    ∃ notes, (s.useLinter w linter).2.history = notes ++ s.history ∧ ∀ x ∈ notes,
      x.2.Preparing := by
  unfold useLinter
  split
  · exact ⟨[], rfl, nofun⟩
  · next l =>
    have rules : ∀ x ∈ [(s.now, Note.rules (l.withRules s.settings.linterRules))], x.2.Preparing :=
      List.forall_mem_singleton.mpr trivial
    dsimp only
    split
    · exact ⟨_, rfl, rules⟩
    · exact ⟨_, rfl, rules⟩

/-- Settings that are applied change nothing but the settings and the linter, notes apart. -/
theorem applySettings_frame (s : Scheduler) (settings : Option ValidationSettings)
    (given : Option Linter) :
    (s.applySettings w settings given).2 =
      { s with
        settings := settings.getD s.settings
        linter := (s.applySettings w settings given).2.linter
        history := (s.applySettings w settings given).2.history } := by
  unfold applySettings
  dsimp only
  split
  · exact useLinter_frame _ _
  · split
    · exact useLinter_frame _ _
    · split
      · exact useLinter_frame _ _
      · exact useLinter_frame (logged _ _ _ _) none
      · rfl

theorem applySettings_notes (s : Scheduler) (settings : Option ValidationSettings)
    (given : Option Linter) :
    ∃ notes, (s.applySettings w settings given).2.history = notes ++ s.history ∧
      ∀ x ∈ notes, x.2.Preparing := by
  unfold applySettings
  dsimp only
  split
  · exact useLinter_notes { s with settings := settings.getD s.settings } _
  · split
    · exact useLinter_notes { s with settings := settings.getD s.settings } _
    · split
      · exact useLinter_notes { s with settings := settings.getD s.settings } _
      · next reason _ =>
        obtain ⟨notes, history, preparing⟩ := useLinter_notes (w := w) ({ s with
          settings := settings.getD s.settings }.logged .warning
            ("Linter ".toList ++ _ ++ _ ++ reason) []) none
        refine ⟨notes ++ [_], history.trans (List.append_assoc notes [_] s.history).symm, ?_⟩
        exact List.forall_mem_append.mpr ⟨preparing, List.forall_mem_singleton.mpr trivial⟩
      · exact ⟨[], rfl, nofun⟩

end Settings

/-! ## Fixtures -/

/-- The scheduler without its documents, tasks and notes. -/
def fixtures (s : Scheduler) : Scheduler :=
  { s with documents := {}, states := [], tasks := [], fresh := 0, history := [] }

@[simp] theorem place_fixtures (s : Scheduler) (id : Nat) (p : Point) :
    (s.place id p).fixtures = s.fixtures := by
  unfold place
  split <;> rfl

@[simp] theorem remember_fixtures (s : Scheduler) (uri : Text) :
    (s.remember uri).2.fixtures = s.fixtures := by
  unfold remember
  split <;> rfl

theorem schedule_fixtures (s : Scheduler) (uri : Text) (st : DocState) :
    (s.schedule uri st).fixtures = s.fixtures := by
  rw [schedule, enlist, place_fixtures]
  rfl

theorem edited_fixtures (uri : Text) (s : Scheduler) : (s.edited uri).fixtures = s.fixtures := by
  rcases edited_cases uri s with ⟨st, -, -, h⟩ | ⟨st, -, -, h⟩ | ⟨-, h⟩
  · rw [h]
    rfl
  · rw [h]
    rfl
  · rw [h, schedule_fixtures, remember_fixtures]

theorem heard_fixtures (s : Scheduler) (order : Nat) (r : Request) :
    (s.heard order r).fixtures = s.fixtures := by
  cases r with
  | opened d => exact remember_fixtures _ d.uri
  | changed d => exact edited_fixtures d.uri _
  | _ => rfl

theorem launch_fixtures (s : Scheduler) (starter : Starter) (d : Document) :
    (s.launch starter d).2.fixtures = s.fixtures :=
  remember_fixtures s d.uri

theorem endPass_fixtures (p : Pass) (s : Scheduler) : (s.endPass p).fixtures = s.fixtures := by
  rcases endPass_cases p s with ⟨-, h⟩ | ⟨st, -, -, ⟨-, h⟩ | ⟨-, h⟩⟩
  · rw [h]
    rfl
  · rw [h, schedule_fixtures]
    rfl
  · rw [h]
    rfl

/-! ### Circumstances -/

/-- What passes go by: the settings, the linter and the time. -/
def circumstances (s : Scheduler) : ValidationSettings × Option Linter × Rat :=
  (s.settings, s.linter, s.now)

theorem circumstances_of_fixtures {s s' : Scheduler} (same : s'.fixtures = s.fixtures) :
    s'.circumstances = s.circumstances := by
  have read : s'.fixtures.circumstances = s.fixtures.circumstances := congrArg circumstances same
  exact read

@[simp] theorem place_circumstances (s : Scheduler) (id : Nat) (p : Point) :
    (s.place id p).circumstances = s.circumstances :=
  circumstances_of_fixtures (s.place_fixtures id p)

theorem heard_circumstances (s : Scheduler) (order : Nat) (r : Request) :
    (s.heard order r).circumstances = s.circumstances :=
  circumstances_of_fixtures (s.heard_fixtures order r)

theorem launch_circumstances (s : Scheduler) (starter : Starter) (d : Document) :
    (s.launch starter d).2.circumstances = s.circumstances :=
  circumstances_of_fixtures (s.launch_fixtures starter d)

/-! ### Turns -/

/-- What tasks take turns by: whether the compile lock is held, who waits for it, and whether a
sweep goes on. -/
def turns (s : Scheduler) : Bool × List Nat × Bool := (s.locked, s.waiting, s.sweeping)

theorem turns_of_fixtures {s s' : Scheduler} (same : s'.fixtures = s.fixtures) :
    s'.turns = s.turns := by
  have read : s'.fixtures.turns = s.fixtures.turns := congrArg turns same
  exact read

theorem place_turns (s : Scheduler) (id : Nat) (p : Point) : (s.place id p).turns = s.turns :=
  turns_of_fixtures (s.place_fixtures id p)

end ContractCheck.Scheduler
