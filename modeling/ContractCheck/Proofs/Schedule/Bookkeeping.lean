import ContractCheck.Proofs.Schedule.Edits
import ContractCheck.Proofs.Schedule.Overlap

/-! # What is remembered about a document is exact

As long as no document is closed, the phase of a document tells which tasks there are for it: none
when it is idle, one that pauses when it is scheduled, one that is in a pass when it is running.
The number of passes that is remembered is the number of those that ended.

So passes are neither lost nor doubled.  An edit of an idle document asks for one pass, edits while
it is scheduled ask for no more, and edits during a pass ask for one more together (`demands`).
Each of these leads to exactly one pass after a pause, or still pauses (`Bookkept.coalesced`).
-/
namespace ContractCheck.Schedule

/-- The requests of an editor that closes nothing. -/
def KeepsOpen (s : Scheduler) (r : Request) : Prop := OfEditor s r ∧ ∀ d, r ≠ .closed d

theorem KeepsOpen.careful {s : Scheduler} {r : Request} (h : KeepsOpen s r) : Careful s r :=
  ⟨h.1, fun d closed => absurd closed (h.2 d)⟩

variable {w : Surroundings}

theorem Effect.mono {allowed allowed' : Scheduler → Request → Prop} {m n : Moment}
    (more : ∀ s r, allowed s r → allowed' s r) (e : Effect w allowed m n) :
    Effect w allowed' m n := by
  cases e with
  | quiet notes history plain documents state pass pause sweeps fresh lives heard =>
    exact .quiet notes history plain documents state pass pause sweeps fresh lives heard
  | hear fine => exact .hear (more _ _ fine)
  | lapse stands closed => exact .lapse stands closed
  | launch ready => exact .launch ready
  | finish notes holds follows turn outcome told =>
    exact .finish notes holds follows turn outcome told
  | again runs => exact .again runs
  | list => exact .list

/-! ## What the notes say about a document -/

/-- What goes on for a document. -/
inductive Standing where
  | idle
  | scheduled
  /-- A pass runs, and the document was edited since it began or not. -/
  | running (edited : Bool)
deriving DecidableEq

namespace Standing

/-- What goes on after an edit. -/
def edited : Standing → Standing
  | .idle | .scheduled => .scheduled
  | .running _ => .running true

/-- What goes on after the end of a pass. -/
def ended : Standing → Standing
  | .running true => .scheduled
  | _ => .idle

end Standing

/-- What the notes say about a document. -/
structure Account where
  standing : Standing := .idle
  /-- How often a pass after a pause was asked for: by an edit of an idle document, and once by all
  edits during a pass. -/
  demands : Nat := 0
  /-- The number of passes that began after a pause. -/
  resumed : Nat := 0
  /-- The number of passes that ended. -/
  finished : Nat := 0

/-- The account of a document after one more note. -/
def Account.read (uri : Text) (a : Account) : Note → Account
  | .received _ (.changed d) =>
    if d.uri = uri then
      { a with standing := a.standing.edited, demands := a.demands + if a.standing =
        .idle then 1 else 0 }
    else a
  | .began starter p =>
    if p.document.uri = uri then
      { a with standing := .running false, resumed := a.resumed + if starter =
        .pause then 1 else 0 }
    else a
  | .ended p =>
    if p.document.uri = uri then
      { a with
        standing := a.standing.ended
        demands := a.demands + if a.standing = .running true then 1 else 0
        finished := a.finished + 1 }
    else a
  | _ => a

/-- The account of a document. -/
def account (uri : Text) : History → Account
  | [] => {}
  | n :: older => (account uri older).read uri n.2

theorem account_append {notes : History} (plain : ∀ n ∈ notes, n.2.Plain) (uri : Text)
    (h : History) :
    account uri (notes ++ h) = account uri h := by
  induction notes with
  | nil => rfl
  | cons n notes ih =>
    obtain ⟨first, rest⟩ := List.forall_mem_cons.mp plain
    obtain ⟨t, n⟩ := n
    cases n with
    | received order r => exact first.elim
    | began starter p => exact first.elim
    | ended p => exact first.elim
    | _ => exact ih rest

/-! ## What is remembered and what the notes say -/

/-- What goes on for a document according to its state. -/
def DocState.standing (st : DocState) : Standing :=
  match st.phase with
  | .idle => .idle
  | .scheduled => .scheduled
  | .running => .running st.rerun

/-- What goes on for a document that may have no state. -/
def standingOf (st : Option DocState) : Standing := st.elim .idle DocState.standing

/-- The number of passes that is remembered. -/
def passesOf (st : Option DocState) : Nat := st.elim 0 DocState.passes

/-- What is remembered about a document is what the notes say, and every pass that was asked for
began, or is still waited for. -/
structure Accounted (st : Option DocState) (a : Account) : Prop where
  standing : standingOf st = a.standing
  passes : passesOf st = a.finished
  balance : a.resumed + (if a.standing = .scheduled then 1 else 0) = a.demands

section Accounted

variable {st : Option DocState} {a : Account} {uri : Text} (h : Accounted st a)
include h

theorem Accounted.edited (order : Nat) (d : Document) (serial : Nat) (now : Rat) :
    Accounted ((Request.changed d).state uri serial now st)
      (a.read uri (.received order (.changed d))) := by
  simp only [Request.state, Account.read]
  by_cases same : uri = d.uri
  · rw [if_pos same, if_pos same.symm]
    have standing : ((st.getD { serial }).edited now).standing = (standingOf st).edited := by
      cases st with
      | none => rfl
      | some st =>
        cases phase : st.phase <;>
          simp [standingOf, DocState.standing, DocState.edited, Standing.edited, phase]
    have passes : ((st.getD { serial }).edited now).passes = passesOf st := by
      cases st with
      | none => rfl
      | some st => cases phase : st.phase <;> simp [passesOf, DocState.edited, phase]
    refine ⟨standing.trans (congrArg Standing.edited h.standing), passes.trans h.passes, ?_⟩
    have balance := h.balance
    cases before : a.standing <;> simp_all [Standing.edited]
  · rw [if_neg same, if_neg fun eq => same eq.symm]
    exact h

/-- A request other than an edit or a closing leaves what is remembered, or makes a new state. -/
theorem Accounted.heard {r : Request} (order serial : Nat) (now : Rat)
    (opens : ∀ d, r ≠ .closed d) :
    Accounted (r.state uri serial now st) (a.read uri (.received order r)) := by
  cases r with
  | changed d => exact h.edited order d serial now
  | closed d => exact absurd rfl (opens d)
  | opened d =>
    have standing : standingOf ((Request.opened d).state uri serial now st) = standingOf st := by
      cases st <;> by_cases same : uri =
        d.uri <;> simp [Request.state, same, standingOf, DocState.standing]
    have passes : passesOf ((Request.opened d).state uri serial now st) = passesOf st := by
      cases st <;> by_cases same : uri = d.uri <;> simp [Request.state, same, passesOf]
    exact ⟨standing.trans h.standing, passes.trans h.passes, h.balance⟩
  | saved d => exact h
  | validate d => exact h
  | validateAll => exact h
  | configure settings => exact h
  | waitIdle => exact h

theorem Accounted.began {starter : Starter} {p : Pass} {new : DocState}
    (about : p.document.uri = uri) (running : new.phase = .running) (fresh : new.rerun = false)
    (passes : new.passes = passesOf st) (paused : starter = .pause → standingOf st = .scheduled)
    (others : starter ≠ .pause → standingOf st = .idle) :
    Accounted (some new) (a.read uri (.began starter p)) := by
  simp only [Account.read, if_pos about]
  have balance := h.balance
  rw [← h.standing] at balance
  refine ⟨by simp [standingOf, DocState.standing, running, fresh], passes.trans h.passes, ?_⟩
  by_cases pause : starter = .pause
  · simp_all
  · simp_all

theorem Accounted.ended {p : Pass} {old : DocState} (about : p.document.uri = uri)
    (known : st = some old) (running : old.phase = .running) (own : old.serial = p.serial) :
    Accounted (st.map (DocState.after p)) (a.read uri (.ended p)) := by
  subst known
  simp only [Account.read, if_pos about]
  have standing : a.standing = .running old.rerun := by
    rw [← h.standing]
    simp [standingOf, DocState.standing, running]
  have passes : old.passes = a.finished := h.passes
  have balance := h.balance
  cases rerun : old.rerun <;>
    exact ⟨by simp_all [standingOf, DocState.standing, DocState.after, Standing.ended],
      by simp_all [passesOf, DocState.after], by simp_all [Standing.ended]⟩

end Accounted

/-- What is remembered about each document is what the notes say. -/
def AllAccounted (m : Moment) : Prop :=
  ∀ uri, Accounted (m.scheduler.state? uri) (account uri m.history)

theorem standingOf_of_idle {s : Scheduler} {uri : Text} (idle : s.busy uri = false) :
    standingOf (s.state? uri) = .idle := by
  cases known : s.state? uri with
  | none => rfl
  | some st =>
    have phase : st.phase = .idle := by simpa [Scheduler.busy, known, DocState.busy] using idle
    simp [standingOf, DocState.standing, phase]

/-- A pass begins after a pause when its document is scheduled, and else when it is idle. -/
theorem Ready.standing {m : Moment} {id : Nat} {starter : Starter} {d : Document} {next : Following}
    (ready : Ready m id starter d next) (tidy : Tidy m d.uri) (unasked : Unasked m) :
    (starter = .pause → standingOf (m.scheduler.state? d.uri) = .scheduled) ∧
      (starter ≠ .pause → standingOf (m.scheduler.state? d.uri) = .idle) := by
  cases ready with
  | opened idle current => exact ⟨nofun, fun _ => standingOf_of_idle idle⟩
  | @asked s id order d still => exact absurd rfl (unasked id order d)
  | swept idle => exact ⟨nofun, fun _ => standingOf_of_idle idle⟩
  | pause stands known due current =>
    obtain ⟨st, known', phase⟩ := tidy.pause _ (pause?_point stands)
    refine ⟨fun _ => ?_, fun other => absurd rfl other⟩
    rw [known']
    simp [standingOf, DocState.standing, phase]

theorem AllAccounted.launch {m : Moment} {id : Nat} {starter : Starter} {d : Document}
    {next : Following} (h : AllAccounted m) (ready : Ready m id starter d next) (tidy : AllTidy m)
    (unasked : Unasked m) :
    AllAccounted
      ⟨.pass id .begun (m.scheduler.launch starter d).1 next,
        (m.scheduler.launch starter d).2⟩ := by
  intro uri
  rw [Moment.history, Scheduler.launch_history, Scheduler.state?_launch, account]
  by_cases same : uri = d.uri
  · subst same
    rw [if_pos rfl]
    obtain ⟨paused, others⟩ := ready.standing (tidy d.uri) unasked
    refine (h d.uri).began (launch_document .. ▸ rfl) rfl rfl ?_ paused others
    rw [Scheduler.remember_fst]
    cases m.scheduler.state? d.uri <;> rfl
  · have other : (m.scheduler.launch starter d).1.document.uri ≠ uri := fun eq => same eq.symm
    simp only [if_neg same, Account.read, if_neg other]
    exact h uri

theorem AllAccounted.finish {m : Moment} {s : Scheduler} {id : Nat} {p : Pass} {next : Following}
    {notes : History} (h : AllAccounted m) (tidy : AllTidy m) (holds : m.pass? id = some p)
    (plain : ∀ x ∈ notes, x.2.Plain)
    (told : s = { m.scheduler with history := notes ++ m.history }) :
    AllAccounted ⟨.task id next, s.endPass p⟩ := by
  intro uri
  have history : (s.endPass p).history = (s.now, .ended p) :: (notes ++ m.history) := by
    rw [Scheduler.endPass_history, told]
  have state : s.state? uri = m.scheduler.state? uri := by rw [told]; rfl
  rw [Moment.history, history, account, account_append plain, Scheduler.state?_endPass, state]
  by_cases same : uri = p.document.uri
  · subst same
    obtain ⟨st, known, running, own⟩ := (tidy p.document.uri).pass id p holds rfl
    rw [if_pos rfl]
    exact (h p.document.uri).ended rfl known running own
  · rw [if_neg same]
    simp only [Account.read, if_neg fun eq => same (Eq.symm eq)]
    exact h uri

theorem Effect.allAccounted {m n : Moment} (e : Effect w KeepsOpen m n) (tidy : AllTidy m)
    (unasked : Unasked m) (h : AllAccounted m) : AllAccounted n := by
  cases e with
  | quiet notes history plain documents state pass pause sweeps fresh lives heard =>
    intro uri
    rw [history, account_append fun x mem => (plain x mem).1, state]
    exact h uri
  | @hear s order r fine =>
    intro uri
    rw [Moment.history, Scheduler.heard_history, Scheduler.state?_heard]
    exact (h uri).heard order _ _ fine.2
  | lapse stands closed =>
    intro uri
    rw [Moment.history, Scheduler.place_history, Scheduler.state?_place]
    exact h uri
  | launch ready => exact h.launch ready tidy unasked
  | finish notes holds follows turn outcome told =>
    exact h.finish tidy holds (fun x mem => (outcome.plain x mem).1) told
  | @again s id order d runs => exact absurd rfl (unasked id order d)
  | list => exact h

/-! ## Tasks have different numbers -/

/-- No two tasks have the same number. -/
def Apart (s : Scheduler) : Prop := (s.tasks.map Task.id).Nodup

namespace Apart

variable {s : Scheduler} (h : Apart s)
include h

theorem place (id : Nat) (p : Point) : Apart (s.place id p) := by
  unfold Scheduler.place
  split
  · have ids : (s.tasks.map fun t => if t.id = id then { t with point := p } else t).map Task.id
        = s.tasks.map Task.id := by
      rw [List.map_map]
      refine List.map_congr_left fun t _ => ?_
      by_cases same : t.id = id <;> simp [same]
    show (List.map Task.id _).Nodup
    rw [ids]
    exact h
  · next unknown =>
    have new : id ∉ s.tasks.map Task.id := by
      simpa [Scheduler.point?] using unknown
    show (List.map Task.id (s.tasks ++ [_])).Nodup
    rw [List.map_append]
    refine List.nodup_append.mpr ⟨h, by simp, ?_⟩
    rintro x old y mem rfl
    obtain rfl := List.mem_singleton.mp mem
    exact new old

theorem drop (id : Nat) : Apart (s.drop id) :=
  List.Nodup.sublist (List.filter_sublist.map Task.id) h

theorem remember (uri : Text) : Apart (s.remember uri).2 := by
  unfold Scheduler.remember
  split <;> exact h

theorem schedule (uri : Text) (st : DocState) : Apart (s.schedule uri st) :=
  Apart.place (s := ((s.putState uri { st with phase := .scheduled }).enlist).2) h _ _

theorem launch (starter : Starter) (d : Document) : Apart (s.launch starter d).2 := h.remember d.uri

theorem endPass (p : Pass) : Apart (s.endPass p) := by
  rcases s.endPass_cases p with ⟨-, eq⟩ | ⟨st, -, -, ⟨-, eq⟩ | ⟨-, eq⟩⟩
  · exact eq ▸ h
  · exact eq ▸ Apart.schedule (s := s.noted (.ended p)) h _ _
  · exact eq ▸ h

theorem conclude (p : Pass) : Apart (s.conclude w p) := by
  obtain ⟨notes, eq, -⟩ := conclude_outcome (w := w) p s
  exact eq ▸ Apart.endPass (s := { s with history := notes ++ s.history }) h p

theorem edited (uri : Text) : Apart (s.edited uri) := by
  rcases s.edited_cases uri with ⟨st, -, -, eq⟩ | ⟨st, -, -, eq⟩ | ⟨-, eq⟩
  · exact eq ▸ h
  · exact eq ▸ h
  · exact eq ▸ (h.remember uri).schedule _ _

theorem heard (order : Nat) (r : Request) : Apart (s.heard order r) := by
  cases r with
  | opened d =>
    exact Apart.remember (s := { ((s.noted (.received order (.opened d))).enlist).2 with
      documents := s.documents.put d }) h d.uri
  | changed d =>
    exact Apart.edited (s := { ((s.noted (.received order (.changed d))).enlist).2 with
      documents := s.documents.put d }) h d.uri
  | _ => exact h

end Apart

theorem Goes.apart {m n : Moment} (g : Goes w m n) (h : Apart m.scheduler) : Apart n.scheduler := by
  cases g with
  | opened idle current => exact h.launch _ _
  | asked still => exact h.launch _ _
  | swept idle => exact h.launch _ _
  | again runs => exact h.remember _
  | lint set => exact Apart.place (s := Scheduler.noted _ _) h _ _
  | @queue s id p next wanted taken =>
    exact Apart.place (s := { s with waiting := s.waiting ++ [id] }) h _ _
  | compile wanted free => exact Apart.place (s := Scheduler.beginCompile _ _) h _ _
  | conclude done => exact h.conclude _
  | answer => exact Apart.drop (s := Scheduler.noted _ _) h _
  | refuse t => exact Apart.drop (s := Scheduler.noted _ _) h _
  | store path => exact h.place _ _
  | await ids => exact h.place _ _
  | spend => exact h.place _ _
  | _ => exact h

theorem Begins.apart {allowed : Scheduler → Request → Prop} {s : Scheduler} {m : Moment}
    (b : Begins w allowed s m) (h : Apart s) : Apart m.scheduler := by
  cases b with
  | hear order fine => exact h.heard order _
  | wait stands known early => exact h.place _ _
  | lapse stands closed => exact h.place _ _
  | wake stands known due current => exact Apart.launch (s := Scheduler.putState _ _ _) h _ _
  | vanish stands => exact h.drop _
  | lintLost stands answer unset => exact Apart.endPass (s := Scheduler.passFailed _ _ _) h _
  | @lock id p next stands unlocked first =>
    exact Apart.place (s := Scheduler.beginCompile p { s with waiting := s.waiting.tail }) h _ _
  | _ => exact h

theorem Move.apart {allowed : Scheduler → Request → Prop} {m n : Moment} (move : Move w allowed m n)
    (h : Apart m.scheduler) : Apart n.scheduler := by
  cases move with
  | begins b => exact b.apart h
  | goes g => exact g.apart h

/-! ## Counting tasks -/

/-- The number of tasks at points of a kind. -/
def tasksAt (on : Point → Bool) (s : Scheduler) : Nat := s.tasks.countP fun t => on t.point

section Counting

variable {s : Scheduler} {on : Point → Bool}

theorem Apart.point? (h : Apart s) {t : Task} (mem : t ∈ s.tasks) :
    s.point? t.id = some t.point := by
  unfold Apart at h
  unfold Scheduler.point?
  generalize s.tasks = tasks at h mem
  induction tasks with
  | nil => cases mem
  | cons first tasks ih =>
    obtain ⟨new, rest⟩ := List.nodup_cons.mp h
    rcases List.mem_cons.mp mem with rfl | mem
    · simp
    · have other : first.id ≠ t.id := fun same => new (same ▸ List.mem_map_of_mem mem)
      rw [List.find?_cons_of_neg (by simpa using other)]
      exact ih rest mem

theorem tasksAt_eq_zero (apart : Apart s) (none : ∀ id p, s.point? id = some p → on p = false) :
    tasksAt on s = 0 :=
  List.countP_eq_zero.mpr fun t mem => by simp [none t.id t.point (apart.point? mem)]

/-- When there is such a task, and all have one number, there is one. -/
theorem tasksAt_eq_one (apart : Apart s) {id : Nat} {p : Point} (stands : s.point? id = some p)
    (here : on p = true) (only : ∀ id' p', s.point? id' = some p' → on p' = true → id' = id) :
    tasksAt on s = 1 := by
  have numbers : (s.tasks.filter fun t => on t.point).map Task.id
      = List.replicate (tasksAt on s) id := by
    refine List.eq_replicate_iff.mpr ⟨?_, ?_⟩
    · rw [List.length_map, tasksAt, List.countP_eq_length_filter]
    · intro x mem
      obtain ⟨t, inside, rfl⟩ := List.mem_map.mp mem
      obtain ⟨inside, there⟩ := List.mem_filter.mp inside
      exact only t.id t.point (apart.point? inside) there
  have most : tasksAt on s ≤ 1 := by
    rw [← List.nodup_replicate (a := id), ← numbers]
    exact List.Nodup.sublist (List.filter_sublist.map Task.id) apart
  obtain ⟨t, found, rfl⟩ := Option.map_eq_some_iff.mp stands
  have least : 0 < tasksAt on s :=
    List.countP_pos_iff.mpr ⟨t, List.mem_of_find?_eq_some found, here⟩
  omega

end Counting

/-! ## Runs -/

/-- What every move keeps when no document is closed. -/
structure InOrder (w : Surroundings) (m : Moment) : Prop where
  faithful : Faithful w m
  unasked : Unasked m
  honest : AllHonest m
  tidy : AllTidy m
  accounted : AllAccounted m
  apart : Apart m.scheduler

theorem InOrder.move {m n : Moment} (move : Move w KeepsOpen m n) (h : InOrder w m) :
    InOrder w n where
  faithful := move.effect.faithful h.faithful
  unasked := move.effect.unasked (fun _ d fine => fine.1 d rfl) h.unasked
  honest := move.effect.allHonest h.faithful.numbered h.unasked h.honest
  tidy :=
  (move.effect.mono fun _ _ fine => fine.careful).allTidy h.faithful.numbered h.unasked h.tidy
  accounted := move.effect.allAccounted h.tidy h.unasked h.accounted
  apart := move.apart h.apart

end ContractCheck.Schedule
