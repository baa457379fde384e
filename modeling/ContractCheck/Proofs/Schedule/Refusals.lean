import ContractCheck.Proofs.Schedule.Views

/-! # Which requests are refused

Most of what goes wrong while documents are validated stays inside a pass: a linter, the compiler or
the publisher that fails there is logged.  A request is refused in three cases only
(`Scheduler.raised`): the empty set cannot be published when a document is closed, a linter cannot
be made or given its rules when the settings change, or outputs cannot be promoted.  Everything else
that a scheduler does obliges (`Scheduler.Obliges`), so that the refusals of a run are just those
that one of its events raises (`refusals_of_run`).
-/
namespace ContractCheck.Schedule

/-- The request that a note refuses, and why. -/
def Note.refusal? : Note → Option (Nat × Text)
  | .refused order kind => some (order, kind)
  | _ => none

/-- The source whose outputs are promoted for a request. -/
def Request.promoted? : Request → Option Text
  | .saved d | .closed d => some d.path
  | _ => none

/-- Whether a request can be refused at all. -/
def Request.Exposed (r : Request) : Prop := r.promoted?.isSome ∨ ∃ settings, r = .configure settings

end ContractCheck.Schedule

namespace ContractCheck.Scheduler

open Schedule

/-- The requests that were refused, the last one first. -/
def refusals (s : Scheduler) : List (Nat × Text) := s.history.filterMap fun x => x.2.refusal?

/-- The refusal that an event raises. -/
def raised (w : Surroundings) (s : Scheduler) : Event → Option (Nat × Text)
  | .request order (.closed d) =>
    (w.publish ((s.heard order (.closed d)).noted (.publish d.uri [])).occasion d.uri []).map
      fun t => (order, t.kind)
  | .request order (.configure settings) =>
    ((s.heard order (.configure settings)).applySettings w (some settings) none).1.map fun t =>
    (order, t.kind)
  | .resume id =>
    match s.point? id with
    | some (.promoting order path) =>
    (w.promote (s.noted (.promote path)).occasion path).map fun t => (order, t.kind)
    | _ => none
  | _ => none

variable {w : Surroundings} {s s' s'' : Scheduler}

/-! ## What refuses nothing -/

/-- What a scheduler does without refusing a request, or sending a task to promote outputs. -/
structure Obliges (s s' : Scheduler) : Prop where
  history : ∃ notes, s'.history = notes ++ s.history ∧ ∀ x ∈ notes, x.2.refusal? = none
  points : ∀ id order path, s'.point? id = some (.promoting order path) →
    s.point? id = some (.promoting order path)

namespace Obliges

theorem refl (s : Scheduler) : Obliges s s := ⟨⟨[], rfl, nofun⟩, fun _ _ _ => id⟩

theorem trans (first : Obliges s s') (second : Obliges s' s'') : Obliges s s'' := by
  obtain ⟨notes, told, fine⟩ := first.history
  obtain ⟨more, told', fine'⟩ := second.history
  refine ⟨⟨more ++ notes, by rw [told', told, List.append_assoc], ?_⟩, fun id order path stands =>
    first.points id order path (second.points id order path stands)⟩
  exact fun x mem => (List.mem_append.mp mem).elim (fine' x) (fine x)

theorem refusals (obliges : Obliges s s') : s'.refusals = s.refusals := by
  obtain ⟨notes, told, fine⟩ := obliges.history
  rw [Scheduler.refusals, told, List.filterMap_append, List.filterMap_eq_nil_iff.mpr fine]
  rfl

theorem mem (obliges : Obliges s s') {x : Rat × Note} (own : x ∈ s.history) : x ∈ s'.history := by
  obtain ⟨notes, told, -⟩ := obliges.history
  rw [told]
  exact List.mem_append_right notes own

theorem of_views (history : s'.history = s.history) (points : ∀ id, s'.point? id = s.point? id) :
    Obliges s s' :=
  ⟨⟨[], history, nofun⟩, fun id _ _ stands => (points id).symm.trans stands⟩

theorem noted (s : Scheduler) {n : Note} (fine : n.refusal? = none) : Obliges s (s.noted n) :=
  ⟨⟨[(s.now, n)], rfl, List.forall_mem_singleton.mpr fine⟩, fun _ _ _ => id⟩

theorem logged (s : Scheduler) (level : LogLevel) (message : Text) (context : Fields) :
    Obliges s (s.logged level message context) := noted s rfl

theorem place (s : Scheduler) (id : Nat) {p : Point}
    (other : ∀ order path, p ≠ .promoting order path) :
    Obliges s (s.place id p) := by
  refine ⟨⟨[], place_history s id p, nofun⟩, fun x order path stands => ?_⟩
  rw [point?_place] at stands
  split at stands
  · exact absurd (Option.some.inj stands) (other order path)
  · exact stands

theorem drop (s : Scheduler) (id : Nat) : Obliges s (s.drop id) := by
  refine ⟨⟨[], rfl, nofun⟩, fun x order path stands => ?_⟩
  rw [point?_drop] at stands
  split at stands
  · cases stands
  · exact stands

theorem answer (s : Scheduler) (id order : Nat) : Obliges s (s.answer id order) :=
  (noted s rfl).trans (drop _ id)

/-! ### Passes -/

theorem launch (starter : Starter) (d : Document) (s : Scheduler) :
    Obliges s (s.launch starter d).2 :=
  ⟨⟨_, launch_history s starter d, List.forall_mem_singleton.mpr rfl⟩,
    fun id _ _ stands => (point?_launch s starter d id).symm.trans stands⟩

theorem endPass (p : Pass) (s : Scheduler) : Obliges s (s.endPass p) := by
  refine ⟨⟨[_], endPass_history p s, List.forall_mem_singleton.mpr rfl⟩,
    fun id order path stands => ?_⟩
  rcases s.endPass_point? p with ⟨-, points, -⟩ | ⟨-, points, -⟩
  · exact (points id).symm.trans stands
  · rw [points] at stands
    split at stands
    · cases Option.some.inj stands
    · exact stands

/-- A publisher that fails at the end of a pass is logged. -/
theorem conclude (p : Pass) (s : Scheduler) : Obliges s (s.conclude w p) := by
  have published : Obliges s (s.noted (.publish p.document.uri p.found)) := noted s rfl
  unfold Scheduler.conclude
  split
  · dsimp only
    split
    · exact published.trans ((logged _ _ _ _).trans (endPass p _))
    · exact published.trans ((logged _ _ _ _).trans (endPass p _))
  · exact endPass p s

theorem beginCompile (p : Pass) (s : Scheduler) : Obliges s (s.beginCompile p) :=
  (of_views rfl fun _ => rfl : Obliges s { s with locked := true }).trans (noted _ rfl)

theorem towardsCompile (id : Nat) (p : Pass) (s : Scheduler) :
    Obliges s (s.towardsCompile w id p).2 := by
  unfold Scheduler.towardsCompile
  split
  · split
    · exact beginCompile p s
    · exact of_views rfl fun _ => rfl
  · exact conclude p s

theorem beginPass (id : Nat) (starter : Starter) (d : Document) (s : Scheduler) :
    Obliges s (s.beginPass w id starter d).2 := by
  unfold Scheduler.beginPass
  split
  · exact of_views (askAgain_history s d.uri) (point?_askAgain s d.uri)
  · dsimp only
    split
    · exact (launch starter d s).trans (noted _ rfl)
    · exact (launch starter d s).trans (towardsCompile id _ _)

/-- A linter that fails is logged. -/
theorem afterLint (id : Nat) (p : Pass) (l : Linter) (s : Scheduler) :
    Obliges s (s.afterLint w id p l).2 := by
  unfold Scheduler.afterLint
  split
  · exact towardsCompile id _ s
  · split
    · exact (logged _ _ _ _).trans (towardsCompile id p _)
    · exact (logged _ _ _ _).trans (endPass p _)

/-- A compiler that fails is logged. -/
theorem afterCompile (p : Pass) (s : Scheduler) : Obliges s (s.afterCompile w p) := by
  have compiled : Obliges s ({ s with locked := false }.noted (.compiled p.document)) :=
    (of_views rfl fun _ => rfl : Obliges s { s with locked := false }).trans (noted _ rfl)
  unfold Scheduler.afterCompile
  dsimp only
  split
  · exact compiled.trans (conclude _ _)
  · exact compiled.trans ((logged _ _ _ _).trans (conclude p _))

/-! ### Sweeps, waiting and settings -/

theorem sweep (id order listed : Nat) (docs : List Document) (s : Scheduler) :
    Obliges s (s.sweep w id order listed docs) := by
  induction docs generalizing s with
  | nil =>
    exact (of_views rfl fun _ => rfl : Obliges s { s with sweeping := false }).trans
      (answer _ id order)
  | cons d rest ih =>
    unfold Scheduler.sweep
    split
    · exact ih s
    · have began := beginPass (w := w) id (.sweep listed) d s
      split
      · next stage s' same =>
        rw [same] at began
        exact began.trans (place s' id nofun)
      · next s' same =>
        rw [same] at began
        exact began.trans (ih s')

theorem beginSweep (id order : Nat) (s : Scheduler) : Obliges s (s.beginSweep w id order) := by
  unfold Scheduler.beginSweep
  split
  · exact (logged _ _ _ _).trans (answer _ id order)
  · exact (of_views rfl fun _ => rfl : Obliges s { s with sweeping := true }).trans
      (sweep id order _ _ _)

theorem follow (id : Nat) (next : Following) {r : Option Stage × Scheduler}
    (obliges : Obliges s r.2) :
    Obliges s (follow w id next r) := by
  obtain ⟨_ | stage, s'⟩ := r
  · cases next with
    | answer order => exact obliges.trans (answer s' id order)
    | sweep order listed rest => exact obliges.trans (sweep id order listed rest s')
    | nothing => exact obliges.trans (place s' id nofun)
  · exact obliges.trans (place s' id nofun)

theorem awaitIdle (id order : Nat) (s : Scheduler) : Obliges s (s.awaitIdle id order) := by
  unfold Scheduler.awaitIdle
  split
  · exact answer s id order
  · exact place s id nofun

theorem useLinter (linter : Option Linter) (s : Scheduler) :
    Obliges s (s.useLinter w linter).2 := by
  unfold Scheduler.useLinter
  split
  · exact of_views rfl fun _ => rfl
  · next l =>
    have ruled : Obliges s (s.noted (.rules (l.withRules s.settings.linterRules))) := noted s rfl
    dsimp only
    split
    · exact ruled.trans (of_views rfl fun _ => rfl)
    · exact ruled.trans (of_views rfl fun _ => rfl)

/-- Settings that cannot be applied refuse nothing by themselves. -/
theorem applySettings (settings : Option ValidationSettings) (given : Option Linter)
    (s : Scheduler) :
    Obliges s (s.applySettings w settings given).2 := by
  have adjusted : Obliges s { s with settings := settings.getD s.settings } := of_views rfl fun _ =>
    rfl
  unfold Scheduler.applySettings
  dsimp only
  split
  · exact adjusted.trans (useLinter _ _)
  · split
    · exact adjusted.trans (useLinter _ _)
    · split
      · exact adjusted.trans (useLinter _ _)
      · exact adjusted.trans ((logged _ _ _ _).trans (useLinter _ _))
      · exact adjusted

/-! ### Events -/

theorem heard (order : Nat) (r : Request) (s : Scheduler) : Obliges s (s.heard order r) := by
  refine ⟨⟨[_], heard_history s order r, List.forall_mem_singleton.mpr rfl⟩,
    fun id order' path stands => ?_⟩
  rcases s.heard_point? order r with ⟨-, -, points⟩ | ⟨d, -, -, new, -, -, points⟩
  · exact (points id).symm.trans stands
  · rw [points] at stands
    split at stands
    · cases Option.some.inj stands
    · exact stands

theorem wake (id : Nat) (uri : Text) (s : Scheduler) : Obliges s (s.wake w id uri) := by
  unfold Scheduler.wake
  split
  · exact place s id nofun
  · dsimp only
    split
    · exact place s id nofun
    · split
      · exact place s id nofun
      · next st _ _ _ d _ =>
        have idle : Obliges s (s.putState uri { st with phase := .idle }) := of_views rfl fun _ =>
          rfl
        exact follow id .nothing (idle.trans (beginPass id .pause d _))

end Obliges

/-! ## Events -/

/-- What an event comes to: nothing is refused; outputs of a source are to be promoted for a
request; or a request is refused that could be. -/
inductive Comes (s : Scheduler) : Option (Nat × Text) → Scheduler → Prop
  | served {s' : Scheduler} (obliges : Obliges s s') : Comes s none s'
  | storing {s' : Scheduler} {order : Nat} {path : Text} {t : Rat} {r : Request}
      (obliges : Obliges s s')
      (heard : (t, .received order r) ∈ s'.history) (own : r.promoted? = some path) (id : Nat) :
      Comes s none (s'.place id (.promoting order path))
  | refused {s' : Scheduler} {order : Nat} (obliges : Obliges s s')
      (cause : (∃ t r, (t, .received order r) ∈ s'.history ∧ r.Exposed) ∨
        ∃ id path, s.point? id = some (.promoting order path)) (id : Nat) (t : Trouble) :
      Comes s (some (order, t.kind)) (s'.refuse id order t)

theorem heard_mem (s : Scheduler) (order : Nat) (r : Request) :
    (s.now, .received order r) ∈ (s.heard order r).history := by
  rw [heard_history]
  exact List.mem_cons_self

theorem receive_comes (s : Scheduler) (order : Nat) (r : Request) :
    Comes s (raised w s (.request order r)) (s.receive w order r) := by
  have heard := Obliges.heard order r s
  have told := heard_mem s order r
  unfold receive
  cases r with
  | opened d =>
    refine .served ?_
    dsimp only
    split
    · exact heard.trans (.answer _ _ _)
    · exact .follow _ _ (heard.trans (.beginPass _ _ _ _))
  | changed d => exact .served (heard.trans (.answer _ _ _))
  | saved d => exact .storing heard told rfl s.fresh
  | closed d =>
    have cleared : Obliges s ((s.heard order (.closed d)).noted (.publish d.uri [])) :=
      heard.trans (.noted _ rfl)
    have told : (s.now, .received order (.closed d)) ∈
        ((s.heard order (.closed d)).noted (.publish d.uri [])).history :=
      List.mem_cons_of_mem _ told
    unfold raised
    dsimp only
    split
    · next fine =>
      rw [fine]
      exact .storing cleared told rfl s.fresh
    · next t failed =>
      rw [failed]
      exact .refused cleared (.inl ⟨_, _, told, .inl rfl⟩) s.fresh t
  | validate d => exact .served (.follow _ _ (heard.trans (.beginPass _ _ _ _)))
  | validateAll => exact .served (heard.trans (.beginSweep _ _ _))
  | configure settings =>
    have applied := heard.trans (Obliges.applySettings (w := w) (some settings) none _)
    unfold raised
    dsimp only
    split
    · next t s' failed =>
      rw [failed] at applied ⊢
      have told : (s.now, .received order (.configure settings)) ∈ s'.history := by
        have kept := (Obliges.applySettings (w := w) (some settings) none
          (s.heard order (.configure settings))).mem told
        rwa [failed] at kept
      exact .refused applied (.inl ⟨_, _, told, .inr ⟨settings, rfl⟩⟩) s.fresh t
    · next s' fine =>
      rw [fine] at applied ⊢
      refine .served ?_
      split
      · exact applied.trans (.beginSweep _ _ _)
      · exact applied.trans (.answer _ _ _)
  | waitIdle => exact .served (heard.trans (.awaitIdle _ _ _))

theorem resume_comes (s : Scheduler) (id : Nat) :
    Comes s (raised w s (.resume id)) (s.resume w id) := by
  unfold resume raised
  dsimp only
  cases stands : s.point? id with
  | none => exact .served (.refl s)
  | some p =>
    cases p with
    | pausing uri wakeAt =>
      refine .served ?_
      dsimp only
      split
      · exact .wake id uri s
      · exact .refl s
    | inPass stage next =>
      refine .served ?_
      cases stage with
      | linting p l => exact .follow _ _ (.afterLint _ _ _ _)
      | queued p =>
        dsimp only
        split
        · have tail : Obliges s { s with waiting := s.waiting.tail } := .of_views rfl fun _ => rfl
          exact (tail.trans (.beginCompile p _)).trans (.place _ _ nofun)
        · exact .refl s
      | compiling p => exact .follow _ _ (.afterCompile p s)
    | spent => exact .served (.drop s id)
    | promoting order path =>
      have begun : Obliges s (s.noted (.promote path)) := .noted s rfl
      dsimp only
      split
      · next fine =>
        rw [fine]
        exact .served (begun.trans (.answer _ _ _))
      · next t failed =>
        rw [failed]
        exact .refused begun (.inr ⟨id, path, stands⟩) id t
    | awaiting order ids =>
      refine .served ?_
      dsimp only
      split
      · exact .refl s
      · exact .awaitIdle _ _ s

/-- **What an event comes to**, of the refusal that it raises. -/
theorem step_comes (s : Scheduler) (e : Event) : Comes s (raised w s e) (s.step w e) := by
  cases e with
  | clock t =>
    refine .served ?_
    unfold step
    dsimp only
    split
    · exact .of_views rfl fun _ => rfl
    · exact .refl s
  | request order r => exact receive_comes s order r
  | resume id => exact resume_comes s id

/-- **An event adds the refusal that it raises**, and no other. -/
theorem step_refusals (s : Scheduler) (e : Event) :
    (s.step w e).refusals = (raised w s e).toList ++ s.refusals := by
  have comes := step_comes (w := w) s e
  generalize raised w s e = refusal, s.step w e = s' at comes ⊢
  cases comes with
  | served obliges => exact obliges.refusals
  | @storing s' order path t r obliges heard own id =>
    rw [refusals, place_history]
    exact obliges.refusals
  | @refused s' order obliges cause id t =>
    have added : (s'.refuse id order t).refusals = (order, t.kind) :: s'.refusals := rfl
    rw [added, obliges.refusals]
    rfl

/-- What a step makes of a history is more of it. -/
theorem step_mem (s : Scheduler) (e : Event) {x : Rat × Note} (mem : x ∈ s.history) :
    x ∈ (s.step w e).history := by
  have comes := step_comes (w := w) s e
  generalize raised w s e = refusal, s.step w e = s' at comes ⊢
  cases comes with
  | served obliges => exact obliges.mem mem
  | storing obliges heard own id =>
    rw [place_history]
    exact obliges.mem mem
  | refused obliges cause id t => exact List.mem_cons_of_mem _ (obliges.mem mem)

/-! ## Whose requests are refused -/

/-- Outputs are promoted for requests that save or close their source, and what is refused could
be. -/
structure Accountable (s : Scheduler) : Prop where
  promoting : ∀ id order path, s.point? id = some (.promoting order path) →
    ∃ t r, (t, .received order r) ∈ s.history ∧ r.promoted? = some path
  refused : ∀ order kind, (order, kind) ∈ s.refusals →
    ∃ t r, (t, .received order r) ∈ s.history ∧ r.Exposed

theorem Accountable.step (h : Accountable s) (e : Event) : Accountable (s.step w e) := by
  have more := fun x => step_mem (w := w) s e (x := x)
  have comes := step_comes (w := w) s e
  have refusals := step_refusals (w := w) s e
  generalize raised w s e = refusal, s.step w e = s' at comes refusals more ⊢
  have older : ∀ order kind, (order, kind) ∈ s.refusals →
      ∃ t r, (t, .received order r) ∈ s'.history ∧ r.Exposed :=
    fun order kind mem => (h.refused order kind mem).imp fun t ⟨r, told, exposed⟩ =>
      ⟨r, more _ told, exposed⟩
  have earlier : ∀ id order path, s.point? id = some (.promoting order path) →
      ∃ t r, (t, .received order r) ∈ s'.history ∧ r.promoted? = some path :=
    fun id order path stands => (h.promoting id order path stands).imp fun t ⟨r, told, own⟩ =>
      ⟨r, more _ told, own⟩
  cases comes with
  | served obliges =>
    refine ⟨fun id order path stands => earlier id order path (obliges.points id order path stands),
      fun order kind mem => ?_⟩
    rw [refusals] at mem
    exact older order kind mem
  | @storing s' order path t r obliges heard own new =>
    refine ⟨fun id order' path' stands => ?_, fun order' kind mem => ?_⟩
    · rw [point?_place] at stands
      split at stands
      · obtain ⟨rfl, rfl⟩ := Point.promoting.inj (Option.some.inj stands)
        exact ⟨t, r, by rw [place_history]; exact heard, own⟩
      · exact earlier id order' path' (obliges.points id order' path' stands)
    · rw [refusals] at mem
      exact older order' kind mem
  | @refused s' order obliges cause id t =>
    refine ⟨fun x order' path stands => ?_, fun order' kind mem => ?_⟩
    · have kept := (Obliges.drop (s'.noted (.refused order t.kind)) id).points x order' path stands
      exact earlier x order' path (obliges.points x order' path kept)
    · rw [refusals] at mem
      rcases List.mem_cons.mp mem with same | mem
      · obtain ⟨rfl, -⟩ := Prod.mk.inj same
        rcases cause with ⟨time, r, told, exposed⟩ | ⟨id, path, stands⟩
        · exact ⟨time, r, List.mem_cons_of_mem _ told, exposed⟩
        · obtain ⟨time, r, told, own⟩ := earlier id _ path stands
          exact ⟨time, r, told, .inl (by rw [own]; rfl)⟩
      · exact older order' kind mem

/-! ## Runs -/

theorem run_cons (s : Scheduler) (e : Event) (events : List Event) :
    s.run w (e :: events) = (s.step w e).run w events := rfl

/-- The refusals of a run are those that were there before, and those that its events raise. -/
theorem mem_refusals_run {x : Nat × Text} (s : Scheduler) (events : List Event) :
    x ∈ (s.run w events).refusals ↔
    x ∈ s.refusals ∨ ∃ before e after, events = before ++ e :: after ∧
    raised w (s.run w before) e = some x := by
  induction events generalizing s with
  | nil =>
    refine ⟨.inl, fun h => h.elim id fun ⟨before, e, after, split, _⟩ => ?_⟩
    exact absurd split.symm (List.append_ne_nil_of_right_ne_nil before (List.cons_ne_nil e after))
  | cons e events ih =>
    rw [run_cons, ih, step_refusals, List.mem_append, Option.mem_toList]
    constructor
    · rintro ((now | earlier) | ⟨before, e', after, rfl, later⟩)
      · exact .inr ⟨[], e, events, rfl, now⟩
      · exact .inl earlier
      · exact .inr ⟨e :: before, e', after, rfl, later⟩
    · rintro (earlier | ⟨_ | ⟨first, before⟩, e', after, split, raises⟩)
      · exact .inl (.inr earlier)
      · obtain ⟨rfl, -⟩ := List.cons.inj split
        exact .inl (.inl raises)
      · obtain ⟨rfl, rfl⟩ := List.cons.inj split
        exact .inr ⟨before, e', after, rfl, raises⟩

theorem Accountable.run (h : Accountable s) (events : List Event) :
    Accountable (s.run w events) := by
  induction events generalizing s with
  | nil => exact h
  | cons e events ih => exact ih (h.step e)

/-- Nothing is promoted or refused before the first request. -/
theorem start_accountable (root : Option Text) (settings : Option ValidationSettings)
    (given : Option Linter) :
    Accountable (start w root settings given).2 ∧
    (start w root settings given).2.refusals = [] := by
  have obliges : Obliges { root : Scheduler } (start w root settings given).2 :=
    .applySettings settings given _
  have none : (start w root settings given).2.refusals = [] := obliges.refusals
  refine ⟨⟨fun id order path stands => ?_, fun order kind mem => ?_⟩, none⟩
  · cases obliges.points id order path stands
  · rw [none] at mem
    cases mem

/-! ## Closing a document -/

/-- What comes of closing a document: it is forgotten in any case, and its outputs are to be
promoted only if the empty set could be published. -/
structure Closes (w : Surroundings) (s : Scheduler) (order : Nat) (d : Document) (s' : Scheduler) :
    Prop where
  documents : s'.documents.has d.uri = false
  state : s'.state? d.uri = none
  stored : raised w s (.request order (.closed d)) = none →
    s'.point? s.fresh = some (.promoting order d.path)
  refused : ∀ kind, raised w s (.request order (.closed d)) = some (order, kind) →
    (∀ id, s'.point? id = if id = s.fresh then none else s.point? id) ∧
    s'.history = (s.now, .refused order kind) :: (s.now, .publish d.uri []) :: (s.now,
      .received order (.closed d)) :: s.history

theorem step_closes (s : Scheduler) (order : Nat) (d : Document) :
    Closes w s order d (s.step w (.request order (.closed d))) := by
  have documents : (s.heard order (.closed d)).documents.has d.uri = false := by
    rw [heard_documents, Request.store, DocumentStore.has, DocumentStore.get?_remove_self]
    rfl
  have state : (s.heard order (.closed d)).state? d.uri = none := by
    rw [state?_heard, Request.state, if_pos rfl]
  unfold step receive
  dsimp only
  split
  · next fine =>
    refine ⟨by rw [place_documents]; exact documents, by rw [state?_place]; exact state,
      fun _ => ?_, fun kind raises => ?_⟩
    · rw [point?_place, if_pos rfl]
    · rw [raised, fine] at raises
      cases raises
  · next t failed =>
    refine ⟨documents, state, fun raises => ?_, fun kind raises => ?_⟩
    · rw [raised, failed] at raises
      cases raises
    · rw [raised, failed] at raises
      obtain rfl := (Prod.mk.inj (Option.some.inj raises)).2
      exact ⟨fun id => point?_drop _ s.fresh id, rfl⟩

/-- **A run refuses just the requests that its events raise a refusal for**, and these save or close
a document or change the settings; whatever fails inside a pass refuses nothing. -/
theorem refusals_of_run (w : Surroundings) (root : Option Text)
    (settings : Option ValidationSettings) (given : Option Linter)
    (events : List Event) :
    (∀ order kind, (order, kind) ∈ ((start w root settings given).2.run w events).refusals ↔
      ∃ before e after, events = before ++ e :: after ∧
        raised w ((start w root settings given).2.run w before) e = some (order, kind)) ∧
    (∀ order kind, (order, kind) ∈ ((start w root settings given).2.run w events).refusals →
      ∃ t r, (t, .received order r) ∈ ((start w root settings given).2.run w events).history ∧
        r.Exposed) ∧
    ∀ before order d,
      Closes w ((start w root settings given).2.run w before) order d
        ((start w root settings given).2.run w (before ++ [.request order (.closed d)])) := by
  obtain ⟨accountable, none⟩ := start_accountable (w := w) root settings given
  refine ⟨fun order kind => ?_, (accountable.run events).refused, fun before order d => ?_⟩
  · rw [mem_refusals_run, none]
    exact or_iff_right List.not_mem_nil
  · have last : ∀ s : Scheduler, s.run w (before ++ [.request order (.closed d)]) =
        (s.run w before).step w (.request order (.closed d)) := fun s => List.foldl_append
    rw [last]
    exact step_closes _ order d

end ContractCheck.Scheduler

namespace ContractCheck.Schedule

/-- Surroundings whose publisher is gone, and in which all else is well. -/
def Surroundings.unheard : Surroundings where
  linter _ _ _ := .unavailable []
  setRules _ _ := none
  lint _ _ _ := .ok []
  compile _ _ := .ok []
  publish _ _ _ := some { kind := "RuntimeError".toList, message := "transport closed".toList }
  promote _ _ := none

/-- The document that is closed there. -/
def unheardDocument : Document :=
  { uri := "file:///a.sol".toList, path := "/a.sol".toList, text := "one".toList }

/-- The scheduler after it was closed. -/
def unheardClose : Scheduler :=
  (Scheduler.start .unheard none none none).2.run .unheard [.request 0 (.closed unheardDocument)]

/-- **Where the publisher is gone, closing a document is refused**, and its outputs are not
promoted. -/
theorem unheard_close_refused : unheardClose.refusals = [(0, "RuntimeError".toList)] ∧
    unheardClose.history = [(0, .refused 0 "RuntimeError".toList),
      (0, .publish unheardDocument.uri []),
      (0, .received 0 (.closed unheardDocument))] ∧ unheardClose.tasks = [] :=
  ⟨rfl, rfl, rfl⟩

end ContractCheck.Schedule
