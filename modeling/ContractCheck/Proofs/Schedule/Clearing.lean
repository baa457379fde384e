import ContractCheck.Proofs.Schedule.Ledger
import Mathlib.Data.List.Induction

/-! # Closed documents stay clear

When a document is closed, the empty set is published for it.  Tasks for it may go on: a pass holds
what it found while the linter, the compile lock or the compiler is waited for, and sweeps and old
pauses may even begin new passes.  But a pass publishes only when its document is open as it ends,
and a closed document is not open before it is opened, edited or saved again.  So nothing but the
empty set is published for it until then (`closed_stays_clear`).
-/
namespace ContractCheck.Schedule

variable {w : Surroundings} {allowed : Scheduler → Request → Prop}

/-- What a publisher shows for a document that keeps, for each document, the last set that it
took. -/
def shown (w : Surroundings) (uri : Text) : History → Option (List EditorDiagnostic)
  | [] => none
  | (_, .publish u found) :: older =>
    if u = uri ∧ w.publish (older.length + 1) u found = none then some found else shown w uri older
  | _ :: older => shown w uri older

namespace Note

/-- The request that came in according to a note. -/
def request? : Note → Option Request
  | .received _ r => some r
  | _ => none

/-- Whether a note says that a document was opened, edited or saved. -/
def touches (uri : Text) : Note → Bool
  | .received _ (.opened d) | .received _ (.changed d) | .received _ (.saved d) => d.uri = uri
  | _ => false

theorem Plain.request? {n : Note} (plain : n.Plain) : n.request? = none := by
  cases n <;> first | rfl | exact plain.elim

end Note

/-! ## What moves publish -/

/-- Notes bring no request in, and publish nothing for documents outside a store but the empty
set. -/
def Modest (documents : DocumentStore) (notes : History) : Prop :=
  ∀ x ∈ notes, x.2.request? = none ∧
    ∀ uri found, x.2 = .publish uri found → found = [] ∨ documents.has uri = true

theorem modest_nil (documents : DocumentStore) : Modest documents [] := nofun

theorem modest_cons {documents : DocumentStore} {t : Rat} {n : Note} {notes : History}
    (request : n.request? = none)
    (published : ∀ uri found, n = .publish uri found → found = [] ∨ documents.has uri = true)
    (rest : Modest documents notes) : Modest documents ((t, n) :: notes) :=
  List.forall_mem_cons.mpr ⟨⟨request, published⟩, rest⟩

/-- A note that is about no request and publishes nothing. -/
theorem modest_single {documents : DocumentStore} {t : Rat} {n : Note} (request : n.request? = none)
    (silent : ∀ uri found, n ≠ .publish uri found) : Modest documents [(t, n)] :=
  modest_cons request (fun uri found same => absurd same (silent uri found)) (modest_nil documents)

/-- A move adds only modest notes. -/
def Adds (m n : Moment) : Prop :=
  ∃ notes, n.history = notes ++ m.history ∧ Modest m.scheduler.documents notes

theorem Adds.nothing {m n : Moment} (same : n.history = m.history) : Adds m n :=
  ⟨[], same, modest_nil _⟩

theorem Adds.single {m n : Moment} {t : Rat} {x : Note} (history : n.history = (t, x) :: m.history)
    (request : x.request? = none) (silent : ∀ uri found, x ≠ .publish uri found) : Adds m n :=
  ⟨[(t, x)], history, modest_single request silent⟩

theorem Outcome.publishes {documents : DocumentStore} {p : Pass} {older notes : History}
    (outcome : Outcome w documents p older notes) :
    ∀ x ∈ notes, ∀ uri found, x.2 = .publish uri found → uri = p.document.uri := by
  rcases outcome with ⟨-, rfl⟩ | ⟨-, t, t', message, rfl⟩ | told
  · exact nofun
  · simp [eq_comm]
  · cases told with
    | publishing answer => simp [eq_comm]
    | linting answer => simp

/-- A pass publishes for its own document, and only while it is open. -/
theorem conclude_adds (p : Pass) (s : Scheduler) (hand : Hand) (id : Nat) (next : Following) :
    Adds ⟨hand, s⟩ ⟨.task id next, s.conclude w p⟩ := by
  by_cases has : s.documents.has p.document.uri
  · obtain ⟨notes, told, outcome⟩ := conclude_outcome (w := w) p s
    refine ⟨(s.now, .ended p) :: notes, ?_, modest_cons rfl nofun fun x mem =>
      ⟨?_, fun uri found same => ?_⟩⟩
    · rw [told, Moment.history, Scheduler.endPass_history]
      rfl
    · exact (outcome.plain x mem).1.request?
    · exact .inr (outcome.publishes x mem uri found same ▸ has)
  · have unwanted : s.conclude w p = s.endPass p := if_neg has
    have history : (s.conclude w p).history = (s.now, .ended p) :: s.history := by
      rw [unwanted, Scheduler.endPass_history]
    exact .single history rfl nofun

theorem Goes.adds {m n : Moment} (g : Goes w m n) : Adds m n := by
  cases g with
  | log level message => exact .single rfl rfl nofun
  | rule l => exact .single rfl rfl nofun
  | clear => exact ⟨[_], rfl, modest_cons rfl (by rintro _ _ ⟨⟩; exact .inl rfl) (modest_nil _)⟩
  | opened idle current => exact .single (Scheduler.launch_history ..) rfl nofun
  | asked still => exact .single (Scheduler.launch_history ..) rfl nofun
  | swept idle => exact .single (Scheduler.launch_history ..) rfl nofun
  | again runs => exact .nothing (Scheduler.askAgain_history ..)
  | lint set => exact .single (Scheduler.place_history ..) rfl nofun
  | queue wanted taken => exact .nothing (Scheduler.place_history ..)
  | compile wanted free => exact .single (Scheduler.place_history ..) rfl nofun
  | conclude done => exact conclude_adds ..
  | answer => exact .single rfl rfl nofun
  | refuse t => exact .single rfl rfl nofun
  | store path => exact .nothing (Scheduler.place_history ..)
  | await ids => exact .nothing (Scheduler.place_history ..)
  | spend => exact .nothing (Scheduler.place_history ..)
  | _ => exact .nothing rfl

theorem Begins.adds {s : Scheduler} {m : Moment} (b : Begins w allowed s m) :
    (∃ order r, allowed s r ∧ m = ⟨.heard s.fresh order r, s.heard order r⟩) ∨
    Adds ⟨.free, s⟩ m := by
  cases b with
  | hear order fine => exact .inl ⟨order, _, fine, rfl⟩
  | wait stands known early => exact .inr (.nothing (Scheduler.place_history ..))
  | lapse stands closed => exact .inr (.nothing (Scheduler.place_history ..))
  | wake stands known due current => exact .inr (.single (Scheduler.launch_history ..) rfl nofun)
  | promote stands => exact .inr (.single rfl rfl nofun)
  | lintFailed stands answer named => exact .inr (.single rfl rfl nofun)
  | lintLost stands answer unset =>
    refine .inr ⟨[_, _], Scheduler.endPass_history .., ?_⟩
    exact modest_cons rfl nofun (modest_single rfl nofun)
  | lock stands unlocked first => exact .inr (.single (Scheduler.place_history ..) rfl nofun)
  | compiled stands answer => exact .inr (.single rfl rfl nofun)
  | compileFailed stands answer =>
    exact .inr ⟨[_, _], rfl, modest_cons rfl nofun (modest_single rfl nofun)⟩
  | _ => exact .inr (.nothing rfl)

/-! ## Requests and the notes after them -/

/-- Inside an event no request comes in after its beginning. -/
def Unheard (notes : History) : Prop := ∀ x ∈ notes, x.2.request? = none

theorem Modest.unheard {documents : DocumentStore} {notes : History} (h : Modest documents notes) :
    Unheard notes := fun x mem => (h x mem).1

theorem Unheard.append {notes more : History} (h : Unheard notes) (h' : Unheard more) :
    Unheard (notes ++ more) := List.forall_mem_append.mpr ⟨h, h'⟩

theorem Going.unheard {m n : Moment} (g : Going w m n) :
    ∃ notes, n.history = notes ++ m.history ∧ Unheard notes := by
  induction g with
  | refl => exact ⟨[], rfl, nofun⟩
  | tail _ g ih =>
    obtain ⟨older, before, unheard⟩ := ih
    obtain ⟨notes, history, modest⟩ := g.adds
    refine ⟨notes ++ older, ?_, modest.unheard.append unheard⟩
    rw [history, before, List.append_assoc]

/-- A resumed task and the clock bring no request in. -/
theorem step_unheard {s : Scheduler} {e : Scheduler.Event}
    (unasked : ∀ order r, e ≠ .request order r) :
    ∃ notes, (s.step w e).history = notes ++ s.history ∧ Unheard notes := by
  have never : Permits (fun _ _ => False) s e := by
    cases e with
    | request order r => exact absurd rfl (unasked order r)
    | _ => trivial
  rcases event_moves (w := w) never with same | ⟨m, b, g⟩
  · exact ⟨[], by rw [same]; rfl, nofun⟩
  · obtain ⟨more, later, unheard'⟩ := Going.unheard g
    rcases b.adds with ⟨_, _, impossible, -⟩ | ⟨notes, history, modest⟩
    · exact impossible.elim
    · refine ⟨more ++ notes, ?_, unheard'.append modest.unheard⟩
      rw [List.append_assoc, ← history]
      exact later

/-- A request is noted first, and no other one while it is dealt with. -/
theorem receive_unheard (s : Scheduler) (order : Nat) (r : Request) :
    ∃ notes, (s.receive w order r).history = notes ++ (s.now, .received order r) :: s.history ∧
      Unheard notes := by
  have going : Going w ⟨.heard s.fresh order r, s.heard order r⟩ ⟨.free, s.receive w order r⟩ :=
    receive_moves
  obtain ⟨notes, history, unheard⟩ := going.unheard
  exact ⟨notes, by rw [← Scheduler.heard_history]; exact history, unheard⟩

/-- The first thing that is done when a document is closed is to publish the empty set for it. -/
theorem receive_closed (s : Scheduler) (order : Nat) (d : Document) :
    ∃ notes, (s.receive w order (.closed d)).history
      = notes ++ (s.now, .publish d.uri []) :: (s.now,
        .received order (.closed d)) :: s.history := by
  simp only [Scheduler.receive]
  split
  · exact ⟨[], by rw [Scheduler.place_history]; rfl⟩
  · next t _ => exact ⟨[(s.now, .refused order t.kind)], rfl⟩

/-- A note about a request is older than notes that bring none in. -/
theorem Unheard.split {notes rest later older : History} {t : Rat} {order : Nat} {r : Request}
    (unheard : Unheard notes) (told : notes ++ rest = later ++ (t, .received order r) :: older) :
    ∃ between, later = notes ++ between ∧ rest = between ++ (t, .received order r) :: older := by
  rcases List.append_eq_append_iff.mp told with ⟨between, rfl, split⟩ | ⟨more, rfl, split⟩
  · exact ⟨between, rfl, split⟩
  · cases more with
    | nil => exact ⟨[], by simp, by simpa using split.symm⟩
    | cons x more =>
      obtain ⟨rfl, -⟩ := List.cons.inj split
      cases unheard _ (List.mem_append_right _ (List.mem_cons_self ..))

/-- Whenever a document was closed, the empty set was published for it next. -/
theorem clears_of_closed {s : Scheduler} {events : List Scheduler.Event} (quiet : Unheard s.history)
    {later older : History} {t : Rat} {order : Nat} {d : Document}
    (told : (s.run w events).history = later ++ (t, .received order (.closed d)) :: older) :
    ∃ before t', later = before ++ [(t', .publish d.uri [])] := by
  -- The induction is on the last event: it brought the request in, or an earlier one did.
  induction events using List.reverseRecOn generalizing later with
  | nil =>
    have mem : (t, Note.received order (.closed d)) ∈ s.history := by
      rw [show s.history = _ from told]
      exact List.mem_append_right _ (List.mem_cons_self ..)
    cases quiet _ mem
  | append_singleton events e ih =>
    rw [Scheduler.run, List.foldl_append] at told
    have earlier : ∀ {notes between : History}, later = notes ++ between →
        (s.run w events).history = between ++ (t, .received order (.closed d)) :: older →
        ∃ before t', later = before ++ [(t', .publish d.uri [])] := by
      rintro notes between rfl split
      obtain ⟨before, t', rfl⟩ := ih split
      exact ⟨notes ++ before, t', by rw [List.append_assoc]⟩
    cases e with
    | request order' r =>
      obtain ⟨notes, history, unheard⟩ := receive_unheard (w := w) (s.run w events) order' r
      obtain ⟨between, rfl, split⟩ := unheard.split (history.symm.trans told)
      cases between with
      | nil =>
        obtain ⟨same, -⟩ := List.cons.inj split
        obtain ⟨-, rfl⟩ := Note.received.inj (Prod.mk.inj same).2
        obtain ⟨more, closed⟩ := receive_closed (w := w) (s.run w events) order' d
        refine ⟨more, (s.run w events).now, ?_⟩
        rw [history, ← List.singleton_append, List.append_cons more] at closed
        exact (List.append_nil notes).trans (List.append_cancel_right closed)
      | cons x between =>
        exact earlier (List.append_cons ..) (List.cons.inj split).2
    | clock time =>
      obtain ⟨notes, history, unheard⟩ := step_unheard (w := w) (s := s.run w events)
        (e := .clock time) nofun
      obtain ⟨between, same, split⟩ := unheard.split (history.symm.trans told)
      exact earlier same split
    | resume id =>
      obtain ⟨notes, history, unheard⟩ := step_unheard (w := w) (s := s.run w events)
        (e := .resume id) nofun
      obtain ⟨between, same, split⟩ := unheard.split (history.symm.trans told)
      exact earlier same split

/-! ## What is published for closed documents -/

/-- A set that is published is empty, or its document is open. -/
def Wanted (n : Note) (older : History) : Prop :=
  ∀ uri found, n = .publish uri found → found = [] ∨ (openAt older).has uri = true

theorem Unheard.openAt {notes : History} (unheard : Unheard notes) (h : History) :
    openAt (notes ++ h) = Schedule.openAt h := by
  induction notes with
  | nil => rfl
  | cons n notes ih =>
    obtain ⟨first, rest⟩ := List.forall_mem_cons.mp unheard
    obtain ⟨t, n⟩ := n
    cases n with
    | received order r => cases first
    | _ => exact ih rest

theorem Adds.wanted {m n : Moment} (adds : Adds m n) (recorded : Recorded m)
    (h : Each Wanted m.history) : Each Wanted n.history := by
  obtain ⟨notes, history, modest⟩ := adds
  rw [history]
  refine h.append fun x mem mid sub uri found same => ?_
  have unheard : Unheard mid := fun y inside => modest.unheard y (sub inside)
  rw [unheard.openAt, ← recorded.documents]
  exact (modest x mem).2 uri found same

theorem Move.wanted {m n : Moment} (move : Move w allowed m n) (recorded : Recorded m)
    (h : Each Wanted m.history) : Each Wanted n.history := by
  cases move with
  | goes g => exact g.adds.wanted recorded h
  | begins b =>
    rcases b.adds with ⟨order, r, -, rfl⟩ | adds
    · rw [Moment.history, Scheduler.heard_history]
      refine ⟨fun uri found published => ?_, h⟩
      cases published
    · exact adds.wanted recorded h

section Closed

variable {uri : Text} {later older : History}

/-- A closed document is not open before it is opened, edited or saved. -/
theorem not_has_of_untouched (closed : (openAt older).has uri = false)
    (untouched : ∀ n ∈ later, n.2.touches uri = false) :
    (openAt (later ++ older)).has uri = false := by
  induction later with
  | nil => exact closed
  | cons n later ih =>
    obtain ⟨first, rest⟩ := List.forall_mem_cons.mp untouched
    have before := ih rest
    have put : ∀ d : Document, d.uri ≠ uri → ((openAt (later ++ older)).put d).has uri = false := by
      intro d other
      rw [DocumentStore.has, DocumentStore.get?_put_other _ d other.symm]
      exact before
    obtain ⟨t, n⟩ := n
    cases n with
    | received order r =>
      cases r with
      | opened d => exact put d (of_decide_eq_false first)
      | changed d => exact put d (of_decide_eq_false first)
      | saved d => exact put d (of_decide_eq_false first)
      | closed d =>
        show ((openAt (later ++ older)).remove d.uri).has uri = false
        by_cases same : uri = d.uri
        · simp [DocumentStore.has, same]
        · exact (DocumentStore.has_remove_other same).trans before
      | _ => exact before
    | _ => exact before

/-- So nothing is published for it but the empty set. -/
theorem empty_of_untouched (wanted : Each Wanted (later ++ older))
    (closed : (openAt older).has uri = false) (untouched : ∀ n ∈ later, n.2.touches uri = false) :
    ∀ n ∈ later, ∀ found, n.2 = .publish uri found → found = [] := by
  induction later with
  | nil => exact nofun
  | cons n later ih =>
    obtain ⟨first, rest⟩ := List.forall_mem_cons.mp untouched
    refine List.forall_mem_cons.mpr ⟨fun found same => ?_, ih wanted.2 rest⟩
    refine (wanted.1 uri found same).resolve_right ?_
    simp [not_has_of_untouched closed rest]

/-- What is shown stays empty as long as nothing but the empty set is published. -/
theorem shown_empty (empty : shown w uri older = some [])
    (published : ∀ n ∈ later, ∀ found, n.2 = .publish uri found → found = []) :
    shown w uri (later ++ older) = some [] := by
  induction later with
  | nil => exact empty
  | cons n later ih =>
    obtain ⟨first, rest⟩ := List.forall_mem_cons.mp published
    obtain ⟨t, n⟩ := n
    cases n with
    | publish u found =>
      simp only [List.cons_append, shown]
      split
      · next taken => rw [first found (by rw [taken.1])]
      · exact ih rest
    | _ => exact ih rest

end Closed

/-! ## Runs -/

/-- Nothing was published yet. -/
def Unpublished (h : History) : Prop := ∀ n ∈ h, ∀ uri found, n.2 ≠ .publish uri found

theorem Unpublished.noted {s : Scheduler} {n : Note} (h : Unpublished s.history)
    (silent : ∀ uri found, n ≠ .publish uri found) : Unpublished (s.noted n).history :=
  List.forall_mem_cons.mpr ⟨silent, h⟩

theorem Unpublished.useLinter {s : Scheduler} (h : Unpublished s.history) (linter : Option Linter) :
    Unpublished (s.useLinter w linter).2.history := by
  unfold Scheduler.useLinter
  split
  · exact h
  · next l =>
    have ruled := h.noted (n := .rules (l.withRules s.settings.linterRules)) nofun
    dsimp only
    split
    · exact ruled
    · exact ruled

theorem start_unpublished (root : Option Text) (settings : Option ValidationSettings)
    (given : Option Linter) : Unpublished (Scheduler.start w root settings given).2.history := by
  have made : ∀ settings, Unpublished ({ root, settings : Scheduler }).history := fun _ => nofun
  unfold Scheduler.start Scheduler.applySettings
  dsimp only
  split
  · exact (made _).useLinter _
  · split
    · exact (made _).useLinter none
    · split
      · exact (made _).useLinter _
      · refine Unpublished.useLinter (Unpublished.noted (made _) ?_) none
        exact nofun
      · exact made _

theorem Unpublished.wanted {h : History} (silent : Unpublished h) : Each Wanted h := by
  rw [← List.append_nil h]
  exact Each.append trivial fun n mem _ _ uri found same => absurd same (silent n mem uri found)

/-- **A closed document stays clear.**  When a document is closed, the empty set is published for it
next.  From then on, whatever goes on for it, nothing but the empty set is published for it until it
is opened, edited or saved again; so if the publisher took the empty set, it shows the empty set. -/
theorem closed_stays_clear {root : Option Text} {settings : Option ValidationSettings}
    {given : Option Linter} {events : List Scheduler.Event} {newer later older : History} {t : Rat}
    {order : Nat} {d : Document}
    (told : ((Scheduler.start w root settings given).2.run w events).history
      = newer ++ (later ++ (t, .received order (.closed d)) :: older))
    (untouched : ∀ n ∈ later, n.2.touches d.uri = false) :
    (∃ before t', newer ++ later = before ++ [(t', .publish d.uri [])]) ∧
      (∀ n ∈ later, ∀ found, n.2 = .publish d.uri found → found = []) ∧
      (later ≠ [] → w.publish (older.length + 2) d.uri [] = none →
        shown w d.uri (later ++ (t, .received order (.closed d)) :: older) = some []) := by
  have blank := start_blank (w := w) root settings given
  have quiet : Unheard (Scheduler.start w root settings given).2.history :=
    fun n mem => (blank.plain n mem).request?
  obtain ⟨-, wanted⟩ := kept_run (fun m => Faithful w m ∧ Each Wanted m.history)
    (fun m n move kept => ⟨move.effect.faithful kept.1, move.wanted kept.1.recorded kept.2⟩)
    (Permitted.all w _ events) ⟨blank.faithful, (start_unpublished root settings given).wanted⟩
  rw [Moment.history, told] at wanted
  have clears : ∃ before t', newer ++ later = before ++ [(t', .publish d.uri [])] := by
    rw [← List.append_assoc] at told
    exact clears_of_closed quiet told
  have closed : (openAt ((t, .received order (.closed d)) :: older)).has d.uri = false := by
    simp [openAt, Request.store, DocumentStore.has]
  have empty := empty_of_untouched wanted.of_append closed untouched
  refine ⟨clears, empty, fun some taken => ?_⟩
  obtain ⟨before, t', split⟩ := clears
  -- The oldest of the notes after the closing is that of the empty set.
  obtain ⟨rest, x, rfl⟩ := List.eq_nil_or_concat later |>.resolve_left some
  rw [List.concat_eq_append, ← List.append_assoc] at split
  obtain rfl := List.singleton_inj.mp (List.append_inj' split rfl).2
  rw [List.concat_eq_append, List.append_assoc]
  refine shown_empty (if_pos ⟨rfl, taken⟩) fun n mem => empty n ?_
  rw [List.concat_eq_append]
  exact List.mem_append_left _ mem

/-! A document in which there is an error is edited, and closed while it is compiled. -/

/-- Surroundings in which the compiler finds an error in every document. -/
def Surroundings.strict : Surroundings :=
  { Surroundings.calm with
    compile := fun _ d =>
    .ok [{ fileName := d.basename, diagnostic := .at 0 0 1 [] .error [] none }] }

/-- The document that is closed. -/
def draft : Document := { uri := "a".toList, path := "/a".toList, text := [] }

/-- The run until the pass has ended that was in flight when the document was closed. -/
def abandoned : Scheduler := (Scheduler.start .strict none none none).2.run .strict
  [.request 0 (.opened draft), .resume 0, .request 1 (.changed draft), .clock 1500, .resume 3,
    .request 2 (.closed draft), .resume 3]

theorem draft_closed : abandoned.history
    = [] ++ (abandoned.history.take 3 ++
      (1500, .received 2 (.closed draft)) :: abandoned.history.drop 4) := by
  have here : abandoned.history.drop 3
      = (1500, .received 2 (.closed draft)) :: abandoned.history.drop 4 := by
    with_unfolding_all rfl
  rw [← here, List.take_append_drop, List.nil_append]

/-- The error was shown before the document was closed, and is not shown any more. -/
theorem draft_stays_clear :
    (shown .strict draft.uri (abandoned.history.drop 4)).map List.length = some 1 ∧
      shown .strict draft.uri abandoned.history = some [] := by
  have untouched : ∀ n ∈ abandoned.history.take 3, n.2.touches draft.uri = false := by
    decide +kernel
  have clear := (closed_stays_clear draft_closed untouched).2.2
    (List.ne_nil_of_length_pos (by decide +kernel)) rfl
  refine ⟨by decide +kernel, ?_⟩
  rw [draft_closed]
  exact clear

end ContractCheck.Schedule
