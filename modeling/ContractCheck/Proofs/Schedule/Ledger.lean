import ContractCheck.Proofs.Schedule.Numbers

/-! # Reading the notes

Everything that is asked about a run can be read off its notes: which documents were open at a time
(`openAt`), and which passes were in flight (`inFlight`), that is, had begun and not ended.  Here
the notes are shown to tell the truth: the open documents are those in the store, and the passes in
flight are those that tasks are in (`Recorded`).  And every note stands for what it says
(`Truthful`).
-/
namespace ContractCheck.Schedule

/-- The open documents, according to the requests that came in. -/
def openAt : History → DocumentStore
  | [] => {}
  | (_, .received _ r) :: older => r.store (openAt older)
  | _ :: older => openAt older

/-- The passes that began and did not end. -/
def inFlight : History → List Pass
  | [] => []
  | (_, .began _ p) :: older => p :: inFlight older
  | (_, .ended p) :: older => (inFlight older).filter fun q => q ≠ p.start
  | _ :: older => inFlight older

/-- Whether every note is right, given the older ones. -/
def Each (right : Note → History → Prop) : History → Prop
  | [] => True
  | n :: older => right n.2 older ∧ Each right older

theorem Each.of_append {right : Note → History → Prop} {newer older : History}
    (h : Each right (newer ++ older)) : Each right older := by
  induction newer with
  | nil => exact h
  | cons n newer ih => exact ih h.2

theorem Each.append {right : Note → History → Prop} {notes older : History} (h : Each right older)
    (ok : ∀ n ∈ notes, ∀ mid, mid ⊆ notes → right n.2 (mid ++ older)) :
    Each right (notes ++ older) := by
  induction notes with
  | nil => exact h
  | cons n notes ih =>
    refine ⟨ok n (List.mem_cons_self ..) notes (List.subset_cons_self n notes), ih ?_⟩
    intro n' mem mid sub
    exact ok n' (List.mem_cons_of_mem _ mem) mid fun x inside => List.mem_cons_of_mem _ (sub inside)

theorem openAt_cons {t : Rat} {n : Note} (plain : n.Plain) (h : History) :
    openAt ((t, n) :: h) = openAt h := by
  cases n <;> first | rfl | exact plain.elim

theorem inFlight_cons {t : Rat} {n : Note} (plain : n.Plain) (h : History) :
    inFlight ((t, n) :: h) = inFlight h := by
  cases n <;> first | rfl | exact plain.elim

theorem openAt_append {notes : History} (plain : ∀ n ∈ notes, n.2.Plain) (h : History) :
    openAt (notes ++ h) = openAt h := by
  induction notes with
  | nil => rfl
  | cons n notes ih =>
    obtain ⟨first, rest⟩ := List.forall_mem_cons.mp plain
    exact (openAt_cons first _).trans (ih rest)

theorem inFlight_append {notes : History} (plain : ∀ n ∈ notes, n.2.Plain) (h : History) :
    inFlight (notes ++ h) = inFlight h := by
  induction notes with
  | nil => rfl
  | cons n notes ih =>
    obtain ⟨first, rest⟩ := List.forall_mem_cons.mp plain
    exact (inFlight_cons first _).trans (ih rest)

theorem Request.store_distinct (r : Request) {documents : DocumentStore} (h : documents.Distinct) :
    (r.store documents).Distinct := by
  cases r with
  | opened d => exact h.put d
  | changed d => exact h.put d
  | saved d => exact h.put d
  | closed d => exact h.remove d.uri
  | validate d => exact h
  | validateAll => exact h
  | configure settings => exact h
  | waitIdle => exact h

/-- No document is open twice. -/
theorem openAt_distinct (h : History) : (openAt h).Distinct := by
  induction h with
  | nil => exact .empty
  | cons n older ih =>
    obtain ⟨t, n⟩ := n
    cases n with
    | received order r => exact r.store_distinct ih
    | _ => exact ih

theorem Outcome.plain {w : Surroundings} {documents : DocumentStore} {p : Pass}
    {older notes : History}
    (h : Outcome w documents p older notes) : ∀ n ∈ notes, n.2.Plain ∧ n.2.subject? = none := by
  rcases h with ⟨-, rfl⟩ | ⟨-, t, t', message, rfl⟩ | told
  · exact nofun
  · simp [Note.Plain, Note.subject?]
  · cases told with
    | publishing answer => simp [Note.Plain, Note.subject?]
    | linting answer => simp [Note.Plain, Note.subject?]

variable {w : Surroundings} {allowed : Scheduler → Request → Prop}

/-- Moves only add notes, and none but the newest of them is about a request or the beginning or end
of a pass. -/
theorem Effect.extends {m n : Moment} (e : Effect w allowed m n) :
    ∃ notes, n.history = notes ++ m.history ∧ ∀ x ∈ notes.tail, x.2.Plain := by
  cases e with
  | quiet notes history plain documents state pass pause sweeps fresh lives heard =>
    exact ⟨notes, history, fun x mem => (plain x (List.mem_of_mem_tail mem)).1⟩
  | hear fine => exact ⟨[_], Scheduler.heard_history .., nofun⟩
  | lapse stands closed => exact ⟨[], Scheduler.place_history .., nofun⟩
  | launch ready => exact ⟨[_], Scheduler.launch_history .., nofun⟩
  | @finish _ s id p next notes holds follows turn outcome told =>
    refine ⟨(s.now, .ended p) :: notes, ?_, fun x mem => (outcome.plain x mem).1⟩
    rw [Moment.history, Scheduler.endPass_history, told]
    rfl
  | again runs => exact ⟨[], Scheduler.askAgain_history .., nofun⟩
  | list => exact ⟨[], rfl, nofun⟩

/-! ## The notes and the scheduler -/

/-- The notes tell which documents are in the store and which passes tasks are in. -/
structure Recorded (m : Moment) : Prop where
  documents : m.scheduler.documents = openAt m.history
  flying : ∀ p, p ∈ inFlight m.history ↔ ∃ id q, m.pass? id = some q ∧ q.start = p
  distinct : ∀ id id' p p', m.pass? id = some p → m.pass? id' = some p' →
    p.number = p'.number → id = id'
  bounded : ∀ id p, m.pass? id = some p → p.number < m.history.length

/-- A pass is in flight before and after a move alike. -/
theorem flying_of_pass {m n : Moment}
    (pass : ∀ id, (n.pass? id).map Pass.start = (m.pass? id).map Pass.start) {id : Nat} {p : Pass}
    (holds : n.pass? id = some p) : ∃ q, m.pass? id = some q ∧ q.start = p.start := by
  have same := pass id
  rw [holds] at same
  exact Option.map_eq_some_iff.mp same.symm

theorem Recorded.quiet {m n : Moment} (h : Recorded m) (notes : History)
    (history : n.history = notes ++ m.history) (plain : ∀ x ∈ notes, x.2.Plain)
    (documents : n.scheduler.documents = m.scheduler.documents)
    (pass : ∀ id, (n.pass? id).map Pass.start = (m.pass? id).map Pass.start) : Recorded n where
  documents := by rw [documents, h.documents, history, openAt_append plain]
  flying p := by
    rw [history, inFlight_append plain, h.flying]
    constructor
    · rintro ⟨id, q, holds, rfl⟩
      obtain ⟨q', holds', same⟩ := flying_of_pass (fun id => (pass id).symm) holds
      exact ⟨id, q', holds', same⟩
    · rintro ⟨id, q, holds, rfl⟩
      obtain ⟨q', holds', same⟩ := flying_of_pass pass holds
      exact ⟨id, q', holds', same⟩
  distinct id id' p p' holds holds' number := by
    obtain ⟨q, before, same⟩ := flying_of_pass pass holds
    obtain ⟨q', before', same'⟩ := flying_of_pass pass holds'
    refine h.distinct id id' q q' before before' ?_
    rw [← Pass.start_number q, same, ← Pass.start_number q', same']
    exact number
  bounded id p holds := by
    obtain ⟨q, before, same⟩ := flying_of_pass pass holds
    have old := h.bounded id q before
    rw [← Pass.start_number q, same, Pass.start_number] at old
    rw [history, List.length_append]
    omega

theorem Recorded.launch {m : Moment} {id : Nat} {starter : Starter} {d : Document}
    {next : Following} (h : Recorded m) (ready : Ready m id starter d next) :
    Recorded ⟨.pass id .begun (m.scheduler.launch starter d).1 next,
      (m.scheduler.launch starter d).2⟩ := by
  have number : (m.scheduler.launch starter d).1.number = m.history.length := by
    rw [Scheduler.launch_fst]
  have bare : (m.scheduler.launch starter d).1.start = (m.scheduler.launch starter d).1 := by
    rw [Scheduler.launch_fst]
    rfl
  refine ⟨?_, fun p => ?_, fun x x' p p' holds holds' same => ?_, fun x p holds => ?_⟩
  · simp only [Moment.history, Scheduler.launch_history, Scheduler.launch_documents]
    exact h.documents
  · simp only [Moment.history, Scheduler.launch_history, inFlight, List.mem_cons, h.flying]
    constructor
    · rintro (rfl | ⟨x, q, holds, rfl⟩)
      · exact ⟨id, _, (launch_pass? ready id).trans (if_pos rfl), bare⟩
      · have other : x ≠ id := by
          rintro rfl
          cases ready.no_pass.symm.trans holds
        exact ⟨x, q, by rw [launch_pass? ready, if_neg other, holds], rfl⟩
    · rintro ⟨x, q, holds, rfl⟩
      rw [launch_pass? ready] at holds
      split at holds
      · obtain rfl := Option.some.inj holds
        exact .inl bare
      · exact .inr ⟨x, q, holds, rfl⟩
  · rw [launch_pass? ready] at holds holds'
    split at holds
    · next mine =>
      obtain rfl := Option.some.inj holds
      -- A pass that begins has a number that no pass in flight has.
      split at holds'
      · next mine' => exact mine.trans mine'.symm
      · have old := h.bounded x' p' holds'
        omega
    · split at holds'
      · obtain rfl := Option.some.inj holds'
        have old := h.bounded x p holds
        omega
      · exact h.distinct x x' p p' holds holds' same
  · rw [launch_pass? ready] at holds
    simp only [Moment.history, Scheduler.launch_history, List.length_cons]
    split at holds
    · obtain rfl := Option.some.inj holds
      exact number ▸ Nat.lt_succ_self _
    · have old := h.bounded x p holds
      exact Nat.lt_succ_of_lt old

theorem Recorded.finish {m : Moment} {s : Scheduler} {id : Nat} {p : Pass} {next : Following}
    {notes : History} (h : Recorded m) (numbered : Numbered m) (holds : m.pass? id = some p)
    (turn : m.Turn id) (plain : ∀ x ∈ notes, x.2.Plain)
    (told : s = { m.scheduler with history := notes ++ m.history }) :
    Recorded ⟨.task id next, s.endPass p⟩ := by
  have history : (s.endPass p).history = (s.now, .ended p) :: (notes ++ m.history) := by
    rw [Scheduler.endPass_history, told]
  have pass := finish_pass? p next numbered turn told
  refine ⟨?_, fun q => ?_, fun x x' q q' holds holds' same => ?_, fun x q holds => ?_⟩
  · rw [Moment.history, history, Scheduler.endPass_documents, told]
    exact h.documents.trans (openAt_append plain m.history).symm
  · simp only [Moment.history, history, inFlight, inFlight_append plain, List.mem_filter, h.flying,
      decide_eq_true_eq]
    constructor
    · rintro ⟨⟨x, q', holds', rfl⟩, other⟩
      have ne : x ≠ id := by
        rintro rfl
        exact other (congrArg Pass.start (Option.some.inj (holds'.symm.trans holds)))
      exact ⟨x, q', by rw [pass, if_neg ne, holds'], rfl⟩
    · rintro ⟨x, q', holds', rfl⟩
      rw [pass] at holds'
      split at holds'
      · cases holds'
      · next ne =>
        -- Passes are told apart by their numbers, so only the one that ends leaves.
        refine ⟨⟨x, q', holds', rfl⟩, fun same => ne ?_⟩
        have number : q'.start.number = p.start.number := congrArg Pass.number same
        exact h.distinct x id q' p holds' holds number
  · rw [pass] at holds holds'
    split at holds
    · cases holds
    · split at holds'
      · cases holds'
      · exact h.distinct x x' q q' holds holds' same
  · rw [pass] at holds
    split at holds
    · cases holds
    · have old := h.bounded x q holds
      simp only [Moment.history, history, List.length_cons, List.length_append]
      exact Nat.lt_succ_of_lt (Nat.lt_of_lt_of_le old (Nat.le_add_left _ _))

theorem Effect.recorded {m n : Moment} (e : Effect w allowed m n) (numbered : Numbered m)
    (h : Recorded m) : Recorded n := by
  cases e with
  | quiet notes history plain documents state pass pause sweeps fresh lives heard =>
    exact h.quiet notes history (fun x mem => (plain x mem).1) documents pass
  | @hear s order r fine =>
    have pass := hear_pass? order r numbered
    refine ⟨?_, fun p => ?_, fun x x' p p' holds holds' same => ?_, fun x p holds => ?_⟩
    · rw [Moment.history, Scheduler.heard_history, Scheduler.heard_documents]
      exact congrArg r.store h.documents
    · rw [Moment.history, Scheduler.heard_history]
      simp only [pass]
      exact h.flying p
    · rw [pass] at holds holds'
      exact h.distinct x x' p p' holds holds' same
    · rw [pass] at holds
      rw [Moment.history, Scheduler.heard_history]
      exact Nat.lt_succ_of_lt (h.bounded x p holds)
  | @lapse s id uri wake stands closed =>
    refine h.quiet [] ?_ nofun ?_ fun x => ?_
    · exact Scheduler.place_history s id .spent
    · exact Scheduler.place_documents s id .spent
    · rw [lapse_pass? stands]
  | launch ready => exact h.launch ready
  | finish notes holds follows turn outcome told =>
    exact h.finish numbered holds turn (fun x mem => (outcome.plain x mem).1) told
  | @again s id order d runs =>
    refine h.quiet [] ?_ nofun ?_ fun x => ?_
    · exact Scheduler.askAgain_history s d.uri
    · exact Scheduler.askAgain_documents s d.uri
    · rw [again_pass?]
  | list => exact h.quiet [] rfl nofun rfl fun _ => rfl

/-! ## Each note stands for what it says -/

/-- A note about a pass is right: the pass has a new number when it begins, is at work on its
document, and has an outcome when it ends. -/
def Truthful (w : Surroundings) (n : Note) (older : History) : Prop :=
  match n with
  | .began _ p => p.number = older.length ∧ p.found = []
  | .lint _ d | .compile d _ _ _ => ∃ p ∈ inFlight older, p.document = d
  | .ended p => p.start ∈ inFlight older ∧
      ∃ notes before, older = notes ++ before ∧ Outcome w (openAt before) p before notes
  | _ => True

theorem truthful_plain {n : Note} {older : History} (plain : n.Plain)
    (work : ∀ d, n.subject? = some d → ∃ p ∈ inFlight older, p.document = d) :
    Truthful w n older := by
  cases n with
  | lint l d => exact work d rfl
  | compile d root dependencies contracts => exact work d rfl
  | began starter p => exact plain.elim
  | ended p => exact plain.elim
  | _ => trivial

theorem truthful_append {notes older : History} (h : Each (Truthful w) older)
    (plain : ∀ n ∈ notes, n.2.Plain)
    (work : ∀ n ∈ notes, ∀ d, n.2.subject? = some d → ∃ p ∈ inFlight older, p.document = d) :
    Each (Truthful w) (notes ++ older) := by
  refine h.append fun n mem mid sub => truthful_plain (plain n mem) fun d subject => ?_
  rw [inFlight_append fun x inside => plain x (sub inside)]
  exact work n mem d subject

theorem Effect.truthful {m n : Moment} (e : Effect w allowed m n) (r : Recorded m)
    (h : Each (Truthful w) m.history) : Each (Truthful w) n.history := by
  cases e with
  | quiet notes history plain documents state pass pause sweeps fresh lives heard =>
    rw [history]
    refine truthful_append h (fun x mem => (plain x mem).1) fun x mem d subject => ?_
    obtain ⟨id, p, holds, rfl⟩ := (plain x mem).2 d subject
    exact ⟨p.start, (r.flying _).mpr ⟨id, p, holds, rfl⟩, rfl⟩
  | @hear s order request fine =>
    rw [Moment.history, Scheduler.heard_history]
    exact ⟨trivial, h⟩
  | lapse stands closed =>
    rw [Moment.history, Scheduler.place_history]
    exact h
  | launch ready =>
    rw [Moment.history, Scheduler.launch_history, Scheduler.launch_fst]
    exact ⟨⟨rfl, rfl⟩, h⟩
  | @finish _ s id p next notes holds follows turn outcome told =>
    have history : (s.endPass p).history = (s.now, .ended p) :: (notes ++ m.history) := by
      rw [Scheduler.endPass_history, told]
    rw [Moment.history, history]
    have plain : ∀ x ∈ notes, x.2.Plain := fun x mem => (outcome.plain x mem).1
    -- What comes of the pass depends on the store, which the notes tell.
    refine ⟨⟨?_, notes, m.history, rfl, r.documents ▸ outcome⟩, truthful_append h plain ?_⟩
    · rw [inFlight_append plain]
      exact (r.flying _).mpr ⟨id, p, holds, rfl⟩
    · intro x mem d subject
      cases (outcome.plain x mem).2.symm.trans subject
  | again runs =>
    rw [Moment.history, Scheduler.askAgain_history]
    exact h
  | list => exact h

/-- What the notes tell is true at a moment. -/
structure Faithful (w : Surroundings) (m : Moment) : Prop where
  numbered : Numbered m
  recorded : Recorded m
  truthful : Each (Truthful w) m.history

theorem Effect.faithful {m n : Moment} (e : Effect w allowed m n) (h : Faithful w m) :
    Faithful w n where
  numbered := e.numbered h.numbered
  recorded := e.recorded h.numbered h.recorded
  truthful := e.truthful h.recorded h.truthful

/-- Surroundings in which everything succeeds and nothing is found. -/
def Surroundings.calm : Surroundings where
  linter _ _ _ := .unavailable []
  setRules _ _ := none
  lint _ _ _ := .ok []
  compile _ _ := .ok []
  publish _ _ _ := none
  promote _ _ := none

/-- A scheduler to which nothing happened yet. -/
structure Blank (s : Scheduler) : Prop where
  documents : s.documents = {}
  states : s.states = []
  tasks : s.tasks = []
  quiet : Quiet ⟨.free, s⟩ s.history

theorem Blank.noted {s : Scheduler} {n : Note} (h : Blank s) (plain : n.Plain)
    (none : n.subject? = none) :
    Blank (s.noted n) :=
  ⟨h.documents, h.states, h.tasks,
    List.forall_mem_cons.mpr ⟨⟨plain, fun d some => by simp [none] at some⟩, h.quiet⟩⟩

theorem Blank.useLinter {s : Scheduler} (h : Blank s) (linter : Option Linter) :
    Blank (s.useLinter w linter).2 := by
  unfold Scheduler.useLinter
  split
  · exact ⟨h.documents, h.states, h.tasks, h.quiet⟩
  · next l =>
    have ruled := h.noted (n := .rules (l.withRules s.settings.linterRules)) trivial rfl
    dsimp only
    split
    · exact ⟨ruled.documents, ruled.states, ruled.tasks, ruled.quiet⟩
    · exact ⟨ruled.documents, ruled.states, ruled.tasks, ruled.quiet⟩

/-- A scheduler that was just made is blank. -/
theorem start_blank (root : Option Text) (settings : Option ValidationSettings)
    (given : Option Linter) :
    Blank (Scheduler.start w root settings given).2 := by
  have made : ∀ settings, Blank { root, settings : Scheduler } := fun _ => ⟨rfl, rfl, rfl, nofun⟩
  unfold Scheduler.start Scheduler.applySettings
  dsimp only
  split
  · exact (made _).useLinter _
  · split
    · exact (made _).useLinter none
    · split
      · exact (made _).useLinter _
      · refine Blank.useLinter (Blank.noted (made _) ?_ ?_) none
        · exact trivial
        · rfl
      · exact made _

theorem Blank.point? {s : Scheduler} (h : Blank s) (id : Nat) : s.point? id = none := by
  simp [Scheduler.point?, h.tasks]

theorem Blank.pass? {s : Scheduler} (h : Blank s) (id : Nat) :
    Moment.pass? ⟨.free, s⟩ id = none := by
  simp [pass?_free, h.point?]

theorem Blank.plain {s : Scheduler} (h : Blank s) : ∀ n ∈ s.history, n.2.Plain :=
  fun n mem => (h.quiet n mem).1

theorem Blank.faithful {s : Scheduler} (h : Blank s) : Faithful w ⟨.free, s⟩ := by
  have store : openAt (s.history ++ []) = openAt [] := openAt_append h.plain []
  have passes : inFlight (s.history ++ []) = inFlight [] := inFlight_append h.plain []
  rw [List.append_nil] at store passes
  have bare : Each (Truthful w) (s.history ++ []) := by
    refine truthful_append trivial h.plain fun n mem d subject => ?_
    obtain ⟨id, p, holds, -⟩ := (h.quiet n mem).2 d subject
    cases (h.pass? id).symm.trans holds
  rw [List.append_nil] at bare
  refine ⟨.free s h.tasks, ⟨h.documents.trans store.symm, fun p => ?_, ?_, ?_⟩, bare⟩
  · simp [passes, inFlight, h.pass?]
  · exact fun id id' p p' holds => nomatch (h.pass? id).symm.trans holds
  · exact fun id p holds => nomatch (h.pass? id).symm.trans holds

/-- **What every move keeps while the notes are true holds after every run.** -/
theorem invariant_run (Kept : Moment → Prop) {s : Scheduler} {events : List Scheduler.Event}
    (step : ∀ m n, Effect w allowed m n → Faithful w m → Kept m → Kept n) (blank : Blank s)
    (start : Kept ⟨.free, s⟩) (may : Permitted w allowed s events) :
    Faithful w ⟨.free, s.run w events⟩ ∧ Kept ⟨.free, s.run w events⟩ := by
  refine kept_run (fun m => Faithful w m ∧ Kept m) ?_ may ⟨blank.faithful, start⟩
  intro m n move ⟨faithful, kept⟩
  exact ⟨move.effect.faithful faithful, step m n move.effect faithful kept⟩

end ContractCheck.Schedule
