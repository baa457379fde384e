import ContractCheck.Proofs.Import.Cutting
import ContractCheck.Proofs.Import.Scanning

/-! # Marked texts scanned again

Marking changes a text only inside paths, so it leaves the places at which statements start where
they are: what decides about a place stands before the second quote behind it, and is changed by no
statement that starts later.  Where no statement is marked, none is when the marked text is read
again (`markableAt?_mark`); and when each statement is marked as it is found, the marked text has
the marked statements and no others (`statements_mark`).
-/
namespace ContractCheck.Import

variable {marker : Text} {dependencies : List Text}

/-! ## Marking statements -/

/-- A statement that is marked as it is found: its quotes match, and its path has a dot. -/
structure Statement.Markable (s : Statement) : Prop where
  matching : s.close = s.quote
  dot : '.' ∈ s.path

instance (s : Statement) : Decidable s.Markable :=
  decidable_of_iff (s.close = s.quote ∧ '.' ∈ s.path) ⟨fun h => ⟨h.1, h.2⟩, fun h => ⟨h.1, h.2⟩⟩

/-- The statement with its path marked. -/
def Statement.marked (marker : Text) (dependencies : List Text) (s : Statement) : Statement :=
  { s with path := markedPath marker dependencies s.path }

/-- A marker without quotes leaves a statement one that can be found. -/
theorem Statement.Sound.marked {s : Statement} (sound : s.Sound) (unquoted : Unquoted marker) :
    (s.marked marker dependencies).Sound where
  clause := sound.clause
  unquoted := sound.unquoted
  quote := sound.quote
  given := fun empty => sound.given (List.eq_nil_of_subset_nil (empty ▸ subset_markedPath s.path))
  path := fun c mem => (mem_markedPath mem).elim (unquoted c) (sound.path c)
  close := sound.close

theorem markFrom_eq (skip : Nat) (t : Text) :
    markFrom marker dependencies skip t = mark marker dependencies (t.drop skip) := by
  induction t generalizing skip with
  | nil => cases skip <;> rfl
  | cons c r ih =>
    cases skip with
    | zero => rfl
    | succ skip => exact ih skip

/-- The statement that is marked at the start of a text, and what follows it. -/
def markableAt? (t : Text) : Option (Statement × Text) :=
  (statementAt? t).filter fun found => found.1.Markable

theorem markableAt?_of_none {t : Text} (none : statementAt? t = none) :
    markableAt? t = Option.none := by
  rw [markableAt?, none]
  rfl

theorem markableAt?_text {s : Statement} (sound : s.Sound) (markable : s.Markable) (rest : Text) :
    markableAt? (s.text ++ rest) = some (s, rest) := by
  simp [markableAt?, statementAt?_text sound, Option.filter, markable]

theorem markableAt?_unmarkable {s : Statement} (sound : s.Sound) (unmarkable : ¬ s.Markable)
    (rest : Text) :
    markableAt? (s.text ++ rest) = none := by
  simp [markableAt?, statementAt?_text sound, Option.filter, unmarkable]

/-- At the start of a text there is no statement to mark, or one as it is written. -/
theorem markableAt?_cases (t : Text) :
    markableAt? t = none ∨ ∃ s rest, Statement.Sound s ∧ s.Markable ∧ t = s.text ++ rest := by
  rcases statementAt?_cases t with none | ⟨s, rest, sound, rfl⟩
  · exact .inl (markableAt?_of_none none)
  · by_cases markable : s.Markable
    · exact .inr ⟨s, rest, sound, markable, rfl⟩
    · exact .inl (markableAt?_unmarkable sound markable rest)

/-- Where no statement is marked, a character stays as it is. -/
theorem mark_cons {c : Char} {r : Text} (none : markableAt? (c :: r) = none) :
    mark marker dependencies (c :: r) = c :: mark marker dependencies r := by
  rw [mark, markFrom]
  split
  · next found =>
    rw [markableAt?, statementAt?, if_pos found] at none
    have unmarked : markAt? marker dependencies ((c :: r).drop keyword.length) = Option.none := by
      rw [markAt?]
      generalize opening? ((c :: r).drop keyword.length) = opened at none ⊢
      rcases opened with _ | ⟨clause, quote, _ | ⟨x, p⟩, _ | ⟨close, rest⟩⟩
      case some.cons.cons =>
        -- A statement stands here, with other quotes or without a dot in its path.
        have unmarkable : ¬ Statement.Markable ⟨clause, quote, x :: p, close⟩ := by
          simpa [Option.filter] using none
        dsimp only
        split
        · next same =>
          rw [cutModule?_dotless fun dot => unmarkable ⟨same, dot⟩]
        · rfl
      case some.nil.cons => by_cases same : close = quote <;> simp [same, cutModule?]
      all_goals rfl
    rw [unmarked, mark]
  · rfl

/-- A statement is marked where it stands, and marking goes on behind it. -/
theorem mark_text {s : Statement} (sound : s.Sound) (markable : s.Markable) (rest : Text) :
    mark marker dependencies (s.text ++ rest)
      = (s.marked marker dependencies).text ++ mark marker dependencies rest := by
  obtain ⟨directory, stem, tail, cut⟩ := exists_cut markable.dot
  have shape := s.text_append rest
  rw [List.append_assoc] at shape
  have found : Text.startsWith (s.text ++ rest) keyword = true :=
    Text.startsWith_iff.mpr (shape ▸ List.prefix_append ..)
  have here : markAt? marker dependencies ((s.text ++ rest).drop keyword.length)
      = some (s.clause ++ s.quote :: markedPath marker dependencies s.path ++ [s.close], rest) := by
    rw [shape, List.drop_left, markAt?, opening?_quote sound.unquoted sound.quote,
      if_pos sound.clause,
      span_quote sound.path sound.close]
    simp [markable.matching, cut.eq_some, markedPath]
  obtain ⟨c, tail, head⟩ : ∃ c tail, s.text = c :: tail := ⟨_, _, rfl⟩
  have behind : (tail ++ rest).drop ((tail ++ rest).length - rest.length) = rest := by
    rw [List.length_append, Nat.add_sub_cancel, List.drop_left]
  rw [head, List.cons_append] at found here ⊢
  rw [mark, markFrom, if_pos found, here]
  dsimp only
  rw [markFrom_eq, behind]
  simp [Statement.marked, Statement.text]

/-! ## What marking leaves alone -/

theorem mark_unquoted {t : Text} (none : Unquoted t) : mark marker dependencies t = t := by
  induction t with
  | nil => rfl
  | cons c r ih =>
    rw [mark_cons (markableAt?_of_none (statementAt?_unquoted none)),
      ih (List.forall_mem_cons.mp none).2]

/-- A quote that opens no statement to mark, whatever stands before it, is passed over. -/
theorem mark_past_quote {u v : Text} {q : Char} (before : Unquoted u)
    (none : ∀ u, Unquoted u → markableAt? (u ++ q :: v) = none) :
    mark marker dependencies (u ++ q :: v) = u ++ q :: mark marker dependencies v := by
  induction u with
  | nil => exact mark_cons (none [] nofun)
  | cons c u ih =>
    have here : markableAt? (c :: (u ++ q :: v)) = Option.none := none (c :: u) before
    rw [List.cons_append, mark_cons here, ih (List.forall_mem_cons.mp before).2, List.cons_append]

section FirstQuote

variable {u : Text} {q : Char} (before : Unquoted u) (quote : isQuote q = true)
include before quote

/-- The first quote stays where it is. -/
theorem mark_first_quote (marker : Text) (dependencies : List Text) (v : Text) :
    ∃ v', mark marker dependencies (u ++ q :: v) = u ++ q :: v' := by
  induction u with
  | nil => exact ⟨_, mark_cons (markableAt?_of_none (statementAt?_quote quote v))⟩
  | cons c u ih =>
    rcases markableAt?_cases (c :: (u ++ q :: v)) with none | ⟨s, rest, sound, markable, same⟩
    · obtain ⟨v', later⟩ := ih (List.forall_mem_cons.mp before).2
      exact ⟨v', by rw [List.cons_append, mark_cons none, later, List.cons_append]⟩
    · -- The first quote is the one that opens the statement.
      obtain ⟨front, open_, -⟩ :=
        first_quote_unique before (unquoted_keyword.append sound.unquoted) quote
        sound.quote (same.trans (s.text_append rest))
      refine ⟨markedPath marker dependencies s.path ++ s.close :: mark marker dependencies rest, ?_⟩
      rw [List.cons_append, same, mark_text sound markable, front, open_]
      simp [Statement.marked, Statement.text]

/-- Behind the last quote nothing is marked. -/
theorem mark_last_quote {v : Text} (last : Unquoted v) :
    mark marker dependencies (u ++ q :: v) = u ++ q :: v := by
  rw [mark_past_quote before fun u before =>
    markableAt?_of_none (statementAt?_unclosed before quote last),
    mark_unquoted last]

variable {p : Text} (path : Unquoted p) {q' : Char} (quote' : isQuote q' = true)
include path quote'

/-- Where a path has no dot, or other quotes around it, no statement is marked. -/
theorem markableAt?_between (bad : ¬ (q' = q ∧ '.' ∈ p)) (rest : Text) :
    markableAt? (u ++ q :: (p ++ q' :: rest)) = none := by
  by_cases opens : Opens u
  · obtain ⟨clause, clauses, rfl⟩ := opens
    by_cases empty : p = []
    · subst empty
      exact markableAt?_of_none (statementAt?_empty before quote quote')
    · have sound : Statement.Sound ⟨clause, q, p, q'⟩ :=
        ⟨clauses, fun c mem => before c (List.mem_append_right _ mem), quote, empty, path, quote'⟩
      have none := markableAt?_unmarkable sound (fun h => bad ⟨h.matching, h.dot⟩) rest
      rwa [Statement.text_append] at none
  · exact markableAt?_of_none (statementAt?_closed before quote opens)

/-- A path that has no dot, or other quotes around it, stays as it is up to its second quote. -/
theorem mark_between (bad : ¬ (q' = q ∧ '.' ∈ p)) (marker : Text) (dependencies : List Text)
    (rest : Text) :
    ∃ rest', mark marker dependencies (u ++ q :: (p ++ q' :: rest)) =
      u ++ q :: (p ++ q' :: rest') := by
  obtain ⟨rest', later⟩ := mark_first_quote path quote' marker dependencies rest
  refine ⟨rest', ?_⟩
  rw [mark_past_quote before fun u before => markableAt?_between before quote path quote' bad rest,
    later]

end FirstQuote

/-- Where no statement starts, none starts when the text is marked. -/
theorem statementAt?_mark {t : Text} (none : statementAt? t = none) :
    statementAt? (mark marker dependencies t) = Option.none := by
  rcases unquoted_or_quote t with plain | ⟨u, q, v, before, quote, rfl⟩
  · rw [mark_unquoted plain, none]
  · rcases unquoted_or_quote v with last | ⟨p, q', rest, path, quote', rfl⟩
    · rw [mark_last_quote before quote last, none]
    · by_cases empty : p = []
      · subst empty
        obtain ⟨rest', same⟩ :=
          mark_between before quote path quote' (fun good => nomatch good.2) marker
          dependencies rest
        rw [same]
        exact statementAt?_empty before quote quote'
      · have closed : ¬ Opens u := by
          rintro ⟨clause, clauses, rfl⟩
          have sound : Statement.Sound ⟨clause, q, p, q'⟩ :=
            ⟨clauses, fun c mem => before c (List.mem_append_right _ mem), quote, empty,
              path, quote'⟩
          have found := statementAt?_text sound rest
          rw [Statement.text_append] at found
          cases found.symm.trans none
        obtain ⟨v', same⟩ := mark_first_quote before quote marker dependencies (p ++ q' :: rest)
        rw [same]
        exact statementAt?_closed before quote closed

/-- Where no statement is marked, none is when the text is marked. -/
theorem markableAt?_mark {t : Text} (none : markableAt? t = none) :
    markableAt? (mark marker dependencies t) = Option.none := by
  rcases statementAt?_cases t with absent | ⟨s, rest, sound, rfl⟩
  · exact markableAt?_of_none (statementAt?_mark absent)
  · -- The statement that starts here is not marked, and keeps both its quotes.
    have bad : ¬ (s.close = s.quote ∧ '.' ∈ s.path) :=
      fun good => nomatch (markableAt?_text sound ⟨good.1, good.2⟩ rest).symm.trans none
    have before := unquoted_keyword.append sound.unquoted
    obtain ⟨rest', same⟩ :=
      mark_between before sound.quote sound.path sound.close bad marker dependencies rest
    rw [s.text_append, same]
    exact markableAt?_between before sound.quote sound.path sound.close bad rest'

/-! ## Statements of marked texts -/

/-- Whether all statements of a text are marked as they are found. -/
def AllMarkable (t : Text) : Prop := ∀ s ∈ statements t, s.Markable

theorem AllMarkable.cons {c : Char} {r : Text} (h : AllMarkable (c :: r))
    (none : statementAt? (c :: r) = none) :
    AllMarkable r := by
  rwa [AllMarkable, statements_cons none] at h

/-- **The statements of a marked text are the marked statements.** -/
theorem statements_mark (unquoted : Unquoted marker) {t : Text} (markable : AllMarkable t) :
    statements (mark marker dependencies t) =
      (statements t).map (Statement.marked marker dependencies) := by
  induction len : t.length using Nat.strongRecOn generalizing t with
  | _ n ih =>
    subst len
    rcases statementAt?_cases t with none | ⟨s, rest, sound, rfl⟩
    · cases t with
      | nil => rfl
      | cons c r =>
        have later : statementAt? (mark marker dependencies (c :: r)) = Option.none :=
          statementAt?_mark none
        rw [mark_cons (markableAt?_of_none none)] at later ⊢
        rw [statements_cons later, statements_cons none,
          ih r.length (by simp) (markable.cons none) rfl]
    · rw [AllMarkable, statements_text sound] at markable
      obtain ⟨here, rest'⟩ := List.forall_mem_cons.mp markable
      have shorter : rest.length < (s.text ++ rest).length := by simp [Statement.text]; omega
      rw [mark_text sound here, statements_text (sound.marked unquoted), statements_text sound,
        ih rest.length shorter rest' rfl, List.map_cons]

/-- **What is found in a marked text are the marked paths.** -/
theorem find_mark (unquoted : Unquoted marker) {content : Text} (markable : AllMarkable content) :
    find (mark marker dependencies content) =
      (find content).map (markedPath marker dependencies) := by
  rw [find_eq, statements_mark unquoted markable, find_eq, List.map_map, List.map_map]
  rfl

end ContractCheck.Import
