import ContractCheck.Import.Statement
import ContractCheck.Proofs.Text.Pieces
import Mathlib.Data.List.TakeDrop
import Mathlib.Data.List.TakeWhile

/-! # Import statements in a text

A text is scanned for import statements from the left.  Whether a statement starts at a place
depends on what stands there up to the second quote (`Opens`): up to the first one the keyword and a
clause, then a path.

`find` only tells the paths; here the statements are told as a whole (`statements`), so that more
can be said about them.
-/
namespace ContractCheck.Import

/-! ## Quotes -/

/-- No quote of either kind. -/
def Unquoted (t : Text) : Prop := ∀ c ∈ t, isQuote c = false

theorem Unquoted.append {t u : Text} (h : Unquoted t) (h' : Unquoted u) : Unquoted (t ++ u) :=
  List.forall_mem_append.mpr ⟨h, h'⟩

theorem unquoted_keyword : Unquoted keyword := Text.eq_false_of_any (by decide +kernel)

/-- A text has a first quote, or none. -/
theorem unquoted_or_quote (t : Text) :
    Unquoted t ∨ ∃ u q v, Unquoted u ∧ isQuote q = true ∧ t = u ++ q :: v := by
  induction t with
  | nil => exact .inl nofun
  | cons c r ih =>
    cases quote : isQuote c with
    | true => exact .inr ⟨[], c, r, nofun, quote, rfl⟩
    | false =>
      rcases ih with none | ⟨u, q, v, before, here, rfl⟩
      · exact .inl (List.forall_mem_cons.mpr ⟨quote, none⟩)
      · exact .inr ⟨c :: u, q, v, List.forall_mem_cons.mpr ⟨quote, before⟩, here, rfl⟩

section Span

variable {u : Text} (before : Unquoted u)
include before

theorem span_unquoted : u.span (fun c => !isQuote c) = (u, []) := by
  have all : ∀ c ∈ u, (!isQuote c) = true := fun c mem => by simp [before c mem]
  rw [List.span_eq_takeWhile_dropWhile, List.takeWhile_eq_self_iff.mpr all,
    List.dropWhile_eq_nil_iff.mpr all]

theorem span_quote {q : Char} (quote : isQuote q = true) (v : Text) :
    (u ++ q :: v).span (fun c => !isQuote c) = (u, q :: v) := by
  have all : ∀ c ∈ u, (!isQuote c) = true := fun c mem => by simp [before c mem]
  rw [List.span_eq_takeWhile_dropWhile, List.takeWhile_append_of_pos all,
    List.dropWhile_append_of_pos all]
  simp [quote]

/-- Texts that are the same have the same first quote. -/
theorem first_quote_unique {u' v v' : Text} {q q' : Char} (before' : Unquoted u')
    (quote : isQuote q = true) (quote' : isQuote q' = true) (same : u ++ q :: v = u' ++ q' :: v') :
    u = u' ∧ q = q' ∧ v = v' := by
  have spans := congrArg (List.span fun c => !isQuote c) same
  rw [span_quote before quote, span_quote before' quote'] at spans
  obtain ⟨rfl, rest⟩ := Prod.mk.inj spans
  obtain ⟨rfl, rfl⟩ := List.cons.inj rest
  exact ⟨rfl, rfl, rfl⟩

end Span

/-! ## Statements -/

/-- An import statement: what stands behind the keyword. -/
structure Statement where
  clause : Text
  quote : Char
  path : Text
  close : Char
deriving DecidableEq

/-- The statement as it is written. -/
def Statement.text (s : Statement) : Text :=
  keyword ++ (s.clause ++ s.quote :: (s.path ++ [s.close]))

theorem Statement.text_append (s : Statement) (rest : Text) :
    s.text ++ rest = keyword ++ s.clause ++ s.quote :: (s.path ++ s.close :: rest) := by
  simp [Statement.text]

/-- A statement as it is found: a clause, and a path between two quotes. -/
structure Statement.Sound (s : Statement) : Prop where
  clause : isClause s.clause = true
  unquoted : Unquoted s.clause
  quote : isQuote s.quote = true
  given : s.path ≠ []
  path : Unquoted s.path
  close : isQuote s.close = true

/-- The statement at the start of a text, and what follows it. -/
def statementAt? (t : Text) : Option (Statement × Text) :=
  if Text.startsWith t keyword then
    match opening? (t.drop keyword.length) with
    | some ⟨clause, quote, c :: p, close :: rest⟩ => some (⟨clause, quote, c :: p, close⟩, rest)
    | _ => none
  else none

/-- The statements in a text whose next `skip` characters belong to a statement already found. -/
def statementsFrom : Nat → Text → List Statement
  | _, [] => []
  | skip + 1, _ :: r => statementsFrom skip r
  | 0, c :: r =>
    match statementAt? (c :: r) with
    | some (s, rest) => s :: statementsFrom (r.length - rest.length) r
    | none => statementsFrom 0 r

/-- The import statements of a text. -/
def statements (content : Text) : List Statement := statementsFrom 0 content

/-! ## Where statements start -/

/-- What stands before the first quote when a statement starts: the keyword and a clause. -/
def Opens (u : Text) : Prop := ∃ clause, isClause clause = true ∧ u = keyword ++ clause

theorem opening?_unquoted {u : Text} (before : Unquoted u) : opening? u = none := by
  rw [opening?, span_unquoted before]

theorem opening?_quote {u v : Text} {q : Char} (before : Unquoted u) (quote : isQuote q = true) :
    opening? (u ++ q :: v)
      = if isClause u then some ⟨u, q, (v.span fun c => !isQuote c).1,
        (v.span fun c => !isQuote c).2⟩
        else none := by
  rw [opening?, span_quote before quote]

theorem unquoted_drop {u : Text} (before : Unquoted u) (k : Nat) : Unquoted (u.drop k) :=
  fun c mem => before c (List.mem_of_mem_drop mem)

/-- The keyword stands before the first quote. -/
theorem keyword_before {u v : Text} {q : Char} (quote : isQuote q = true)
    (found : Text.startsWith (u ++ q :: v) keyword = true) : ∃ clause, u = keyword ++ clause := by
  have found := Text.startsWith_iff.mp found
  rcases List.prefix_or_prefix_of_prefix found (List.prefix_append u (q :: v)) with short | long
  · obtain ⟨clause, rfl⟩ := short
    exact ⟨clause, rfl⟩
  · -- If the keyword went on behind the quote, it would have a quote in it.
    obtain ⟨more, same⟩ := long
    rw [← same] at found
    cases more with
    | nil => exact ⟨[], by rw [← same, List.append_nil, List.append_nil]⟩
    | cons c more =>
      have here : c = q := (List.cons_prefix_cons.mp ((List.prefix_append_right_inj u).mp found)).1
      have plain := unquoted_keyword q (by rw [← same, here]; simp)
      cases quote.symm.trans plain

/-- No statement starts where there is no quote. -/
theorem statementAt?_unquoted {t : Text} (none : Unquoted t) : statementAt? t = Option.none := by
  rw [statementAt?, opening?_unquoted (unquoted_drop none _)]
  split <;> rfl

/-- Where the keyword and a clause do not stand before the first quote, no statement starts. -/
theorem statementAt?_closed {u v : Text} {q : Char} (before : Unquoted u) (quote : isQuote q = true)
    (closed : ¬ Opens u) : statementAt? (u ++ q :: v) = none := by
  rw [statementAt?]
  split
  · next found =>
    obtain ⟨clause, rfl⟩ := keyword_before quote found
    have other : ¬ isClause clause = true := fun clauses => closed ⟨clause, clauses, rfl⟩
    have unquoted : Unquoted clause := fun c mem => before c (List.mem_append_right _ mem)
    rw [List.append_assoc, List.drop_left, opening?_quote unquoted quote, if_neg other]
  · rfl

/-- Behind the keyword, a clause and a quote, the next quote decides. -/
theorem statementAt?_opened {clause v : Text} {q : Char} (clauses : isClause clause = true)
    (unquoted : Unquoted clause) (quote : isQuote q = true) :
    statementAt? (keyword ++ clause ++ q :: v) =
      match v.span fun c => !isQuote c with
      | (c :: p, close :: rest) => some (⟨clause, q, c :: p, close⟩, rest)
      | _ => none := by
  have found : Text.startsWith (keyword ++ clause ++ q :: v) keyword = true := by
    rw [Text.startsWith_iff, List.append_assoc]
    exact List.prefix_append ..
  rw [statementAt?, if_pos found, List.append_assoc, List.drop_left, opening?_quote unquoted quote,
    if_pos clauses]
  rcases v.span fun c => !isQuote c with ⟨_ | ⟨c, p⟩, _ | ⟨close, rest⟩⟩ <;> rfl

/-- A statement is found where it stands. -/
theorem statementAt?_text {s : Statement} (sound : s.Sound) (rest : Text) :
    statementAt? (s.text ++ rest) = some (s, rest) := by
  obtain ⟨clause, quote, path, close⟩ := s
  obtain ⟨c, p, rfl⟩ := List.exists_cons_of_ne_nil sound.given
  rw [Statement.text_append, statementAt?_opened sound.clause sound.unquoted sound.quote,
    span_quote sound.path sound.close]

section NoPath

variable {u v : Text} {q : Char} (before : Unquoted u) (quote : isQuote q = true)
include before quote

/-- Between two quotes next to each other is no path. -/
theorem statementAt?_empty {q' : Char} (quote' : isQuote q' = true) :
    statementAt? (u ++ q :: q' :: v) = none := by
  by_cases opens : Opens u
  · obtain ⟨clause, clauses, rfl⟩ := opens
    rw [statementAt?_opened clauses (fun c mem => before c (List.mem_append_right _ mem)) quote,
      ← List.nil_append (q' :: v), span_quote (u := []) nofun quote']
  · exact statementAt?_closed before quote opens

/-- Behind the last quote is no path. -/
theorem statementAt?_unclosed (last : Unquoted v) : statementAt? (u ++ q :: v) = none := by
  by_cases opens : Opens u
  · obtain ⟨clause, clauses, rfl⟩ := opens
    rw [statementAt?_opened clauses (fun c mem => before c (List.mem_append_right _ mem)) quote,
      span_unquoted last]
    cases v <;> rfl
  · exact statementAt?_closed before quote opens

end NoPath

/-- No statement starts with a quote. -/
theorem statementAt?_quote {q : Char} (quote : isQuote q = true) (v : Text) :
    statementAt? (q :: v) = none := by
  refine statementAt?_closed (u := []) nofun quote ?_
  rintro ⟨clause, -, same⟩
  cases same

/-- At the start of a text there is no statement, or a statement as it is written. -/
theorem statementAt?_cases (t : Text) :
    statementAt? t = none ∨ ∃ s rest, Statement.Sound s ∧ t = s.text ++ rest := by
  rcases unquoted_or_quote t with plain | ⟨u, q, v, before, quote, rfl⟩
  · exact .inl (statementAt?_unquoted plain)
  · by_cases opens : Opens u
    · rcases unquoted_or_quote v with last | ⟨p, q', rest, path, quote', rfl⟩
      · exact .inl (statementAt?_unclosed before quote last)
      · cases p with
        | nil => exact .inl (statementAt?_empty before quote quote')
        | cons c p =>
          obtain ⟨clause, clauses, rfl⟩ := opens
          refine .inr ⟨⟨clause, q, c :: p, q'⟩, rest, ⟨clauses, ?_, quote, nofun, path, quote'⟩, ?_⟩
          · exact fun c mem => before c (List.mem_append_right _ mem)
          · rw [Statement.text_append]
    · exact .inl (statementAt?_closed before quote opens)

/-! ## Scanning -/

theorem statementsFrom_eq (skip : Nat) (t : Text) :
    statementsFrom skip t = statements (t.drop skip) := by
  induction t generalizing skip with
  | nil => cases skip <;> rfl
  | cons c r ih =>
    cases skip with
    | zero => rfl
    | succ skip => exact ih skip

/-- Where no statement starts, scanning goes on one character further. -/
theorem statements_cons {c : Char} {r : Text} (none : statementAt? (c :: r) = none) :
    statements (c :: r) = statements r := by
  rw [statements, statementsFrom, none]
  rfl

/-- Where a statement stands, scanning goes on behind it. -/
theorem statements_text {s : Statement} (sound : s.Sound) (rest : Text) :
    statements (s.text ++ rest) = s :: statements rest := by
  have here := statementAt?_text sound rest
  obtain ⟨c, tail, shape⟩ : ∃ c tail, s.text = c :: tail := ⟨_, _, rfl⟩
  rw [shape, List.cons_append] at here ⊢
  have behind : (tail ++ rest).drop ((tail ++ rest).length - rest.length) = rest := by
    rw [List.length_append, Nat.add_sub_cancel, List.drop_left]
  rw [statements, statementsFrom, here]
  dsimp only
  rw [statementsFrom_eq, behind]

theorem findFrom_eq (skip : Nat) (t : Text) :
    findFrom skip t = (statementsFrom skip t).map Statement.path := by
  induction t generalizing skip with
  | nil => cases skip <;> rfl
  | cons c r ih =>
    cases skip with
    | zero =>
      unfold findFrom statementsFrom
      rw [statementAt?, pathAt?]
      split
      · rcases opening? ((c :: r).drop keyword.length) with
          _ | ⟨clause, quote, _ | ⟨x, p⟩, _ | ⟨close, rest⟩⟩
        case some.cons.cons => exact congrArg _ (ih _)
        all_goals exact ih 0
      · exact ih 0
    | succ skip => exact ih skip

/-- What is found are the paths of the statements. -/
theorem find_eq (content : Text) : find content = (statements content).map Statement.path :=
  findFrom_eq 0 content

end ContractCheck.Import
