/-! # Texts

A text is its list of characters.  Paths, source texts, messages and reports are all texts, and
every rule that reads or changes one is a recursion on that list.

The operations here are the ones the whole library shares: replacing and joining, cutting at the
first or the last occurrence of a separator, and splitting at every occurrence.  Splitting is
leftmost and never overlaps, so the pieces and the separators alternate and joining the pieces
gives the text back (`join_splitOn`).
-/
namespace ContractCheck

/-- A text as the list of its characters. -/
abbrev Text := List Char

instance : Coe String Text := ⟨String.toList⟩

/-- What holds of every character of a text is decided character by character, and not over all
characters there are. -/
instance (priority := 2000) {p : Char → Prop} [DecidablePred p] (t : Text) :
    Decidable (∀ c ∈ t, p c) := List.decidableBAll p t

namespace Text

/-- The text of a string literal. -/
abbrev of (s : String) : Text := s.toList

/-- The string with these characters. -/
abbrev toStr (t : Text) : String := String.ofList t

/-- Whether `t` begins with `lead`. -/
def startsWith (t lead : Text) : Bool := lead.isPrefixOf t

/-- Whether `t` ends with `tail`. -/
def endsWith (t tail : Text) : Bool := tail.isSuffixOf t

/-- `t` without `tail` at its end, if it ends with it. -/
def dropTail (t tail : Text) : Text :=
  if endsWith t tail then t.take (t.length - tail.length) else t

/-- Drops the characters at the end that satisfy `p`. -/
def dropEndWhile (p : Char → Bool) (t : Text) : Text := (t.reverse.dropWhile p).reverse

/-- The pieces with `sep` between each two neighbours. -/
def join (sep : Text) : List Text → Text
  | [] => []
  | [p] => p
  | p :: q :: ps => p ++ sep ++ join sep (q :: ps)

/-- Puts a character in front of the first piece. -/
def consFirst (c : Char) : List Text → List Text
  | [] => [[c]]
  | p :: ps => (c :: p) :: ps

/-- The pieces of a text whose next `skip` characters belong to a separator already found. -/
def splitFrom (sep : Text) : Nat → Text → List Text
  | _, [] => [[]]
  | skip + 1, _ :: r => splitFrom sep skip r
  | 0, c :: r =>
    if startsWith (c :: r) sep then [] :: splitFrom sep (sep.length - 1) r
    else consFirst c (splitFrom sep 0 r)

/-- The pieces between the occurrences of `sep`, taken from the left without overlap.  The
separator must not be empty. -/
def splitOn (sep t : Text) : List Text := splitFrom sep 0 t

/-- The text with every occurrence of `old`, taken from the left without overlap, made `new`. -/
def replaceAll (old new t : Text) : Text := join new (splitOn old t)

/-- Whether `part` occurs in the text. -/
def containsText (part : Text) : Text → Bool
  | [] => part.isEmpty
  | c :: r => startsWith (c :: r) part || containsText part r

/-- What stands before and after the first `sep`. -/
def cutFirst (sep : Char) : Text → Option (Text × Text)
  | [] => none
  | c :: r =>
    if c = sep then some ([], r) else (cutFirst sep r).map fun p => (c :: p.1, p.2)

/-- What stands before and after the last character that satisfies `p`. -/
def cutLastWhere (p : Char → Bool) : Text → Option (Text × Text)
  | [] => none
  | c :: r =>
    match cutLastWhere p r with
    | some (a, b) => some (c :: a, b)
    | none => if p c then some ([], r) else none

/-- What stands before and after the last `sep`. -/
def cutLast (sep : Char) (t : Text) : Option (Text × Text) := cutLastWhere (· == sep) t

/-- The text in lower case, as far as the result can hold an ASCII letter: the two letters outside
ASCII whose lower case does are the dotted capital I and the kelvin sign. -/
def lower (t : Text) : Text :=
  t.flatMap fun c =>
    if c = '\u0130' then ['i', '\u0307'] else if c = '\u212a' then ['k'] else [c.toLower]

/-- The text padded with spaces at its end up to the width. -/
def padEnd (width : Nat) (t : Text) : Text := t ++ List.replicate (width - t.length) ' '

/-- A natural number in decimal digits. -/
def ofNat (n : Nat) : Text := (Nat.toDigits 10 n)

/-- An integer in decimal digits, with a minus sign below zero. -/
def ofInt : Int → Text
  | .ofNat n => ofNat n
  | .negSucc n => '-' :: ofNat (n + 1)

theorem splitFrom_ne_nil (sep : Text) (k : Nat) (t : Text) : splitFrom sep k t ≠ [] := by
  induction t generalizing k with
  | nil => cases k <;> simp [splitFrom]
  | cons c r ih =>
    cases k with
    | zero =>
      simp only [splitFrom]
      split
      · simp
      · cases h : splitFrom sep 0 r with
        | nil => exact absurd h (ih 0)
        | cons p ps => simp [consFirst]
    | succ k => exact ih k

theorem splitOn_ne_nil (sep t : Text) : splitOn sep t ≠ [] := splitFrom_ne_nil sep 0 t

theorem join_nil_cons {sep : Text} {ps : List Text} (h : ps ≠ []) :
    join sep ([] :: ps) = sep ++ join sep ps := by
  cases ps with
  | nil => exact absurd rfl h
  | cons p ps => simp [join]

theorem join_consFirst {sep : Text} (c : Char) {ps : List Text} (h : ps ≠ []) :
    join sep (consFirst c ps) = c :: join sep ps := by
  match ps, h with
  | [p], _ => rfl
  | p :: q :: ps, _ => simp [consFirst, join]

theorem join_splitFrom {sep : Text} (h : sep ≠ []) (k : Nat) (t : Text) :
    join sep (splitFrom sep k t) = t.drop k := by
  fun_induction splitFrom sep k t with
  | case1 => simp [join]
  | case2 k c r ih => simpa using ih
  | case3 c r found ih =>
    rw [join_nil_cons (splitFrom_ne_nil _ _ _), ih]
    obtain ⟨a, s, rfl⟩ := List.exists_cons_of_ne_nil h
    obtain ⟨u, hu⟩ := List.isPrefixOf_iff_prefix.1 found
    obtain ⟨rfl, rfl⟩ := List.cons.inj hu
    simp
  | case4 c r _ ih => rw [join_consFirst c (splitFrom_ne_nil _ _ _), ih]; simp

/-- **Splitting loses nothing.**  The pieces with the separator between them are the text. -/
theorem join_splitOn {sep : Text} (h : sep ≠ []) (t : Text) : join sep (splitOn sep t) = t :=
  join_splitFrom h 0 t

end Text
end ContractCheck
