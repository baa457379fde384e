import ContractCheck.Proofs.Toml.Values
import ContractCheck.Proofs.Text.Separators
import Mathlib

/-! # Documents that are read as they were written

A document of tables has one line for each header, one for each key with its value, and an empty
line behind each table.  Read line by line, the draft holds the tables that are done and the one
under construction, so that in the end it holds all of them, in their order (`read_tables`).
-/
namespace ContractCheck.Toml

variable {d d' : Draft} {fuel : Nat} {k name t : Text} {v : Value}

/-- A key that may stand without quotes. -/
structure Bare (k : Text) : Prop where
  given : k ≠ []
  plain : ∀ c ∈ k, isBare c = true

instance (k : Text) : Decidable (Bare k) :=
  decidable_of_iff (k ≠ [] ∧ ∀ c ∈ k, isBare c = true) ⟨fun h => ⟨h.1, h.2⟩,
    fun h => ⟨h.given, h.plain⟩⟩

/-- The line of a header. -/
def headerLine (name : Text) : Text := '[' :: name ++ [']']

/-- The line of a key with its value. -/
def entryLine (f : Text × Value) : Text := f.1 ++ " = ".toList ++ writeValue f.2

/-- The lines of a table. -/
def tableLines (s : Text × Fields) : List Text := headerLine s.1 :: s.2.map entryLine ++ [[]]

/-! ## Reading a line -/

/-- A character that a statement may start with. -/
theorem isBare_other {c : Char} (bare : isBare c = true) : c ∉ [' ', '\t', '\n', '#', '['] := by
  have none : ∀ l : List Char, l.all (fun d => !isBare d) = true → c ∉ l := fun l none mem => by
    have := List.all_eq_true.mp none c mem
    rw [bare] at this
    cases this
  exact none _ (by decide)

theorem Bare.head (h : Bare k) : ∃ c r, k = c :: r ∧ c ∉ [' ', '\t', '\n', '#', '['] := by
  obtain ⟨c, r, rfl⟩ := List.exists_cons_of_ne_nil h.given
  exact ⟨c, r, rfl, isBare_other (h.plain c List.mem_cons_self)⟩

theorem readKey_bare {n : Nat} (h : Bare k) {c e : Char} (stops : isBare c = false)
    {r s : Text} (shape : skipSpace (c :: r) = e :: s)
    (single : e ≠ '.') : readKey (n + 1) (k ++ c :: r) = .ok ([k], e :: s) :=
  readKey_of_part (readKeyPart_bare h.plain h.given stops r) shape single

/-- A header is read. -/
theorem readStatement_header (h : Bare name) (opened : d.openTable [name] = .ok d') (r : Text) :
    readStatement d (headerLine name ++ r) = .ok (d', r) := by
  obtain ⟨c, s, head, other⟩ := h.head
  have firm : Firm (name ++ ']' :: r) :=
    head ▸ firm_cons (fun mem => other (by revert mem; simp; tauto)) _
  have key := readKey_bare (n := (name ++ ']' :: r).length) h (c := ']') (by decide) (r := r)
    rfl (by decide)
  have shape : headerLine name ++ r = '[' :: (name ++ ']' :: r) := by simp [headerLine]
  rw [shape]
  unfold readStatement
  split
  · next same =>
    rw [head] at same
    obtain rfl := (List.cons.inj (List.cons.inj same).2).1
    exact absurd (by decide) other
  · next same =>
    obtain rfl := (List.cons.inj same).2
    rw [firm.skipSpace, key]
    dsimp only [bind, Except.bind]
    rw [opened]
    rfl
  · next other => exact absurd rfl (other _)

/-- A key with its value is read. -/
theorem readStatement_entry (h : Bare k) (writable : Writable v)
    (inserted : d.insert [k] v = .ok d') {r : Text}
    (ends : Ends r) : readStatement d (entryLine (k, v) ++ r) = .ok (d', r) := by
  obtain ⟨c, s, head, other⟩ := h.head
  have shape : entryLine (k, v) ++ r = k ++ ' ' :: '=' :: ' ' :: (writeValue v ++ r) := by
    simp [entryLine]
  have key := readKey_bare (n := (entryLine (k, v) ++ r).length) h (c := ' ') (by decide)
    (r := '=' :: ' ' :: (writeValue v ++ r)) rfl (by decide)
  have blank : skipSpace (' ' :: (writeValue v ++ r)) = writeValue v ++ r :=
    ((starts_writeValue writable).append r).firm.skipSpace
  have read := readValue_write (n := (' ' :: (writeValue v ++ r)).length + 1) v writable ends
    (by simp only [List.length_cons, List.length_append]; omega)
  rw [← shape] at key
  unfold readStatement
  split
  · next same =>
    rw [shape, head] at same
    obtain rfl := (List.cons.inj same).1
    exact absurd (by decide) other
  · next same =>
    rw [shape, head] at same
    obtain rfl := (List.cons.inj same).1
    exact absurd (by decide) other
  · rw [key]
    show (readValue _ (skipSpace (' ' :: (writeValue v ++ r))) >>= _) = _
    rw [blank, read]
    show (d.insert [k] v >>= _) = _
    rw [inserted]
    rfl

/-- A line with a statement is read, and then the lines below it. -/
theorem readStatements_line {c : Char} {line : Text} (other : c ∉ [' ', '\t', '\n', '#']) {r : Text}
    (read : readStatement d (c :: line ++ '\n' :: r) = .ok (d', '\n' :: r)) :
    readStatements (fuel + 1) d (c :: line ++ '\n' :: r) = readStatements fuel d' r := by
  have firm : skipSpace (c :: line ++ '\n' :: r) = c :: (line ++ '\n' :: r) :=
    (firm_cons other _).skipSpace
  have plain : (c == '#') = false :=
    beq_false_of_ne fun same => by subst same; exact absurd (by decide) other
  rw [readStatements, firm]
  split
  · next same => cases same
  · next same =>
    rw [(List.cons.inj same).1] at other
    exact absurd (by decide) other
  · next same =>
    obtain ⟨rfl, rfl⟩ := List.cons.inj same
    rw [plain, if_neg Bool.false_ne_true]
    rw [← List.cons_append, read]
    rfl

theorem readStatements_blank (r : Text) :
    readStatements (fuel + 1) d ('\n' :: r) = readStatements fuel d r := rfl

/-! ## Tables under construction -/

/-- The draft of tables that are done. -/
def drafted (ss : List (Text × Fields)) : Children :=
  ss.map fun s => (s.1, .table .header (s.2.map fun f => (f.1, .value f.2)))

theorem childFields_values (fs : Fields) :
    childFields (fs.map fun f => (f.1, .value f.2)) = fs := by
  induction fs with
  | nil => rfl
  | cons f fs ih =>
    rw [List.map_cons, childFields, ih, Node.toValue]

theorem childFields_drafted (ss : List (Text × Fields)) :
    childFields (drafted ss) = ss.map fun s => (s.1, .table s.2) := by
  induction ss with
  | nil => rfl
  | cons s ss ih =>
    have tail : childFields (drafted (s :: ss)) =
        (s.1, .table (childFields (s.2.map fun f => (f.1, .value f.2))))
        :: childFields (drafted ss) := rfl
    rw [tail, childFields_values, ih, List.map_cons]

theorem keys_drafted (ss : List (Text × Fields)) : (drafted ss).map Prod.fst = ss.map Prod.fst := by
  rw [drafted, List.map_map]
  rfl

theorem lookup_last {cs : Children} (new : k ∉ cs.map Prod.fst) (n : Node) :
    (cs ++ [(k, n)]).lookup k = some n := by
  induction cs with
  | nil => simp
  | cons e cs ih =>
    obtain ⟨other, new⟩ := List.ne_and_not_mem_of_not_mem_cons new
    rw [List.cons_append, List.lookup_cons, beq_false_of_ne other]
    exact ih new

theorem put_last {cs : Children} (new : k ∉ cs.map Prod.fst) (m n : Node) :
    Children.put k n (cs ++ [(k, m)]) = cs ++ [(k, n)] := by
  induction cs with
  | nil => simp [Children.put]
  | cons e cs ih =>
    obtain ⟨other, new⟩ := List.ne_and_not_mem_of_not_mem_cons new
    rw [List.cons_append, Children.put, if_neg other.symm, ih new, List.cons_append]

/-- A header opens a table behind the ones that are done. -/
theorem openTable_drafted {ss : List (Text × Fields)} (root : d.root = drafted ss)
    (new : name ∉ ss.map Prod.fst) :
    d.openTable [name] =
      .ok { root := drafted (ss ++ [(name, [])]), header := [name], part := d.part + 1 } := by
  have new' : name ∉ (drafted ss).map Prod.fst := keys_drafted ss ▸ new
  have opened : Toml.openTable name (drafted ss) =
      .ok (drafted ss ++ [(name, .table .header [])]) := by
    rw [Toml.openTable, lookup_none new', put_new new']
    rfl
  have shape : drafted (ss ++ [(name, [])]) = drafted ss ++ [(name, .table .header [])] := by
    rw [drafted, List.map_append]
    rfl
  rw [shape, ← root] at *
  show (Toml.openTable name d.root >>= _) = _
  rw [opened]
  rfl

/-- An entry goes to the end of the table under construction. -/
theorem insert_drafted {ss : List (Text × Fields)} {fs : Fields}
    (root : d.root = drafted (ss ++ [(name, fs)])) (header : d.header = [name])
    (new : name ∉ ss.map Prod.fst) (free : k ∉ fs.map Prod.fst) :
    d.insert [k] v = .ok { d with root := drafted (ss ++ [(name, fs ++ [(k, v)])]) } := by
  have new' : name ∉ (drafted ss).map Prod.fst := keys_drafted ss ▸ new
  have shape : ∀ gs : Fields, drafted (ss ++ [(name, gs)])
      = drafted ss ++ [(name, .table .header (gs.map fun f => (f.1, .value f.2)))] := fun gs => by
    rw [drafted, List.map_append]
    rfl
  have free' : k ∉ (fs.map fun f => (f.1, Node.value f.2)).map Prod.fst := by
    rw [List.map_map]
    exact free
  have inserted := insertDotted_new free' d.part v
  rw [Draft.insert, header, root, shape, changeAt, lookup_last new']
  show ((insertDotted d.part v [k] _ >>= _) >>= _) = _
  rw [inserted, shape, List.map_append]
  dsimp only [bind, Except.bind, pure, Except.pure]
  rw [put_last new']
  rfl

/-! ## Reading tables -/

/-- A table that can be written: with a bare name, bare keys that differ, and values that can be
written. -/
structure WritableTable (s : Text × Fields) : Prop where
  name : Bare s.1
  distinct : (s.2.map Prod.fst).Nodup
  keys : ∀ f ∈ s.2, Bare f.1
  values : ∀ f ∈ s.2, Writable f.2

theorem join_cons (line : Text) {ls : List Text} (more : ls ≠ []) :
    Text.join ['\n'] (line :: ls) = line ++ '\n' :: Text.join ['\n'] ls := by
  obtain ⟨l, ls, rfl⟩ := List.exists_cons_of_ne_nil more
  rw [Text.join, List.append_assoc]
  rfl

/-- The entries of a table are read one after another. -/
theorem readStatements_entries {ss : List (Text × Fields)} {fs : Fields} (keys : ∀ f ∈ fs, Bare f.1)
    (values : ∀ f ∈ fs, Writable f.2) (new : name ∉ ss.map Prod.fst) {ls : List Text}
    (more : ls ≠ []) (acc : Fields) (distinct : (acc.map Prod.fst ++ fs.map Prod.fst).Nodup)
    (root : d.root = drafted (ss ++ [(name, acc)])) (header : d.header = [name]) (n : Nat) :
    readStatements (n + fs.length) d (Text.join ['\n'] (fs.map entryLine ++ ls))
      = readStatements n { d with root := drafted (ss ++ [(name, acc ++ fs)]) }
      (Text.join ['\n'] ls) := by
  induction fs generalizing acc d with
  | nil =>
    rw [List.append_nil, ← root]
    rfl
  | cons f fs ih =>
    obtain ⟨k, v⟩ := f
    obtain ⟨bare, keys⟩ := List.forall_mem_cons.mp keys
    obtain ⟨writable, values⟩ := List.forall_mem_cons.mp values
    have free : k ∉ acc.map Prod.fst :=
      fun mem => (List.nodup_append.mp distinct).2.2 k mem k List.mem_cons_self rfl
    have inserted := insert_drafted (v := v) root header new free
    have rest : fs.map entryLine ++ ls ≠ [] := by simp [more]
    have shift : (acc ++ [(k, v)]).map Prod.fst ++ fs.map Prod.fst =
      acc.map Prod.fst ++ ((k, v) :: fs).map Prod.fst := by
      rw [List.map_append, List.append_assoc]
      rfl
    have tail := ih keys values (acc ++ [(k, v)]) (shift ▸ distinct)
      (d := { d with root := drafted (ss ++ [(name, acc ++ [(k, v)])]) })
      rfl header
    obtain ⟨c, r, head, other⟩ := bare.head
    have plain : c ∉ [' ', '\t', '\n', '#'] := fun mem => other (List.mem_append_left ['['] mem)
    have line : entryLine (k, v) = c :: (r ++ " = ".toList ++ writeValue v) := by
      rw [entryLine, head]; rfl
    have read := readStatement_entry bare writable inserted
      (r := '\n' :: Text.join ['\n'] (fs.map entryLine ++ ls))
      (.cons (by decide) _)
    rw [line] at read
    rw [List.map_cons, List.cons_append, join_cons _ rest, List.length_cons, ← Nat.add_assoc, line,
      readStatements_line plain read, tail, List.append_assoc]
    rfl

/-- A table is read, and the lines below it. -/
theorem readStatements_table {ss : List (Text × Fields)} {s : Text × Fields}
    (writable : WritableTable s) (new : s.1 ∉ ss.map Prod.fst) (root : d.root = drafted ss)
    (ls : List Text) (n : Nat) :
    ∃ d', d'.root = drafted (ss ++ [s]) ∧
      readStatements (n + 1 + s.2.length + 1) d (Text.join ['\n'] (tableLines s ++ ls))
        = readStatements (n + 1) d' (Text.join ['\n'] ([] :: ls)) := by
  obtain ⟨name, fs⟩ := s
  have opened := openTable_drafted root new
  have header : headerLine name = '[' :: (name ++ [']']) := rfl
  have rest : fs.map entryLine ++ [] :: ls ≠ [] := by simp
  have read := readStatement_header writable.name opened
    ('\n' :: Text.join ['\n'] (fs.map entryLine ++ [] :: ls))
  rw [header] at read
  have below : [] :: ls ≠ [] := List.cons_ne_nil _ _
  have entries :=
    readStatements_entries writable.keys writable.values new below [] writable.distinct
    (d := { root := drafted (ss ++ [(name, [])]), header := [name], part := d.part + 1 })
      rfl rfl (n + 1)
  refine ⟨{ root := drafted (ss ++ [(name, fs)]), header := [name], part := d.part + 1 }, rfl, ?_⟩
  have shape : tableLines (name, fs) ++ ls = headerLine name :: (fs.map entryLine ++ [] :: ls) := by
    simp [tableLines]
  rw [shape, join_cons _ rest, header, readStatements_line (by decide) read, entries]
  rfl

/-- All tables are read, one behind the other. -/
theorem readStatements_tables {done ss : List (Text × Fields)}
    (writable : ∀ s ∈ ss, WritableTable s) (distinct : (done.map Prod.fst ++ ss.map Prod.fst).Nodup)
    (root : d.root = drafted done) {n : Nat} (enough : (ss.flatMap tableLines).length ≤ n) :
    ∃ d', d'.root = drafted (done ++ ss) ∧
      readStatements n d (Text.join ['\n'] (ss.flatMap tableLines)) = .ok d' := by
  induction ss generalizing done d n with
  | nil =>
    refine ⟨d, root.trans (congrArg drafted (List.append_nil done).symm), ?_⟩
    cases n <;> rfl
  | cons s ss ih =>
    obtain ⟨table, others⟩ := List.forall_mem_cons.mp writable
    have new : s.1 ∉ done.map Prod.fst := fun mem =>
      (List.nodup_append.mp distinct).2.2 s.1 mem s.1 List.mem_cons_self rfl
    have shift : (done ++ [s]).map Prod.fst ++ ss.map Prod.fst =
        done.map Prod.fst ++ (s :: ss).map Prod.fst := by
      rw [List.map_append, List.append_assoc]
      rfl
    have lines : (tableLines s).length = s.2.length + 2 := by simp [tableLines]
    rw [List.flatMap_cons, List.length_append, lines] at enough
    obtain ⟨m, rfl⟩ : ∃ m, n = m + 1 + s.2.length + 1 := ⟨n - (s.2.length + 2), by omega⟩
    obtain ⟨d₁, root₁, read⟩ := readStatements_table table new root (ss.flatMap tableLines) m
    obtain ⟨d₂, root₂, tail⟩ := ih others (shift ▸ distinct) root₁ (n := m) (by omega)
    rw [List.append_assoc] at root₂
    refine ⟨d₂, root₂, ?_⟩
    rw [List.flatMap_cons, read]
    by_cases last : ss.flatMap tableLines = []
    · rw [last] at tail ⊢
      -- Nothing comes below the empty line.
      have same : d₁ = d₂ := by cases m <;> exact Except.ok.inj tail
      rw [same]
      rfl
    · rw [join_cons _ last, List.nil_append, readStatements_blank, tail]

theorem length_le_join (ls : List Text) : ls.length ≤ (Text.join ['\n'] ls).length + 1 := by
  induction ls with
  | nil => exact Nat.zero_le _
  | cons l ls ih =>
    by_cases last : ls = []
    · subst last
      exact Nat.le_add_left 1 _
    · rw [join_cons _ last, List.length_append, List.length_cons, List.length_cons]
      omega

theorem mem_join {c : Char} {ls : List Text} (mem : c ∈ Text.join ['\n'] ls) :
    c = '\n' ∨ ∃ l ∈ ls, c ∈ l := by
  induction ls with
  | nil => cases mem
  | cons l ls ih =>
    by_cases last : ls = []
    · subst last
      exact .inr ⟨l, List.mem_cons_self, mem⟩
    · rw [join_cons _ last] at mem
      rcases List.mem_append.mp mem with here | mem
      · exact .inr ⟨l, List.mem_cons_self, here⟩
      · rcases List.mem_cons.mp mem with same | mem
        · exact .inl same
        · rcases ih mem with same | ⟨l', mem, here⟩
          · exact .inl same
          · exact .inr ⟨l', List.mem_cons_of_mem l mem, here⟩

theorem Bare.clean (h : Bare k) : Clean k := fun c mem => by
  have bounds : 45 ≤ c.toNat ∧ c.toNat ≤ 122 := by
    have bare := h.plain c mem
    simp only [isBare, Char.isAlphanum, Char.isAlpha, Char.isUpper, Char.isLower, Char.isDigit,
      Bool.or_eq_true,
      Bool.and_eq_true, decide_eq_true_eq, beq_iff_eq, ge_iff_le, UInt32.le_iff_toNat_le] at bare
    rcases bare with (((range | range) | range) | rfl) | rfl
    · exact ⟨Nat.le_trans (by decide) range.1, Nat.le_trans range.2 (by decide)⟩
    · exact ⟨Nat.le_trans (by decide) range.1, Nat.le_trans range.2 (by decide)⟩
    · exact ⟨Nat.le_trans (by decide) range.1, Nat.le_trans range.2 (by decide)⟩
    · decide
    · decide
  exact isForbidden_of_printable (Nat.le_trans (by decide) bounds.1)
    (Nat.lt_of_le_of_lt bounds.2 (by decide))

theorem clean_tableLines {s : Text × Fields} (writable : WritableTable s) :
    ∀ l ∈ tableLines s, Clean l := by
  intro l mem
  rcases List.mem_append.mp mem with mem | mem
  · rcases List.mem_cons.mp mem with rfl | mem
    · exact Clean.append (Clean.append (t := ['[']) (by decide) writable.name.clean) (by decide)
    · obtain ⟨f, own, rfl⟩ := List.mem_map.mp mem
      exact ((writable.keys f own).clean.append (by decide)).append
        (clean_writeValue f.2 (writable.values f own))
  · rw [List.mem_singleton.mp mem]
    decide

/-- **A document of tables is read as it was written.** -/
theorem read_tables {ss : List (Text × Fields)} (writable : ∀ s ∈ ss, WritableTable s)
    (distinct : (ss.map Prod.fst).Nodup) :
    read (Text.join ['\n'] (ss.flatMap tableLines)) = .ok (ss.map fun s => (s.1, .table s.2)) := by
  have breaks : ¬ ['\r', '\n'] <:+: Text.join ['\n'] (ss.flatMap tableLines) := by
    intro inside
    rcases mem_join (inside.subset List.mem_cons_self) with same | ⟨l, mem, here⟩
    · cases same
    · obtain ⟨s, own, line⟩ := List.mem_flatMap.mp mem
      exact absurd (clean_tableLines (writable s own) l line _ here) (by decide)
  have same : Text.replaceAll ['\r', '\n'] ['\n'] (Text.join ['\n'] (ss.flatMap tableLines))
      = Text.join ['\n'] (ss.flatMap tableLines) := by
    rw [Text.replaceAll, Text.splitOn_of_free breaks]
    rfl
  obtain ⟨d, root, all⟩ := @readStatements_tables {} [] ss writable distinct rfl _
    (length_le_join (ss.flatMap tableLines))
  show (readStatements
    ((Text.replaceAll ['\r', '\n'] ['\n'] (Text.join ['\n'] (ss.flatMap tableLines))).length + 1) {}
    (Text.replaceAll ['\r', '\n'] ['\n'] (Text.join ['\n'] (ss.flatMap tableLines))) >>= _) = _
  rw [same, all]
  exact congrArg Except.ok ((congrArg childFields root).trans (childFields_drafted ss))

end ContractCheck.Toml
