import ContractCheck.Proofs.Toml.Scalars

/-! # Values that are read as they were written

Lists and tables are written on one line, in brackets and braces.  Reading goes into a value as deep
as writing did, with fewer characters left at each step, and the keys of a table are put in their
order one behind the other (`readValue_write`).
-/
namespace ContractCheck.Toml

variable {t rest : Text} {fuel : Nat}

mutual
/-- Values that can be written: truth values, integers with at most 4300 digits, texts without
control characters, and lists and tables of such values, with keys that differ. -/
def Writable : Value → Prop
  | .bool _ => True
  | .int n => n.natAbs < Nat.pow 10 Text.maxDigits
  | .text t => Clean t
  | .list xs => WritableItems xs
  | .table fs => (fs.map Prod.fst).Nodup ∧ WritableFields fs
  | .null | .float _ | .broken _ | .moment _ | .misnamed .. => False

/-- Whether all items can be written. -/
def WritableItems : List Value → Prop
  | [] => True
  | x :: r => Writable x ∧ WritableItems r

/-- Whether all fields can be written. -/
def WritableFields : List (Text × Value) → Prop
  | [] => True
  | (k, v) :: r => CleanKey k ∧ Writable v ∧ WritableFields r
end

mutual
/-- Whether a value can be written is decided along the value. -/
def decideWritable : (v : Value) → Decidable (Writable v)
  | .bool _ => isTrue trivial
  | .int n => inferInstanceAs (Decidable (n.natAbs < Nat.pow 10 Text.maxDigits))
  | .text t => inferInstanceAs (Decidable (Clean t))
  | .list xs => decideItems xs
  | .table fs => @instDecidableAnd _ _ inferInstance (decideFields fs)
  | .null | .float _ | .broken _ | .moment _ | .misnamed .. => isFalse not_false

def decideItems : (xs : List Value) → Decidable (WritableItems xs)
  | [] => isTrue trivial
  | x :: r => @instDecidableAnd _ _ (decideWritable x) (decideItems r)

def decideFields : (fs : List (Text × Value)) → Decidable (WritableFields fs)
  | [] => isTrue trivial
  | (_, v) :: r =>
    @instDecidableAnd _ _ inferInstance (@instDecidableAnd _ _ (decideWritable v) (decideFields r))
end

instance (v : Value) : Decidable (Writable v) := decideWritable v

mutual
/-- What no value that can be written is, is nowhere in one either. -/
theorem Writable.nowhere {kind : Value → Bool} (none : ∀ v, Writable v → kind v = false) :
    ∀ v : Value, Writable v → v.anywhere kind = false
  | .bool b, writable => by rw [Value.anywhere, none _ writable] <;> exact nofun
  | .int n, writable => by rw [Value.anywhere, none _ writable] <;> exact nofun
  | .text t, writable => by rw [Value.anywhere, none _ writable] <;> exact nofun
  | .list xs, writable => by
    rw [Value.anywhere, none _ writable, WritableItems.nowhere none xs writable, Bool.or_false]
  | .table fs, writable => by
    rw [Value.anywhere, none _ writable, WritableFields.nowhere none fs writable.2, Bool.or_false]

theorem WritableItems.nowhere {kind : Value → Bool} (none : ∀ v, Writable v → kind v = false) :
    ∀ xs : List Value, WritableItems xs → Value.anyItem kind xs = false
  | [], _ => rfl
  | x :: xs, ⟨writable, others⟩ => by
    rw [Value.anyItem, Writable.nowhere none x writable, WritableItems.nowhere none xs others,
      Bool.or_false]

theorem WritableFields.nowhere {kind : Value → Bool} (none : ∀ v, Writable v → kind v = false) :
    ∀ fs : Fields, WritableFields fs → Value.anyField kind fs = false
  | [], _ => rfl
  | (_, v) :: fs, ⟨_, writable, others⟩ => by
    rw [Value.anyField, Writable.nowhere none v writable, WritableFields.nowhere none fs others,
      Bool.or_false]
end

theorem Writable.small {v : Value} (writable : Writable v) : v.isOversized = false := by
  cases v with
  | int n =>
    rw [Value.isOversized, decide_eq_false_iff_not, Nat.not_le]
    exact writable
  | _ => rfl

theorem Writable.whole {v : Value} (writable : Writable v) : v.isBroken = false := by
  cases v with
  | broken _ | misnamed _ _ => exact writable.elim
  | _ => rfl

/-! ## How values start -/

/-- A text that starts with none of the characters that are passed over. -/
def Firm (t : Text) : Prop := ∃ c r, t = c :: r ∧ c ∉ [' ', '\t', '\n', '#']

/-- How a value starts: its first character does not end a list or a table either. -/
def Starts (t : Text) : Prop := ∃ c r, t = c :: r ∧ c ∉ [' ', '\t', '\n', '#', ']', '\x7d']

theorem Starts.append (h : Starts t) (r : Text) : Starts (t ++ r) := by
  obtain ⟨c, s, rfl, plain⟩ := h
  exact ⟨c, s ++ r, rfl, plain⟩

/-- Some fuel is left for a text that starts a value. -/
theorem Starts.enough (h : Starts t) (enough : t.length ≤ fuel) : ∃ n, fuel = n + 1 := by
  obtain ⟨c, s, rfl, -⟩ := h
  exact Nat.exists_eq_add_one_of_ne_zero
    (Nat.ne_of_gt (Nat.lt_of_lt_of_le (Nat.succ_pos s.length) enough))

theorem Starts.firm (h : Starts t) : Firm t := by
  obtain ⟨c, s, rfl, plain⟩ := h
  have sub : [' ', '\t', '\n', '#'] ⊆ [' ', '\t', '\n', '#', ']', '\x7d'] := by decide
  exact ⟨c, s, rfl, fun mem => plain (sub mem)⟩

theorem firm_cons {c : Char} (plain : c ∉ [' ', '\t', '\n', '#']) (r : Text) : Firm (c :: r) :=
  ⟨c, r, rfl, plain⟩

theorem ofInt_head (n : Int) : ∃ c r, Text.ofInt n = c :: r ∧ (c = '-' ∨ c.isDigit = true) := by
  cases n with
  | ofNat n =>
    have numeral := Text.numeral_ofNat n
    obtain ⟨c, r, head⟩ := List.exists_cons_of_ne_nil numeral.given
    exact ⟨c, r, head, .inr (numeral.digits c (head ▸ List.mem_cons_self))⟩
  | negSucc n => exact ⟨'-', _, rfl, .inl rfl⟩

/-- What a number starts with starts nothing else. -/
theorem number_head {c : Char} (head : c = '-' ∨ c.isDigit = true) :
    c ∉ [' ', '\t', '\n', '#', ']', '\x7d'] ∧ c ∉ ['"', '\'', '[', '\x7b', 't', 'f'] := by
  rcases head with rfl | digit
  · decide
  · have other : ∀ l : List Char, l.all (fun d => !d.isDigit) = true → c ∉ l := fun l none mem => by
      have := List.all_eq_true.mp none c mem
      rw [digit] at this
      cases this
    exact ⟨other _ (by decide), other _ (by decide)⟩

theorem starts_writeValue {v : Value} (writable : Writable v) : Starts (writeValue v) := by
  cases v with
  | null | float _ | broken _ | moment _ | misnamed _ _ => exact writable.elim
  | bool b =>
    cases b
    · exact ⟨'f', _, rfl, by decide⟩
    · exact ⟨'t', _, rfl, by decide⟩
  | int n =>
    obtain ⟨c, r, head, number⟩ := ofInt_head n
    exact ⟨c, r, head, (number_head number).1⟩
  | text t => exact ⟨'"', _, rfl, by decide⟩
  | list xs => exact ⟨'[', _, by rw [writeValue]; rfl, by decide⟩
  | table fs =>
    cases fs with
    | nil => exact ⟨'\x7b', _, by rw [writeValue]; rfl, by decide⟩
    | cons f fs => exact ⟨'\x7b', _, by rw [writeValue]; rfl, by decide⟩

/-! ## What is passed over -/

theorem Firm.skipSpace (h : Firm t) : skipSpace t = t := by
  obtain ⟨c, r, rfl, plain⟩ := h
  refine List.dropWhile_cons_of_neg fun space => plain ?_
  rcases Bool.or_eq_true_iff.mp space with same | same <;> rw [beq_iff_eq.mp same] <;> decide

theorem Firm.skipFiller (h : Firm t) (fuel : Nat) : skipFiller fuel t = .ok t := by
  obtain ⟨c, r, rfl, plain⟩ := h
  have lines : skipSpaceAndLines (c :: r) = c :: r := by
    refine List.dropWhile_cons_of_neg fun space => plain ?_
    rcases Bool.or_eq_true_iff.mp space with space | same
    · rcases Bool.or_eq_true_iff.mp space with same | same <;> rw [beq_iff_eq.mp same] <;> decide
    · rw [beq_iff_eq.mp same]
      decide
  have comment : skipComment (c :: r) = .ok (c :: r) := by
    unfold skipComment
    split
    · next same =>
      rw [(List.cons.inj same).1] at plain
      exact absurd (by decide) plain
    · rfl
  cases fuel with
  | zero => rfl
  | succ n =>
    rw [Toml.skipFiller, lines, comment]
    exact if_pos rfl

/-- One blank in front is passed over. -/
theorem Firm.skipFiller_blank (h : Firm t) (fuel : Nat) :
    Toml.skipFiller (fuel + 1) (' ' :: t) = .ok t := by
  have once : Toml.skipFiller 1 t = .ok t := h.skipFiller 1
  have lines : skipSpaceAndLines (' ' :: t) = skipSpaceAndLines t := rfl
  rw [Toml.skipFiller] at once ⊢
  rw [lines]
  cases comment : skipComment (skipSpaceAndLines t) with
  | error e => rw [comment] at once; cases once
  | ok r =>
    rw [comment] at once
    have same : r = t := by
      change (if r.length = t.length then pure r else Toml.skipFiller 0 r : Except Flaw Text) =
        .ok t at once
      split at once <;> exact Except.ok.inj once
    subst same
    show (if r.length = (' ' :: r).length then pure r else Toml.skipFiller fuel r :
      Except Flaw Text) = .ok r
    rw [if_neg (by simp), h.skipFiller]

/-! ## One step into a value -/

attribute [local simp] readValue readItems

theorem readValue_text (n : Nat) (r : Text) :
    readValue (n + 1) ('"' :: r) = (readString ('"' :: r)).map fun p => (.text p.1, p.2) := by
  rw [readValue]

theorem readValue_bool (n : Nat) (b : Bool) (r : Text) :
    readValue (n + 1) (writeValue (.bool b) ++ r) = .ok (.bool b, r) := by
  cases b
  · rfl
  · rfl

theorem readValue_scalar (n : Nat) {c : Char} (plain : c ∉ ['"', '\'', '[', '\x7b', 't', 'f'])
    (r : Text) :
    readValue (n + 1) (c :: r) = readScalar (c :: r) := by
  have true_ : Text.startsWith (c :: r) "true".toList = false := by
    rw [Bool.eq_false_iff]
    intro starts
    obtain ⟨s, shape⟩ := Text.startsWith_iff.mp starts
    exact plain ((List.cons.inj shape).1 ▸ by decide)
  have false_ : Text.startsWith (c :: r) "false".toList = false := by
    rw [Bool.eq_false_iff]
    intro starts
    obtain ⟨s, shape⟩ := Text.startsWith_iff.mp starts
    exact plain ((List.cons.inj shape).1 ▸ by decide)
  rw [readValue]
  · rw [true_, false_]
    rfl
  all_goals
    rintro s same
    rw [(List.cons.inj same).1] at plain
    exact plain (by decide)

theorem readValue_empty_list (n : Nat) (r : Text) :
    readValue (n + 1) ('[' :: ']' :: r) = .ok (.list [], r) := by
  rw [readValue, (firm_cons (by decide) r).skipFiller]
  rfl

theorem readValue_list (n : Nat) (h : Starts t) :
    readValue (n + 1) ('[' :: t) = (readItems n t).map fun p => (.list p.1, p.2) := by
  rw [readValue, h.firm.skipFiller]
  obtain ⟨c, r, rfl, plain⟩ := h
  dsimp only [bind, Except.bind]
  split
  · next same =>
    rw [(List.cons.inj same).1] at plain
    exact absurd (by decide) plain
  · rfl

theorem readValue_empty_table (n : Nat) (r : Text) :
    readValue (n + 1) ('\x7b' :: '\x7d' :: r) = .ok (.table [], r) := by
  rw [readValue, (firm_cons (by decide) r).skipSpace]
  rfl

theorem readValue_table (n : Nat) (r : Text) : readValue (n + 1) ('\x7b' :: ' ' :: '"' :: r)
    = (readInline n [] ('"' :: r)).map fun p => (.table p.1, p.2) := by
  rw [readValue]
  rfl

theorem readItems_last {n : Nat} {v : Value} (read : readValue n t = .ok (v, ']' :: rest)) :
    readItems (n + 1) t = .ok ([v], rest) := by
  rw [readItems, read]
  show (skipFiller (']' :: rest).length (']' :: rest) >>= _) = _
  rw [(firm_cons (by decide) rest).skipFiller]
  rfl

theorem readItems_next {n : Nat} {v : Value} {s : Text}
    (read : readValue n t = .ok (v, ',' :: ' ' :: s))
    (h : Starts s) : readItems (n + 1) t = (readItems n s).map fun p => (v :: p.1, p.2) := by
  rw [readItems, read]
  show (skipFiller (',' :: ' ' :: s).length (',' :: ' ' :: s) >>= _) = _
  rw [(firm_cons (by decide) _).skipFiller]
  show (skipFiller (s.length + 1) (' ' :: s) >>= _) = _
  rw [h.firm.skipFiller_blank]
  obtain ⟨c, r, rfl, plain⟩ := h
  dsimp only [bind, Except.bind]
  split
  · next same =>
    rw [(List.cons.inj same).1] at plain
    exact absurd (by decide) plain
  · cases readItems n (c :: r) <;> rfl

/-! ## Tables under construction -/

theorem lookup_none {cs : Children} {k : Text} (new : k ∉ cs.map Prod.fst) :
    cs.lookup k = none := by
  induction cs with
  | nil => rfl
  | cons e cs ih =>
    obtain ⟨other, new⟩ := List.ne_and_not_mem_of_not_mem_cons new
    rw [List.lookup_cons, beq_false_of_ne other]
    exact ih new

theorem put_new {cs : Children} {k : Text} (new : k ∉ cs.map Prod.fst) (n : Node) :
    Children.put k n cs = cs ++ [(k, n)] := by
  induction cs with
  | nil => rfl
  | cons e cs ih =>
    obtain ⟨other, new⟩ := List.ne_and_not_mem_of_not_mem_cons new
    rw [Children.put, if_neg other.symm, ih new, List.cons_append]

theorem insertDotted_new {cs : Children} {k : Text} (new : k ∉ cs.map Prod.fst) (part : Nat)
    (v : Value) :
    insertDotted part v [k] cs = .ok (cs ++ [(k, .value v)]) := by
  rw [insertDotted, lookup_none new, put_new new]
  rfl

theorem childFields_append (cs ds : Children) :
    childFields (cs ++ ds) = childFields cs ++ childFields ds := by
  induction cs with
  | nil => rfl
  | cons e cs ih => rw [List.cons_append, childFields, childFields, ih, List.cons_append]

section Inline

variable {n : Nat} {acc : Children} {k s r : Text} {v : Value} (new : k ∉ acc.map Prod.fst)
  (key : readKey (t.length + 1) t = .ok ([k], '=' :: ' ' :: s)) (h : Starts s)
include new key h

theorem readInline_step (read : readValue n s = .ok (v, r)) : readInline (n + 1) acc t =
    match skipSpace r with
    | '\x7d' :: r => .ok (childFields acc ++ [(k, v)], r)
    | ',' :: r => readInline n (acc ++ [(k, .value v)]) (skipSpace r)
    | _ => .error .malformed := by
  have blank : skipSpace (' ' :: s) = s := h.firm.skipSpace
  rw [readInline, key]
  show (readValue n (skipSpace (' ' :: s)) >>= _) = _
  rw [blank, read]
  show (insertDotted 0 v [k] acc >>= _) = _
  rw [insertDotted_new new]
  have fields : childFields (acc ++ [(k, .value v)]) = childFields acc ++ [(k, v)] :=
    childFields_append ..
  rw [← fields]
  rfl

theorem readInline_last (read : readValue n s = .ok (v, ' ' :: '\x7d' :: rest)) :
    readInline (n + 1) acc t = .ok (childFields acc ++ [(k, v)], rest) :=
  readInline_step new key h read

theorem readInline_next (read : readValue n s = .ok (v, ',' :: ' ' :: '"' :: rest)) :
    readInline (n + 1) acc t = readInline n (acc ++ [(k, .value v)]) ('"' :: rest) :=
  readInline_step new key h read

end Inline

/-! ## Reading what was written -/

theorem starts_writeItems {x : Value} {xs : List Value} (writable : Writable x) :
    Starts (writeItems (x :: xs)) := by
  cases xs with
  | nil => exact starts_writeValue writable
  | cons y ys =>
    rw [writeItems, List.append_assoc]
    exact (starts_writeValue writable).append _

theorem writeFields_last (k : Text) (v : Value) :
    writeFields [(k, v)] = '"' :: (k ++ '"' :: ' ' :: '=' :: ' ' :: writeValue v) := by
  rw [writeFields, List.append_assoc]
  rfl

theorem writeFields_next (k : Text) (v : Value) (f : Text × Value) (fs : Fields) :
    writeFields ((k, v) :: f :: fs)
    = '"' :: (k ++ '"' :: ' ' :: '=' :: ' ' :: (writeValue v ++ ',' :: ' ' :: writeFields
      (f :: fs))) := by
  rw [writeFields, List.append_assoc, List.append_assoc, List.append_assoc]
  rfl

theorem writeFields_head (k : Text) (v : Value) (fs : Fields) :
    ∃ s, writeFields ((k, v) :: fs) = '"' :: s := by
  cases fs with
  | nil => exact ⟨_, writeFields_last k v⟩
  | cons f fs => exact ⟨_, writeFields_next k v f fs⟩

mutual
/-- **A value is read as it was written, whatever ends it.** -/
theorem readValue_write {n : Nat} {r : Text} : ∀ v : Value, Writable v → Ends r →
    (writeValue v).length ≤ n → readValue n (writeValue v ++ r) = .ok (v, r)
  | .null, writable, _, _ | .float _, writable, _, _ | .broken _, writable, _, _ | .moment _,
    writable, _, _
  | .misnamed .., writable, _, _ => writable.elim
  | .bool b, writable, _, enough => by
    obtain ⟨m, rfl⟩ := (starts_writeValue writable).enough enough
    exact readValue_bool m b r
  | .int i, writable, ends, enough => by
    obtain ⟨m, rfl⟩ := (starts_writeValue writable).enough enough
    obtain ⟨c, s, head, number⟩ := ofInt_head i
    have read := readScalar_int writable ends
    rw [writeValue]
    rw [head, List.cons_append] at read ⊢
    rw [readValue_scalar m (number_head number).2, read]
  | .text t, writable, ends, enough => by
    obtain ⟨m, rfl⟩ := (starts_writeValue writable).enough enough
    have read := readString_write writable ends
    rw [writeValue]
    rw [writeText_eq, List.cons_append, List.cons_append] at read ⊢
    rw [readValue_text, read]
    rfl
  | .list [], writable, _, enough => by
    obtain ⟨m, rfl⟩ := (starts_writeValue writable).enough enough
    rw [writeValue, writeItems]
    exact readValue_empty_list m r
  | .list (x :: xs), writable, _, enough => by
    obtain ⟨m, rfl⟩ := (starts_writeValue writable).enough enough
    have starts := @starts_writeItems x xs writable.1
    have shape : writeValue (.list (x :: xs)) = '[' :: (writeItems (x :: xs) ++ [']']) := by
      rw [writeValue, List.cons_append]
    rw [shape, List.length_cons, List.length_append, List.length_singleton] at enough
    rw [shape, List.cons_append, List.append_assoc, List.singleton_append,
      readValue_list m (starts.append _),
      readItems_write x xs writable (by omega)]
    rfl
  | .table [], writable, _, enough => by
    obtain ⟨m, rfl⟩ := (starts_writeValue writable).enough enough
    rw [writeValue]
    exact readValue_empty_table m r
  | .table ((k, v) :: fs), writable, _, enough => by
    obtain ⟨m, rfl⟩ := (starts_writeValue writable).enough enough
    obtain ⟨distinct, writable⟩ := writable
    have shape : writeValue (.table ((k, v) :: fs)) =
      '\x7b' :: ' ' :: (writeFields ((k, v) :: fs) ++ [' ', '\x7d']) := by
      rw [writeValue]
      rfl
    obtain ⟨s, fields⟩ := writeFields_head k v fs
    rw [shape, List.length_cons, List.length_cons, List.length_append] at enough
    have read := readInline_write (r := r) k v fs [] distinct writable (n := m) (by omega)
    rw [shape, List.cons_append, List.cons_append, List.append_assoc]
    rw [fields] at read ⊢
    exact (readValue_table m _).trans (congrArg _ read)

/-- The items of a list are read up to its end. -/
theorem readItems_write {n : Nat} {r : Text} :
    ∀ (x : Value) (xs : List Value), WritableItems (x :: xs) →
    (writeItems (x :: xs)).length < n → readItems n (writeItems (x :: xs) ++ ']' :: r) =
      .ok (x :: xs, r)
  | x, [], ⟨writable, _⟩, enough => by
    obtain ⟨m, rfl⟩ := Nat.exists_eq_add_one_of_ne_zero (Nat.ne_of_gt (Nat.zero_lt_of_lt enough))
    exact readItems_last (readValue_write x writable (.cons (by decide) r)
      (Nat.le_of_lt_succ enough))
  | x, y :: ys, ⟨writable, others⟩, enough => by
    obtain ⟨m, rfl⟩ := Nat.exists_eq_add_one_of_ne_zero (Nat.ne_of_gt (Nat.zero_lt_of_lt enough))
    have shape : writeItems (x :: y :: ys) =
        writeValue x ++ (',' :: ' ' :: writeItems (y :: ys)) := by
      rw [writeItems, List.append_assoc]
      rfl
    rw [shape, List.length_append, List.length_cons, List.length_cons] at enough
    have first := readValue_write (r := ',' :: ' ' :: (writeItems (y :: ys) ++ ']' :: r))
      (n := m) x writable
      (.cons (by decide) _) (by omega)
    have starts := @starts_writeItems y ys others.1
    rw [shape, List.append_assoc, List.cons_append, List.cons_append,
      readItems_next first (starts.append _),
      readItems_write y ys others (by omega)]
    rfl

/-- The fields of a table are read up to its end. -/
theorem readInline_write {n : Nat} {r : Text} :
    ∀ (k : Text) (v : Value) (fs : Fields) (acc : Children),
    (acc.map Prod.fst ++ ((k, v) :: fs).map Prod.fst).Nodup → WritableFields ((k, v) :: fs) →
    (writeFields ((k, v) :: fs)).length < n →
    readInline n acc (writeFields ((k, v) :: fs) ++ ' ' :: '\x7d' :: r)
      = .ok (childFields acc ++ (k, v) :: fs, r)
  | k, v, [], acc, distinct, ⟨key, writable, _⟩, enough => by
    obtain ⟨m, rfl⟩ := Nat.exists_eq_add_one_of_ne_zero (Nat.ne_of_gt (Nat.zero_lt_of_lt enough))
    have new : k ∉ acc.map Prod.fst :=
      fun mem => (List.nodup_append.mp distinct).2.2 k mem k List.mem_cons_self rfl
    have shape := writeFields_last k v
    rw [shape] at enough ⊢
    have read := readValue_write (r := ' ' :: '\x7d' :: r) (n := m) v writable (.cons (by decide) _)
      (by simp only [List.length_cons, List.length_append] at enough; omega)
    simp only [List.cons_append, List.append_assoc]
    exact readInline_last new (readKey_quoted key _) ((starts_writeValue writable).append _) read
  | k, v, (k', v') :: fs, acc, distinct, ⟨key, writable, others⟩, enough => by
    obtain ⟨m, rfl⟩ := Nat.exists_eq_add_one_of_ne_zero (Nat.ne_of_gt (Nat.zero_lt_of_lt enough))
    have new : k ∉ acc.map Prod.fst :=
      fun mem => (List.nodup_append.mp distinct).2.2 k mem k List.mem_cons_self rfl
    obtain ⟨s, behind⟩ := writeFields_head k' v' fs
    have shape := writeFields_next k v (k', v') fs
    rw [shape] at enough ⊢
    have read := readValue_write (r := ',' :: ' ' :: '"' :: (s ++ ' ' :: '\x7d' :: r))
      (n := m) v writable
      (.cons (by decide) _) (by simp only [List.length_cons, List.length_append] at enough; omega)
    have shift : (acc ++ [(k, Node.value v)]).map Prod.fst ++ ((k', v') :: fs).map Prod.fst
        = acc.map Prod.fst ++ ((k, v) :: (k', v') :: fs).map Prod.fst := by
      rw [List.map_append, List.append_assoc]
      rfl
    have tail := readInline_write (r := r) (n := m) k' v' fs (acc ++ [(k, .value v)])
      (shift ▸ distinct) others
      (by simp only [List.length_cons, List.length_append] at enough; omega)
    simp only [List.cons_append, List.append_assoc]
    rw [behind] at tail ⊢
    rw [childFields_append, List.append_assoc] at tail
    exact (readInline_next new (readKey_quoted key _) ((starts_writeValue writable).append _)
      read).trans tail
end

/-! ## What was written holds no control characters -/

theorem Clean.append {t u : Text} (h : Clean t) (h' : Clean u) : Clean (t ++ u) := fun c mem =>
  (List.mem_append.mp mem).elim (h c) (h' c)

theorem clean_ofInt (n : Int) : Clean (Text.ofInt n) := by
  have digits : ∀ n, Clean (Text.ofNat n) := fun n c mem => by
    have bounds := Text.digit_bounds ((Text.numeral_ofNat n).digits c mem)
    exact isForbidden_of_printable (Nat.le_trans (by decide) bounds.1)
      (Nat.lt_of_le_of_lt bounds.2 (by decide))
  cases n with
  | ofNat n => exact digits n
  | negSucc n => exact Clean.append (t := ['-']) (by decide) (digits (n + 1))

theorem clean_writeText (clean : Clean t) : Clean (writeText t) := by
  have escaped : Clean (escape t) := fun c mem => by
    obtain ⟨d, own, here⟩ := List.mem_flatMap.mp mem
    split at here
    · rcases List.mem_cons.mp here with rfl | same
      · decide
      · rw [List.mem_singleton.mp same]
        exact clean d own
    · rw [List.mem_singleton.mp here]
      exact clean d own
  exact Clean.append (t := ['"']) (by decide) (escaped.append (by decide))

mutual
/-- What stands for a value is free of control characters. -/
theorem clean_writeValue : ∀ v : Value, Writable v → Clean (writeValue v)
  | .null, writable | .float _, writable | .broken _, writable | .moment _,
    writable | .misnamed .., writable =>
    writable.elim
  | .bool true, _ => by decide
  | .bool false, _ => by decide
  | .int n, _ => clean_ofInt n
  | .text _, writable => clean_writeText writable
  | .list xs, writable =>
    Clean.append (t := ['[']) (by decide) ((clean_writeItems xs writable).append (by decide))
  | .table [], _ => by decide
  | .table (f :: fs), ⟨_, writable⟩ =>
    Clean.append (Clean.append (t := "\x7b ".toList) (by decide)
      (clean_writeFields (f :: fs) writable)) (by decide)

theorem clean_writeItems : ∀ xs : List Value, WritableItems xs → Clean (writeItems xs)
  | [], _ => by decide
  | [x], ⟨writable, _⟩ => clean_writeValue x writable
  | x :: y :: ys, ⟨writable, others⟩ =>
    ((clean_writeValue x writable).append (by decide)).append (clean_writeItems (y :: ys) others)

theorem clean_writeFields : ∀ fs : Fields, WritableFields fs → Clean (writeFields fs)
  | [], _ => by decide
  | [(_, v)], ⟨key, writable, _⟩ =>
    Clean.append (Clean.append (Clean.append (t := ['"']) (by decide) key.1) (by decide))
      (clean_writeValue v writable)
  | (_, v) :: f :: fs, ⟨key, writable, others⟩ =>
    ((Clean.append (Clean.append (Clean.append (t := ['"']) (by decide) key.1) (by decide))
      (clean_writeValue v writable)).append (by decide)).append (clean_writeFields (f :: fs) others)
end

end ContractCheck.Toml
