import ContractCheck.Proofs.Diagnostic.Origin

/-! # Reading locations

A location line names a file, a line and a column, with blanks around the place, an arrow in front
of it and perhaps a colon behind it.  The file may hold colons, arrows and blanks of its own: no
number holds a colon, so the last two of a place are in front of its numbers.  A place that is
printed is read back (`Frame.read_text`).  Numbers are read in more spellings than they are printed
in; still whatever is read from a line can be printed (`printable_of_read`), and so printing and
reading it again settles at once (`read_printable`).
-/
namespace ContractCheck.Location

open Text

/-- A place as it is printed. -/
def text (p : Location) : Text := p.file ++ ':' :: ofNat p.line ++ ':' :: ofNat p.column

/-- A place from which nothing is lost if it is printed. -/
structure Printable (p : Location) : Prop where
  trimmed : trim p.file = p.file
  small_line : p.line < Nat.pow 10 maxDigits
  small_column : p.column < Nat.pow 10 maxDigits

variable {p : Location}

/-- A place begins with its file, or with a colon if that is empty. -/
theorem Printable.text_cons (h : p.Printable) : ∃ c r, p.text = c :: r ∧ isBlank c = false := by
  rw [text]
  cases shape : p.file with
  | nil => exact ⟨':', _, rfl, rfl⟩
  | cons c r =>
    have given : p.file ≠ [] := shape ▸ List.cons_ne_nil c r
    obtain ⟨x, s, shape', first⟩ := cons_of_trimmed given h.trimmed
    obtain ⟨rfl, -⟩ := List.cons.inj (shape.symm.trans shape')
    exact ⟨c, _, rfl, first⟩

/-- **A place that is printed is read back**, whatever its file looks like. -/
theorem Frame.read_text (f : Frame) (arrow : f.arrow ≠ []) (h : p.Printable) :
    read (f.line p.text) = .ok p := by
  obtain ⟨c, r, shape, first⟩ := h.text_cons
  rw [text, f.read_place _ shape first (fun _ => arrow) h.small_line h.small_column, h.trimmed]

/-- What is read from a line can be printed. -/
theorem printable_of_read {line : Text} (found : read line = .ok p) : p.Printable := by
  unfold read at found
  split at found
  · cases found
  · split at found
    · next l c first second =>
      split at found
      · cases found
      · obtain rfl := Except.ok.inj found
        have natural (n : Int) : n.toNat ≤ n.natAbs := by omega
        exact ⟨trim_trim _, Nat.lt_of_le_of_lt (natural l) (readInt?_small first),
          Nat.lt_of_le_of_lt (natural c) (readInt?_small second)⟩
    · cases found

/-- A line that is refused is refused for its own sake. -/
theorem of_read_error {line : Text} {e : Malformed} (refused : read line = .error e) :
    e = .noPosition line ∨ e = .notNumeric line ∨ e = .negative line := by
  unfold read at refused
  split at refused
  · exact .inl (Except.error.inj refused).symm
  · split at refused
    · split at refused
      · exact .inr (.inr (Except.error.inj refused).symm)
      · cases refused
    · exact .inr (.inl (Except.error.inj refused).symm)

/-- An arrow, one blank and a colon. -/
def Frame.usual : Frame where
  lead := []
  arrow := Location.arrow ++ [' ']
  colon := [':']
  trail := []
  lead_blank := blanks_nil
  arrow_optional := .inr ⟨[' '], List.forall_mem_singleton.mpr rfl, rfl⟩
  colon_optional := .inr rfl
  trail_blank := blanks_nil

theorem Frame.usual_line (place : Text) :
    Frame.usual.line place = "--> ".toList ++ place ++ [':'] := by
  simp [line, usual, Location.arrow]

/-- **Reading undoes printing, and settles.**  Any place that can be printed is read back from it,
in any frame with an arrow; and any line at all is refused, or gives a place that is read again from
the line that it is printed in. -/
theorem read_printable :
    (∀ (f : Frame) (p : Location), f.arrow ≠ [] → p.Printable → read (f.line p.text) = .ok p) ∧
    ∀ line : Text,
      (∃ e, read line = .error e ∧ (e = .noPosition line ∨ e = .notNumeric line ∨
        e = .negative line)) ∨
      ∃ p, read line = .ok p ∧ read ("--> ".toList ++ p.text ++ [':']) = .ok p := by
  refine ⟨fun f _ arrow printable => f.read_text arrow printable, fun line => ?_⟩
  cases found : read line with
  | error e => exact .inl ⟨e, rfl, of_read_error found⟩
  | ok p =>
    have again := Frame.usual.read_text (List.cons_ne_nil _ _) (printable_of_read found)
    rw [Frame.usual_line] at again
    exact .inr ⟨p, rfl, again⟩

/-- A file that looks like a location, between blanks of several kinds. -/
theorem misleading_file_read :
    Printable ⟨"--> C:\\a b:1:2: c.sol".toList, 12, 0⟩ ∧
      read "\u2003\t--> --> C:\\a b:1:2: c.sol:12:0:\u0085".toList =
        .ok ⟨"--> C:\\a b:1:2: c.sol".toList, 12, 0⟩ := by
  let f : Frame :=
    { lead := ['\u2003', '\t'], arrow := arrow ++ [' '], colon := [':'], trail := ['\u0085']
      lead_blank := List.forall_mem_cons.mpr ⟨rfl, List.forall_mem_singleton.mpr rfl⟩
      arrow_optional := .inr ⟨[' '], List.forall_mem_singleton.mpr rfl, rfl⟩
      colon_optional := .inr rfl
      trail_blank := List.forall_mem_singleton.mpr rfl }
  have printable : Printable ⟨"--> C:\\a b:1:2: c.sol".toList, 12, 0⟩ :=
    ⟨by decide +kernel, small_number (by decide), small_number (by decide)⟩
  exact ⟨printable, read_printable.1 f _ (List.cons_ne_nil _ _) printable⟩

end ContractCheck.Location
