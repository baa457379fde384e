import ContractCheck.Lint.Linter
import ContractCheck.Proofs.Text.Kinds
import ContractCheck.Proofs.Text.Lines

/-! # Reading findings back

A report of lines has a line `file:line:column: severity: message` for each remark.  Files and
messages may hold colons; the place begins at the first colon with a digit behind it, so a file must
not hold such a colon.  Then whatever remarks are printed, among any other lines without such a
colon, are read back in order (`readReport_remarks`).
-/
namespace ContractCheck

namespace Text

/-- No colon with a digit behind it. -/
def Unnumbered (t : Text) : Prop := ∀ d, isDecimal d = true → ¬ [':', d] <:+: t

variable {t u : Text}

theorem Unnumbered.of_inside (h : Unnumbered t) (inside : u <:+: t) : Unnumbered u :=
  fun d digit found =>
  h d digit (found.trans inside)

theorem Unnumbered.tail {c : Char} (h : Unnumbered (c :: t)) : Unnumbered t :=
  h.of_inside (List.infix_cons List.infix_rfl)

/-- What stands behind a colon is no digit. -/
theorem Unnumbered.head (h : Unnumbered (':' :: t)) :
    ∀ d, t.head? = some d → isDecimal d = false := by
  intro d first
  obtain ⟨r, rfl⟩ := List.head?_eq_some_iff.mp first
  exact Bool.eq_false_iff.mpr fun digit => h d digit ⟨[], r, rfl⟩

theorem unnumbered_cons {c : Char} :
    Unnumbered (c :: t) ↔ ¬ (c = ':' ∧ t.head?.any isDecimal = true) ∧ Unnumbered t := by
  constructor
  · rintro h
    refine ⟨?_, h.tail⟩
    rintro ⟨rfl, digit⟩
    obtain ⟨d, first, digit⟩ := (Option.any_eq_true _ _).mp digit
    cases (h.head d first).symm.trans digit
  · rintro ⟨here, rest⟩ d digit found
    rcases List.infix_cons_iff.mp found with front | later
    · obtain ⟨rfl, r, rfl⟩ : c = ':' ∧ ∃ r, t = d :: r := by
        obtain ⟨r, shape⟩ := front
        obtain ⟨rfl, rfl⟩ := List.cons.inj shape
        exact ⟨rfl, r, rfl⟩
      exact here ⟨rfl, by simpa using digit⟩
    · exact rest d digit later

instance decidableUnnumbered : (t : Text) → Decidable (Unnumbered t)
  | [] => isTrue fun _ _ found => by simpa using found.length_le
  | _ :: t => have := decidableUnnumbered t; decidable_of_iff' _ unnumbered_cons

/-- Letters and digits are not trimmed. -/
theorem trim_word (word : ∀ c ∈ t, isWord c = true) : trim t = t := by
  cases t with
  | nil => rfl
  | cons c r =>
    refine trim_eq_self (isBlank_of_word (word c List.mem_cons_self)) fun x last => ?_
    exact isBlank_of_word (word x (List.mem_of_getLast? last))

/-- A word is another one in lower case exactly if it is letter by letter. -/
theorem lower_eq_iff {t word : Text} (plain : ∀ c ∈ word, c.toNat < 128 ∧ c ≠ 'k') :
    lower t = word ↔ t.map Char.toLower = word := by
  induction t generalizing word with
  | nil => rfl
  | cons c r ih =>
    have unfolded : lower (c :: r) =
        (if c = '\u0130' then ['i', '\u0307'] else if c = '\u212a' then ['k'] else [c.toLower]) ++
          lower r := rfl
    rw [unfolded, List.map_cons]
    by_cases dotted : c = '\u0130'
    · -- The dot of a small letter of its own is in no such word, and neither is the capital letter.
      subst dotted
      constructor
      · rintro rfl
        exact absurd (plain '\u0307' (by simp)).1 (by decide)
      · rintro rfl
        exact absurd (plain '\u0130' (List.mem_cons.mpr (.inl (by decide)))).1 (by decide)
    · by_cases kelvin : c = '\u212a'
      · subst kelvin
        constructor
        · rintro rfl
          exact absurd rfl (plain 'k' (by simp)).2
        · rintro rfl
          exact absurd (plain '\u212a' (List.mem_cons.mpr (.inl (by decide)))).1 (by decide)
      · rw [if_neg dotted, if_neg kelvin, List.singleton_append]
        cases word with
        | nil => simp
        | cons x word =>
          rw [List.cons.injEq, List.cons.injEq,
            ih fun y mem => plain y (List.mem_cons_of_mem x mem)]

end Text

namespace Lint

open Text

/-! ## Places -/

/-- Digits with a colon behind them are found. -/
theorem digitsThenColon?_ofNat (n : Nat) (r : Text) :
    digitsThenColon? (ofNat n ++ ':' :: r) = some (ofNat n, r) := by
  have numeral := numeral_ofNat n
  have digits : (ofNat n ++ ':' :: r).takeWhile isDecimal = ofNat n := by
    rw [List.takeWhile_append_of_pos fun c mem => isDecimal_of_isDigit (numeral.digits c mem),
      List.takeWhile_cons_of_neg (by decide), List.append_nil]
  have given : (ofNat n).isEmpty = false := List.isEmpty_eq_false_iff.mpr numeral.given
  rw [digitsThenColon?, digits, List.drop_left]
  simp only [given, Bool.false_eq_true, if_false]

/-- What begins with no digit is no place. -/
theorem digitsThenColon?_none {t : Text} (other : ∀ d, t.head? = some d → isDecimal d = false) :
    digitsThenColon? t = none := by
  have nothing : t.takeWhile isDecimal = [] := by
    cases t with
    | nil => rfl
    | cons c r => exact List.takeWhile_cons_of_neg (by simp [other c rfl])
  rw [digitsThenColon?, nothing]
  simp only [List.length_nil, List.drop_zero, List.isEmpty_nil, if_true]
  split <;> rfl

theorem findingAfter?_none {t : Text} (other : ∀ d, t.head? = some d → isDecimal d = false) :
    findingAfter? t = none := by
  rw [findingAfter?, digitsThenColon?_none other]

/-- What stands behind the file of a line is taken apart. -/
theorem findingAfter?_place (line column : Nat) {severity : Text} (given : severity ≠ [])
    (word : ∀ c ∈ severity, isWord c = true)
    (tail : Text) :
    findingAfter? (ofNat line ++ ':' :: (ofNat column ++ ':' :: ' ' :: (severity ++ ':' :: tail))) =
      some ⟨ofNat line, ofNat column, severity, trimStart tail⟩ := by
  obtain ⟨c, r, shape⟩ := List.exists_cons_of_ne_nil given
  have first : isBlank c = false := isBlank_of_word (word c (shape ▸ List.mem_cons_self))
  have trimmed : trimStart (' ' :: (severity ++ ':' :: tail)) = severity ++ ':' :: tail := by
    rw [shape]
    exact trimStart_append (List.forall_mem_singleton.mpr rfl) first _
  have run : (severity ++ ':' :: tail).takeWhile isWord = severity := by
    rw [List.takeWhile_append_of_pos word, List.takeWhile_cons_of_neg (by decide), List.append_nil]
  have some_ : severity.isEmpty = false := List.isEmpty_eq_false_iff.mpr given
  rw [findingAfter?, digitsThenColon?_ofNat]
  simp only [digitsThenColon?_ofNat, trimmed, run, List.drop_left, some_,
    Bool.false_eq_true, if_false]

/-- The file of a line ends at the first colon with a digit behind it. -/
theorem finding?_append {file : Text} (plain : Unnumbered file) {rest : Text}
    {f : Finding} (found : findingAfter? rest = some f) :
    finding? (file ++ ':' :: rest) = some f := by
  induction file with
  | nil => rw [List.nil_append, finding?, if_pos rfl, found]
  | cons c file ih =>
    have skipped : (if c = ':' then findingAfter? (file ++ ':' :: rest) else none) = none := by
      split
      · next colon =>
        subst colon
        refine findingAfter?_none fun d first => ?_
        cases file with
        | nil =>
          obtain rfl := Option.some.inj first
          decide
        | cons x file => exact plain.head d first
      · rfl
    rw [List.cons_append, finding?, skipped]
    exact ih plain.tail

/-- A line without such a colon says nothing. -/
theorem finding?_unnumbered {t : Text} (plain : Unnumbered t) : finding? t = none := by
  induction t with
  | nil => rfl
  | cons c r ih =>
    have skipped : (if c = ':' then findingAfter? r else none) = none := by
      split
      · next colon =>
        subst colon
        exact findingAfter?_none plain.head
      · rfl
    rw [finding?, skipped]
    exact ih plain.tail

/-! ## Remarks -/

/-- A remark of a linter on a place of a file. -/
structure Remark where
  file : Text
  line : Nat
  column : Nat
  severity : Text
  message : Text

namespace Remark

/-- The line of a report that a remark is printed in. -/
def text (r : Remark) : Text :=
  r.file ++ ':' :: ofNat r.line ++ ':' :: ofNat r.column ++ ": ".toList ++ r.severity ++
    ": ".toList ++ r.message

/-- A remark from which nothing is lost if it is printed in a line. -/
structure Printable (r : Remark) : Prop where
  file_unbroken : Unbroken r.file
  file_trimmed : trim r.file = r.file
  file_unnumbered : Unnumbered r.file
  small_line : r.line < Nat.pow 10 maxDigits
  small_column : r.column < Nat.pow 10 maxDigits
  severity_given : r.severity ≠ []
  severity_word : ∀ c ∈ r.severity, isWord c = true
  message_unbroken : Unbroken r.message
  message_trimmed : trim r.message = r.message

/-- The severity that a word stands for, in capital or small letters. -/
def named (word : Text) : Severity :=
  if word.map Char.toLower = "error".toList then .error
  else if word.map Char.toLower = "warning".toList then .warning
  else .information

/-- What an editor shows of a remark: its line counted from zero, its column as it is. -/
def diagnostic (r : Remark) : EditorDiagnostic :=
  { start := ⟨r.line - 1, r.column⟩
    stop := ⟨r.line - 1, r.column⟩
    severity := named r.severity
    message := r.message
    source := "solium".toList
    code := none }

/-- A word stands for its severity in any letters. -/
theorem ofLabel_word {word : Text} (letters : ∀ c ∈ word, isWord c = true) :
    Severity.ofLabel word = named word := by
  have error : lower word = "error".toList ↔ word.map Char.toLower = "error".toList :=
    lower_eq_iff (by decide)
  have warning : lower word = "warning".toList ↔ word.map Char.toLower = "warning".toList :=
    lower_eq_iff (by decide)
  unfold Severity.ofLabel named
  rw [trim_word letters]
  simp only [error, warning]

variable {r : Remark}

/-- What a printed remark ends with: a message with a blank in front of it, or nothing. -/
def ending (r : Remark) : Text := if r.message = [] then [] else ' ' :: r.message

/-- What a line has of a printed remark up to its message. -/
def place (r : Remark) : Text :=
  ofNat r.line ++ ':' :: (ofNat r.column ++ ':' :: ' ' :: (r.severity ++ ':' :: r.ending))

theorem trimStart_ending (h : r.Printable) : trimStart r.ending = r.message := by
  unfold ending
  split
  · next none => rw [none]; rfl
  · next given =>
    obtain ⟨c, t, shape, first⟩ := cons_of_trimmed given h.message_trimmed
    rw [shape]
    exact trimStart_append (List.forall_mem_singleton.mpr rfl) first t

/-- What is behind the file of a printed remark says what it is. -/
theorem findingAfter?_place (h : r.Printable) :
    findingAfter? r.place = some ⟨ofNat r.line, ofNat r.column, r.severity, r.message⟩ := by
  rw [place, Lint.findingAfter?_place _ _ h.severity_given h.severity_word, trimStart_ending h]

/-- The line of a remark loses at most the blank in front of an empty message. -/
theorem trim_text (h : r.Printable) : trim r.text = r.file ++ ':' :: r.place := by
  have begins : ∃ c t, r.file ++ ':' :: r.place = c :: t ∧ isBlank c = false := by
    cases shape : r.file with
    | nil => exact ⟨':', r.place, rfl, rfl⟩
    | cons c t =>
      obtain ⟨x, s, shape', first⟩ := cons_of_trimmed (shape ▸ List.cons_ne_nil c t) h.file_trimmed
      obtain ⟨rfl, -⟩ := List.cons.inj (shape.symm.trans shape')
      exact ⟨c, _, rfl, first⟩
  obtain ⟨c, t, shape, first⟩ := begins
  by_cases none : r.message = []
  · -- The blank behind the last colon goes.
    have line : r.text = r.file ++ ':' :: r.place ++ [' '] := by
      simp [text, place, ending, none]
    have ends : EndsPlain (r.file ++ ':' :: r.place) := by
      intro x last
      have behind : r.file ++ ':' :: r.place =
          r.file ++ ':' :: ofNat r.line ++ ':' :: ofNat r.column ++ ": ".toList ++
            r.severity ++ [':'] := by
        simp [place, ending, none]
      rw [behind, List.getLast?_concat] at last
      obtain rfl := Option.some.inj last
      rfl
    rw [line, shape]
    rw [shape] at ends
    have trimmed :=
      trim_append blanks_nil (List.forall_mem_singleton.mpr (show isBlank ' ' = true from rfl))
        first ends
    simpa using trimmed
  · have line : r.text = r.file ++ ':' :: r.place := by
      simp [text, place, ending, none]
    have ends : EndsPlain r.text := EndsPlain.append (.of_trimmed h.message_trimmed) none _
    rw [line, shape] at ends ⊢
    exact trim_eq_self first ends

/-- **A printed remark is read back.** -/
theorem finding?_text (h : r.Printable) :
    finding? (trim r.text) = some ⟨ofNat r.line, ofNat r.column, r.severity, r.message⟩ := by
  rw [trim_text h, finding?_append h.file_unnumbered (findingAfter?_place h)]

/-- What is read back is shown as the remark is. -/
theorem toEditor_finding (h : r.Printable) :
    Finding.toEditor ⟨ofNat r.line, ofNat r.column, r.severity, r.message⟩ = .ok r.diagnostic := by
  have line : ((r.line : Int) - 1).toNat = r.line - 1 := by omega
  simp only [Finding.toEditor, readInt?_ofNat h.small_line, readInt?_ofNat h.small_column,
    ofLabel_word h.severity_word,
    EditorDiagnostic.at, line, Int.toNat_natCast, Int.toNat_zero, Nat.add_zero]
  rfl

theorem unbroken_text (h : r.Printable) : Unbroken r.text := by
  have number (n : Nat) := (numeral_ofNat n).unbroken
  have severity : Unbroken r.severity :=
    fun c mem => isBreak_of_not_blank (isBlank_of_word (h.severity_word c mem))
  unfold text
  simp only [unbroken_append, unbroken_cons]
  exact ⟨⟨⟨⟨⟨⟨h.file_unbroken, rfl, number _⟩, rfl, number _⟩, by decide⟩, severity⟩, by decide⟩,
    h.message_unbroken⟩

end Remark

/-! ## Reports -/

/-- A line of a report: a remark, or anything else. -/
inductive ReportLine where
  | remark (r : Remark)
  | other (t : Text)

namespace ReportLine

/-- The line as it is printed. -/
def text : ReportLine → Text
  | .remark r => r.text
  | .other t => t

/-- What is read from the line. -/
def read? (l : ReportLine) : Option Finding := finding? (trim l.text)

/-- What an editor shows of a line. -/
def diagnostic? : ReportLine → Option EditorDiagnostic
  | .remark r => some r.diagnostic
  | .other _ => none

/-- A remark that can be printed, or a line in which no digit stands behind a colon. -/
def WellFormed : ReportLine → Prop
  | .remark r => r.Printable
  | .other t => Unbroken t ∧ Unnumbered t

variable {l : ReportLine}

theorem WellFormed.unbroken (h : l.WellFormed) : Unbroken l.text := by
  cases l with
  | remark r => exact Remark.unbroken_text h
  | other t => exact h.1

/-- **What is read from lines is shown as the lines are.** -/
theorem read_lines {lines : List ReportLine} (formed : ∀ l ∈ lines, l.WellFormed) :
    (lines.filterMap read?).mapM Finding.toEditor = .ok (lines.filterMap diagnostic?) := by
  induction lines with
  | nil => rfl
  | cons l lines ih =>
    obtain ⟨here, rest⟩ := List.forall_mem_cons.mp formed
    cases l with
    | remark r =>
      have found : read? (.remark r) = _ := Remark.finding?_text here
      rw [List.filterMap_cons_some found, List.mapM_cons, Remark.toEditor_finding here, ih rest]
      rfl
    | other t =>
      have nothing : read? (.other t) = none :=
        finding?_unnumbered (here.2.of_inside (trim_inside t))
      rw [List.filterMap_cons_none nothing, ih rest]
      rfl

end ReportLine

/-- A report: its lines with a line feed between each two of them, and perhaps one at the end. -/
def report (lines : List ReportLine) (ended : Bool) : Text :=
  join ['\n'] (lines.map ReportLine.text) ++ (if ended then ['\n'] else [])

/-- **A report of lines is read back**: each remark is shown, in order, and nothing else. -/
theorem readReport_remarks (root : Option Text) (rules : Fields) (lines : List ReportLine)
    (ended : Bool) (formed : ∀ l ∈ lines, l.WellFormed) :
    Linter.readReport { name := .solium, root, rules } (report lines ended) =
      .ok (lines.filterMap ReportLine.diagnostic?) := by
  have found : (Text.lines (report lines ended)).filterMap (fun l => finding? (trim l)) =
      lines.filterMap ReportLine.read? := by
    have plain : ∀ t ∈ lines.map ReportLine.text, Unbroken t :=
      List.forall_mem_map.mpr fun l mem => (formed l mem).unbroken
    rw [report, filterMap_lines_join rfl plain (by cases ended <;> simp), List.filterMap_map]
    rfl
  show readFindings (report lines ended) = _
  rw [readFindings, found, ReportLine.read_lines formed]

/-- A report with colons in a file and in a message, a remark with an empty message on line zero,
and other lines. -/
def mixedReport : List ReportLine :=
  [.other "contracts: 2 files".toList,
    .remark ⟨"C:\\a b.sol".toList, 12, 3, "WARNING".toList, "use 'x': not y:1:2: z: w".toList⟩,
    .other [],
    .remark ⟨[], 0, 0, "Error".toList, []⟩]

/-- Both remarks of it are read back. -/
theorem mixedReport_read :
    (∀ l ∈ mixedReport, l.WellFormed) ∧
      Linter.readReport { name := .solium }
        "contracts: 2 files\nC:\\a b.sol:12:3: WARNING: use 'x': not y:1:2: z: w\n\n:0:0: Error: \n".toList =
        .ok [⟨⟨11, 3⟩, ⟨11, 3⟩, .warning, "use 'x': not y:1:2: z: w".toList, "solium".toList, none⟩,
          ⟨⟨0, 0⟩, ⟨0, 0⟩, .error, [], "solium".toList, none⟩] := by
  have formed : ∀ l ∈ mixedReport, l.WellFormed := by
    simp only [mixedReport, List.forall_mem_cons, List.not_mem_nil, false_implies,
      implies_true, and_true]
    refine ⟨⟨by decide, by decide⟩, ?_, ⟨by decide, by decide⟩, ?_⟩
    all_goals
      exact ⟨by decide, by decide, by decide, small_number (by decide), small_number (by decide),
        by decide, by decide, by decide,
        by decide⟩
  exact ⟨formed, readReport_remarks none [] mixedReport true formed⟩

end Lint
end ContractCheck
