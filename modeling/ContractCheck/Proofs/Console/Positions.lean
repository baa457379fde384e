import ContractCheck.CommandLine.Commands
import ContractCheck.Proofs.Host.Performing
import ContractCheck.Proofs.Order.Stable
import ContractCheck.Proofs.Text.Lines
import ContractCheck.Proofs.Text.Numerals

/-! # Positions on the console

A diagnostic of the compiler counts lines and columns from one, an editor counts them from zero, and
the console counts them from one again.  So the console shows the position that the compiler gave,
with one for zero, in the stable order of positions (`Console.print_positions`).
-/
namespace ContractCheck

open ContractCheck.Action

/-! ## There and back -/

namespace Diagnostic

/-- The line that is shown. -/
def shownLine (d : Diagnostic) : Nat := max d.line 1

/-- The column that is shown. -/
def shownColumn (d : Diagnostic) : Nat := max d.column 1

/-- Whether a diagnostic may be shown before another one. -/
def notBehind (a b : Diagnostic) : Bool :=
  a.shownLine < b.shownLine || (a.shownLine == b.shownLine && a.shownColumn ≤ b.shownColumn)

/-- What the console calls a severity. -/
def shownSeverity (d : Diagnostic) : Text :=
  let word := Text.lower (Text.trim d.severity)
  if word = "error".toList then "error".toList
  else if word = "warning".toList then "warning".toList
  else "info".toList

/-- The line that is shown for a diagnostic in a file. -/
def shown (file : Text) (d : Diagnostic) : Text :=
  file ++ ':' :: Text.ofNat d.shownLine ++ ':' :: Text.ofNat d.shownColumn ++ ": ".toList ++
    d.shownSeverity ++ ": ".toList ++
    d.message ++ " [solc]".toList

/-- A range of an editor that is about as many characters of one line as are underlined, from the
position that was given. -/
structure RangeOf (d : Diagnostic) (e : EditorDiagnostic) : Prop where
  line : e.start.line + 1 = d.shownLine
  column : e.start.character + 1 = d.shownColumn
  one_line : e.stop.line = e.start.line
  extent : e.stop.character = e.start.character + d.length

variable (d : Diagnostic) (source : Text)

theorem toEditor_line : (d.toEditor source).start.line = d.line - 1 := by
  show ((d.line : Int) - 1).toNat = d.line - 1
  omega

theorem toEditor_character : (d.toEditor source).start.character = d.column - 1 := by
  show ((d.column : Int) - 1).toNat = d.column - 1
  omega

theorem rangeOf_toEditor : d.RangeOf (d.toEditor source) where
  line := by
    rw [toEditor_line, shownLine]
    omega
  column := by
    rw [toEditor_character, shownColumn]
    omega
  one_line := rfl
  extent := rfl

theorem label_toEditor : Console.label (d.toEditor source).severity = d.shownSeverity := by
  show Console.label (Severity.ofLabel d.severity) = _
  unfold Severity.ofLabel shownSeverity
  dsimp only
  split
  · rfl
  · split <;> rfl

/-- The console shows a diagnostic as the compiler gave it. -/
theorem diagnosticLine_toEditor (file : Text) :
    Console.diagnosticLine false file (d.toEditor compilerSource) = d.shown file := by
  have range := d.rangeOf_toEditor compilerSource
  have ending : " [".toList ++ (compilerSource ++ [']']) = " [solc]".toList := rfl
  unfold Console.diagnosticLine shown
  rw [label_toEditor, range.line, range.column, ← ending]
  simp only [Bool.false_eq_true, if_false, List.append_assoc, toEditor, EditorDiagnostic.at]

/-- There are no breaks in a line but those of the file's name and the message. -/
theorem unbroken_shown {file : Text} (file_plain : Text.Unbroken file)
    {d : Diagnostic} (message_plain : Text.Unbroken d.message) :
    Text.Unbroken (d.shown file) := by
  have number (n : Nat) := (Text.numeral_ofNat n).unbroken
  have severity : Text.Unbroken d.shownSeverity := by
    unfold shownSeverity
    dsimp only
    split
    · decide
    · split <;> decide
  unfold shown
  simp only [Text.unbroken_append, Text.unbroken_cons]
  exact ⟨⟨⟨⟨⟨⟨⟨file_plain, rfl, number _⟩, rfl, number _⟩, by decide⟩, severity⟩, by decide⟩,
    message_plain⟩, by decide⟩

end Diagnostic

/-! ## The order of positions -/

namespace Diagnostic

theorem notBehind_iff {a b : Diagnostic} : a.notBehind b = true ↔
    a.shownLine < b.shownLine ∨ a.shownLine = b.shownLine ∧ a.shownColumn ≤ b.shownColumn := by
  simp only [notBehind, Bool.or_eq_true, Bool.and_eq_true, decide_eq_true_eq, beq_iff_eq]

theorem ranking_notBehind : Ranking notBehind where
  trans a b c first second := by
    rw [notBehind_iff] at first second ⊢
    omega
  total a b := by
    rw [Bool.or_eq_true, notBehind_iff, notBehind_iff]
    omega

/-- The console orders diagnostics as they are ordered by what is shown. -/
theorem notAfter_toEditor (a b : Diagnostic) (source : Text) :
    Console.notAfter (a.toEditor source) (b.toEditor source) = a.notBehind b := by
  rw [Bool.eq_iff_iff, notBehind_iff]
  simp only [Console.notAfter, Bool.or_eq_true, Bool.and_eq_true, decide_eq_true_eq, beq_iff_eq]
  have ra := a.rangeOf_toEditor source
  have rb := b.rangeOf_toEditor source
  rw [← ra.line, ← ra.column, ← rb.line, ← rb.column]
  omega

end Diagnostic

/-! ## Printing -/

namespace Console

/-- Lines as they are printed, each with a line feed. -/
def printed (lines : List Text) : Text := lines.flatMap (· ++ ['\n'])

/-- The listing shows the diagnostics in the order of what is shown. -/
theorem listing_toEditor (file : Text) (ds : List Diagnostic) :
    listing false file (ds.map (·.toEditor compilerSource)) =
    (ds.mergeSort Diagnostic.notBehind).map (Diagnostic.shown file) := by
  have ordered := List.map_mergeSort (r := Diagnostic.notBehind) (s := notAfter)
    (f := (·.toEditor compilerSource)) (l := ds)
    fun a _ b _ => (Diagnostic.notAfter_toEditor a b compilerSource).symm
  rw [listing, ← ordered, List.map_map]
  exact List.map_congr_left fun d _ => d.diagnosticLine_toEditor file

/-- The lines that are said are printed. -/
theorem perform_say (lines : List Text) (h : Host) :
    (do for line in lines do CommandLine.say line : Action Unit).perform h =
      (.ok ⟨⟩, { h with printed := h.printed ++ printed lines }) := by
  suffices looped : ∀ h : Host, (forIn lines PUnit.unit fun line _ => do
      CommandLine.say line
      pure (ForInStep.yield PUnit.unit) : Action PUnit).perform h =
        (.ok ⟨⟩, { h with printed := h.printed ++ printed lines }) from perform_bind_ok (looped h)
  induction lines with
  | nil => exact fun h => by simp [printed]
  | cons line lines ih =>
    intro h
    have first : (CommandLine.say line).perform h =
      (.ok ⟨⟩, { h with printed := h.printed ++ (line ++ ['\n']) }) := rfl
    rw [List.forIn_cons, bind_assoc, perform_bind_ok first, pure_bind, ih]
    simp only [printed, List.flatMap_cons, List.append_assoc]

/-- Printed lines without breaks are read as these lines. -/
theorem lines_printed {lines : List Text} (plain : ∀ line ∈ lines, Text.Unbroken line) :
    Text.lines (printed lines) = lines := by
  induction lines with
  | nil => rfl
  | cons line lines ih =>
    obtain ⟨here, rest⟩ := List.forall_mem_cons.mp plain
    rw [printed, List.flatMap_cons, List.append_assoc, List.singleton_append,
      Text.lines_append_feed here]
    exact congrArg (line :: ·) (ih rest)

/-- **Positions survive both changes of base.**  Diagnostics of the compiler that are shown on the
console in an editor's form are shown one to a line, each with the position that the compiler gave
(one for zero) and the name of its severity, in the stable order of these positions; and an editor's
range is about as many characters of one line as the compiler underlined. -/
theorem print_positions (file : Text) (ds : List Diagnostic) (h : Host) :
    ∃ sorted, StablySorted Diagnostic.notBehind ds sorted ∧
      (∀ other, StablySorted Diagnostic.notBehind ds other → other = sorted) ∧
      (do for line in listing false file (ds.map (·.toEditor compilerSource)) do
            CommandLine.say line : Action Unit).perform h =
        (.ok ⟨⟩, { h with printed := h.printed ++ printed (sorted.map (Diagnostic.shown file)) }) ∧
      (Text.Unbroken file → (∀ d ∈ ds, Text.Unbroken d.message) →
        Text.lines (printed (sorted.map (Diagnostic.shown file))) =
          sorted.map (Diagnostic.shown file)) ∧
      ∀ d ∈ ds, d.RangeOf (d.toEditor compilerSource) := by
  have sorts := stablySorted_mergeSort Diagnostic.ranking_notBehind ds
  refine ⟨ds.mergeSort Diagnostic.notBehind, sorts, fun other sorts' =>
    sorts'.unique Diagnostic.ranking_notBehind sorts, ?_,
    fun file_plain messages_plain => lines_printed ?_, fun d _ => d.rangeOf_toEditor compilerSource⟩
  · rw [perform_say, listing_toEditor]
  · intro line mem
    obtain ⟨d, listed, rfl⟩ := List.mem_map.mp mem
    exact Diagnostic.unbroken_shown file_plain (messages_plain d (sorts.perm.mem_iff.mp listed))

/-- Diagnostics at position zero and at one position. -/
def tied : List Diagnostic :=
  [⟨"Error".toList, "b".toList, "A.sol".toList, "A.sol".toList, 2, 1, 3⟩,
    ⟨"note".toList, "a".toList, "A.sol".toList, "A.sol".toList, 0, 0, 0⟩,
    ⟨" WARNING".toList, "c".toList, "A.sol".toList, "A.sol".toList, 2, 0, 0⟩]

/-- They are shown with one for zero, and the two at one position in their order. -/
theorem tied_printed :
    Text.Unbroken "A.sol".toList ∧ (∀ d ∈ tied, Text.Unbroken d.message) ∧
      ∃ lines, lines = ["A.sol:1:1: info: a [solc]".toList, "A.sol:2:1: error: b [solc]".toList,
          "A.sol:2:1: warning: c [solc]".toList] ∧
        (do for line in listing false "A.sol".toList (tied.map (·.toEditor compilerSource)) do
              CommandLine.say line : Action Unit).perform {} =
          (.ok ⟨⟩, { printed := printed lines }) ∧
        Text.lines (printed lines) = lines := by
  have file_plain : Text.Unbroken "A.sol".toList := by decide
  have messages_plain : ∀ d ∈ tied, Text.Unbroken d.message := by decide
  obtain ⟨sorted, -, unique, shown, lines, -⟩ := print_positions "A.sol".toList tied {}
  have order : [tied[1], tied[0], tied[2]] = sorted :=
    unique _ (.of_mem Diagnostic.ranking_notBehind (by decide) (by decide) (by decide))
  refine ⟨file_plain, messages_plain, sorted.map (Diagnostic.shown "A.sol".toList), ?_, shown,
    lines file_plain messages_plain⟩
  rw [← order]
  decide

end Console
end ContractCheck
