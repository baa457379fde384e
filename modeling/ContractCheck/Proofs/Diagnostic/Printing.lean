import ContractCheck.Proofs.Diagnostic.Isolation
import ContractCheck.Proofs.Diagnostic.Origin

/-! # Reading undoes printing

The compiler prints a notice as a block of five lines, the blocks of a report with a blank line
between them, and perhaps a line break at the end.  What is read from a report are the notices it
was printed from, in order (`read_printed`).  Messages and names may hold colons, arrows, carets and
blanks, as long as no line break is among them: the first colon of a header ends the severity, and
the last two of a location are in front of its numbers.
-/
namespace ContractCheck

open Text Layout

/-- A problem as the compiler prints it.  The name of the file may have the marker of staged copies
in front of it, and a colon may end the location. -/
structure Notice where
  severity : Text
  message : Text
  name : Text
  line : Nat
  column : Nat
  third : Text
  fourth : Text
  underline : Text
  marked : Bool
  closed : Bool

namespace Notice

variable (l : Layout) (n : Notice)

def header : Text := n.severity ++ (':' :: ' ' :: n.message)

/-- The name as it is printed. -/
def file : Text := (if n.marked then l.marker else []) ++ n.name

def colon : Text := if n.closed then [':'] else []

def location : Text :=
  "  --> ".toList ++ (n.file l ++ ':' :: ofNat n.line ++ ':' :: ofNat n.column ++ n.colon)

def lines : List Text := [n.header, n.location l, n.third, n.fourth, n.underline]

/-- The block of a notice. -/
def block (p : Platform) : Text := join p.lineBreak (n.lines l)

/-- What a reader makes of the notice. -/
def diagnostic : Diagnostic :=
  { severity := n.severity, message := n.message, file := n.name, path := n.name, line := n.line,
    column := n.column, length := n.underline.count '^' }

end Notice

namespace ReportReader

/-- A printed report. -/
def report (r : ReportReader) (notices : List Notice) (finished : Bool) : Text :=
  join r.platform.blockBreak (notices.map fun n => n.block r.layout r.platform)
    ++ if finished then r.platform.lineBreak else []

end ReportReader

/-! ## What can be printed -/

namespace Text

/-- A text within one line. -/
def InLine (t : Text) : Prop := '\r' ∉ t ∧ '\n' ∉ t

theorem InLine.append {t u : Text} (h : t.InLine) (h' : u.InLine) : (t ++ u).InLine :=
  ⟨by simp [h.1, h'.1], by simp [h.2, h'.2]⟩

theorem InLine.cons {t : Text} (h : t.InLine) {c : Char} (plain : c ≠ '\r' ∧ c ≠ '\n') :
    InLine (c :: t) :=
  ⟨by simp [h.1, plain.1.symm], by simp [h.2, plain.2.symm]⟩

theorem inLine_ofNat (n : Nat) : (ofNat n).InLine :=
  ⟨(numeral_ofNat n).not_mem rfl, (numeral_ofNat n).not_mem rfl⟩

/-- Within a line there is no line break. -/
theorem InLine.free {t : Text} (h : t.InLine) (p : Platform) : ¬ p.lineBreak <:+: t := fun inside =>
  h.2 (inside.subset (by cases p <;> simp [Platform.lineBreak]))

end Text

/-- A marker that is read back in front of a name: a character, or what does not look like a
directory or a blank. -/
structure Layout.Marks (l : Layout) : Prop where
  inLine : l.marker.InLine
  plain : (∃ c, l.marker = [c]) ∨
    (∀ c ∈ l.marker, isSlash c = false) ∧ ∀ c, l.marker.head? = some c → isBlank c = false

namespace Notice

/-- A notice from which nothing is lost if it is printed. -/
structure Printable (l : Layout) (n : Notice) : Prop where
  severity_given : n.severity ≠ []
  severity_trimmed : trim n.severity = n.severity
  severity_bare : ':' ∉ n.severity
  message_trimmed : trim n.message = n.message
  name : IsName n.name
  unmarked : l.stripMarker n.name = n.name
  marks : n.marked = true → l.Marks
  small_line : n.line < Nat.pow 10 maxDigits
  small_column : n.column < Nat.pow 10 maxDigits
  third_given : n.third ≠ []
  fourth_given : n.fourth ≠ []
  underline_given : n.underline ≠ []
  inLine : ∀ t ∈ [n.severity, n.message, n.name, n.third, n.fourth, n.underline], t.InLine

end Notice

/-! ## Location lines -/

namespace Layout

variable {l : Layout} {name t : Text}

/-- A printed reference to a file: what stands behind its blanks has no directory, and without the
marker it is the name. -/
inductive Refers (l : Layout) (name : Text) : Text → Prop where
  | behind {lead r : Text} {c : Char} (blanks : Blanks lead) (first : isBlank c = false)
      (ends : EndsPlain (c :: r))
      (bare : (splitPath (c :: r)).1 = [])
      (named : l.stripMarker (trim (splitPath (c :: r)).2) = name) :
      Refers l name (lead ++ c :: r)

theorem splitPath_of_bare (bare : ∀ c ∈ t, isSlash c = false) : splitPath t = ([], t) := by
  rw [splitPath, cutLastWhere_eq_none bare]
  rfl

/-- A text without blanks around it and without slashes refers to what is left of it without the
marker. -/
theorem refers_of_bare (given : t ≠ []) (trimmed : trim t = t) (bare : ∀ c ∈ t, isSlash c = false) :
    l.Refers (l.stripMarker t) t := by
  obtain ⟨c, r, rfl, first⟩ := cons_of_trimmed given trimmed
  have cut := splitPath_of_bare bare
  exact .behind blanks_nil first (.of_trimmed trimmed) (by rw [cut]) (by rw [cut, trimmed])

theorem Refers.blank (h : l.Refers name t) {c : Char} (blank : isBlank c = true) :
    l.Refers name (c :: t) := by
  obtain ⟨blanks, first, ends, bare, named⟩ := h
  exact .behind (List.forall_mem_cons.mpr ⟨blank, blanks⟩) first ends bare named

/-- A name in the root directory is taken for the bare name. -/
theorem refers_of_slash (h : IsName name) (unmarked : l.stripMarker name = name) {c : Char}
    (slash : isSlash c = true) : l.Refers name (c :: name) := by
  have visible : isBlank c = false := by
    have either : c = '/' ∨ c = '\\' := by simpa [isSlash] using slash
    rcases either with rfl | rfl <;> rfl
  have cut : splitPath (c :: name) = ([], name) := by
    rw [splitPath, ← List.nil_append (c :: name), cutLastWhere_append slash h.bare]
    rfl
  exact .behind blanks_nil visible (endsPlain_cons visible h.endsPlain) (by rw [cut])
    (by rw [cut, h.trimmed, unmarked])

/-- A marked name refers to the name. -/
theorem Marks.refers (marks : l.Marks) (h : IsName name) (unmarked : l.stripMarker name = name) :
    l.Refers name (l.marker ++ name) := by
  have plain : l.Refers name name := by
    have refers := refers_of_bare (l := l) h.given h.trimmed h.bare
    rwa [unmarked] at refers
  have stripped : l.stripMarker (l.marker ++ name) = name := by
    simp [stripMarker, isTransient, startsWith]
  -- The marker is a part of what is read, unless it is a blank or a slash.
  have kept (bare : ∀ x ∈ l.marker, isSlash x = false) (visible : ∀ x, l.marker.head? = some x →
      isBlank x = false) :
      l.Refers name (l.marker ++ name) := by
    cases mark : l.marker with
    | nil => exact plain
    | cons x m =>
      rw [mark] at bare visible stripped
      have ends : EndsPlain (x :: m ++ name) := h.endsPlain.append h.given _
      have refers := refers_of_bare (l := l) (t := x :: m ++ name) (by simp)
        (trim_eq_self (visible x rfl) ends)
        (List.forall_mem_append.mpr ⟨bare, h.bare⟩)
      rwa [stripped] at refers
  rcases marks.plain with ⟨x, one⟩ | ⟨bare, visible⟩
  · by_cases blank : isBlank x = true
    · rw [one]
      exact plain.blank blank
    · by_cases slash : isSlash x = true
      · rw [one]
        exact refers_of_slash h unmarked slash
      · exact kept (by simpa [one] using slash) (by simpa [one] using blank)
  · exact kept bare visible

end Layout

namespace Notice

variable {l : Layout} {n : Notice}

theorem Printable.refers (h : n.Printable l) : l.Refers n.name (n.file l) := by
  rw [Notice.file]
  split
  · next marked => exact (h.marks marked).refers h.name h.unmarked
  · have refers := refers_of_bare (l := l) h.name.given h.name.trimmed h.name.bare
    rwa [h.unmarked] at refers

end Notice

/-- The place behind an arrow is read back, with a reference to the file. -/
theorem Layout.Refers.read {l : Layout} {name t colon : Text} (h : l.Refers name t)
    {line column : Nat} (lines : line < Nat.pow 10 maxDigits)
    (columns : column < Nat.pow 10 maxDigits) (optional : colon = [] ∨ colon = [':']) :
    ∃ file, Location.read ("  --> ".toList ++
      (t ++ ':' :: ofNat line ++ ':' :: ofNat column ++ colon))
        = .ok { file, line, column } ∧
      (splitPath file).1 = [] ∧ l.stripMarker (trim (splitPath file).2) = name := by
  obtain @⟨lead, r, c, blanks, first, ends, bare, named⟩ := h
  let f : Location.Frame :=
    { lead := [' ', ' '], arrow := Location.arrow ++ ' ' :: lead, colon, trail := []
      lead_blank := List.forall_mem_cons.mpr ⟨rfl, List.forall_mem_cons.mpr ⟨rfl, blanks_nil⟩⟩
      arrow_optional := .inr ⟨' ' :: lead, List.forall_mem_cons.mpr ⟨rfl, blanks⟩, rfl⟩
      colon_optional := optional
      trail_blank := blanks_nil }
  have read := f.read_line (c := c) (r := r) first (fun _ => by simp [f, Location.arrow])
    lines columns
  rw [trim_eq_self first ends] at read
  have shape : f.line (c :: (r ++ ':' :: ofNat line ++ ':' :: ofNat column))
      = "  --> ".toList ++ (lead ++ c :: r ++ ':' :: ofNat line ++ ':' :: ofNat column ++
        colon) := by
    simp [f, Location.Frame.line, Location.arrow]
  rw [shape] at read
  exact ⟨c :: r, read, bare, named⟩

/-! ## Blocks -/

/-- No directory is that of another tree. -/
theorem Layout.fromStagingDir_nil (l : Layout) : l.fromStagingDir [] = [] := by
  simp [fromStagingDir, swapSegment, swapBetween, replaceFirst, replaceLast]

namespace Notice

variable {r : ReportReader} {n : Notice}

theorem Printable.readHeader {l : Layout} (h : n.Printable l) :
    ReportReader.readHeader n.header = .ok (n.severity, n.message) := by
  have message : trim (' ' :: n.message) = trim n.message := by
    rw [trim, trimStart, List.dropWhile_cons_of_pos (by decide)]
    rfl
  have given := h.severity_given
  rw [ReportReader.readHeader, Notice.header, cutFirst_append h.severity_bare]
  simp [h.severity_trimmed, message, h.message_trimmed, given]

theorem Printable.readLines (h : n.Printable r.layout) (more : List Text) :
    r.readLines? (n.lines r.layout ++ more) = some (.ok n.diagnostic) := by
  have optional : n.colon = [] ∨ n.colon = [':'] := by
    cases closed : n.closed <;> simp [Notice.colon, closed]
  obtain ⟨file, read, bare, named⟩ := h.refers.read h.small_line h.small_column optional
  have source : r.sourceOf file = (n.name, n.name) := by
    rw [ReportReader.sourceOf]
    simp only [bare, named]
    rw [if_pos (.inl (fromStagingDir_nil r.layout))]
  rw [Notice.lines, List.cons_append, List.cons_append, List.cons_append, List.cons_append,
    List.cons_append,
    ReportReader.readLines?, ReportReader.readBlock, h.readHeader]
  dsimp only
  rw [Notice.location, read]
  dsimp only
  rw [source]
  rfl

/-- Every line of the block is given, and is no more than a line. -/
theorem Printable.lines (h : n.Printable r.layout) : ∀ t ∈ n.lines r.layout, t ≠ [] ∧ t.InLine := by
  obtain ⟨severity, message, name, third, fourth, underline⟩ :
      n.severity.InLine ∧ n.message.InLine ∧ n.name.InLine ∧ n.third.InLine ∧ n.fourth.InLine ∧
        n.underline.InLine := by
    simpa using h.inLine
  have header : n.header.InLine := severity.append ((message.cons (by decide)).cons (by decide))
  have file : (n.file r.layout).InLine := by
    rw [Notice.file]
    split
    · next marked => exact (h.marks marked).inLine.append name
    · exact name
  have location : (n.location r.layout).InLine := by
    have colon : n.colon.InLine := by
      cases closed : n.closed <;> simp [Notice.colon, closed, InLine]
    have place := ((file.append ((inLine_ofNat n.line).cons (c := ':') (by decide))).append
      ((inLine_ofNat n.column).cons (c := ':') (by decide))).append colon
    exact InLine.append (by unfold InLine; decide) place
  rw [Notice.lines]
  simp only [List.forall_mem_cons]
  exact ⟨⟨by simp [Notice.header], header⟩, ⟨by simp [Notice.location], location⟩,
    ⟨h.third_given, third⟩,
    ⟨h.fourth_given, fourth⟩, ⟨h.underline_given, underline⟩, nofun⟩

theorem lines_ne_nil (l : Layout) (more : List Text) : n.lines l ++ more ≠ [] :=
  List.cons_ne_nil _ _

/-- A line break may stand behind a block, and an empty line with it. -/
theorem Printable.within (h : n.Printable r.layout) {more : List Text}
    (empty : ∀ t ∈ more, t = []) :
    ∀ t ∈ n.lines r.layout ++ more, ¬ r.platform.lineBreak <:+: t := by
  intro t mem
  rcases List.mem_append.mp mem with mem | mem
  · exact (h.lines t mem).2.free r.platform
  · obtain rfl := empty t mem
    exact fun inside => r.platform.lineBreak_ne_nil (List.eq_nil_of_infix_nil inside)

theorem Printable.linesOf (h : n.Printable r.layout) {more : List Text}
    (empty : ∀ t ∈ more, t = []) :
    r.linesOf (join r.platform.lineBreak (n.lines r.layout ++ more)) =
      n.lines r.layout ++ more := by
  -- The severity comes first, and it is no line break.
  have first : (join r.platform.lineBreak (n.lines r.layout ++ more)).dropWhile
      (fun c => c == '\r' || c == '\n')
      = join r.platform.lineBreak (n.lines r.layout ++ more) := by
    obtain ⟨c, s, shape⟩ := List.exists_cons_of_ne_nil h.severity_given
    have inLine : InLine (c :: s) := shape ▸ h.inLine _ List.mem_cons_self
    have other : ¬ (c == '\r' || c == '\n') = true := by
      simp only [InLine, List.mem_cons, not_or] at inLine
      simp [Ne.symm inLine.1.1, Ne.symm inLine.2.1]
    rw [Notice.lines, List.cons_append, List.cons_append, join, Notice.header, shape]
    exact List.dropWhile_cons_of_neg other
  rw [ReportReader.linesOf, first, Platform.splitOn_lines (lines_ne_nil _ _) (h.within empty)]

/-- A block is one block, as no line of it is empty, or only the last one. -/
theorem Printable.blocks (h : n.Printable r.layout) {more : List Text}
    (single : more = [] ∨ more = [[]]) :
    r.blocks (join r.platform.lineBreak (n.lines r.layout ++ more)) = [.ok n.diagnostic] := by
  have empty : ∀ t ∈ more, t = [] := by rcases single with rfl | rfl <;> simp
  have inside : ∀ t ∈ (n.lines r.layout ++ more).dropLast, t ∈ n.lines r.layout := by
    rcases single with rfl | rfl
    · rw [List.append_nil]
      exact List.dropLast_subset _
    · rw [List.dropLast_concat]
      exact List.Subset.refl _
  have given : [] ∉ (n.lines r.layout ++ more).dropLast :=
    fun early => (h.lines _ (inside _ early)).1 rfl
  rw [ReportReader.blocks, Platform.splitOn_block (lines_ne_nil _ _) (h.within empty) given]
  simp only [List.filterMap_cons, List.filterMap_nil, h.linesOf empty, h.readLines more]

/-- No line break ends a block. -/
theorem Printable.ends (h : n.Printable r.layout) :
    endsWith (n.block r.layout r.platform) r.platform.lineBreak = false :=
  Platform.endsWith_lines (List.cons_ne_nil _ _) (fun t mem => (h.lines t mem).2.free r.platform)
    fun last => h.underline_given (Option.some.inj last)

theorem block_append_lineBreak (l : Layout) (p : Platform) :
    n.block l p ++ p.lineBreak = join p.lineBreak (n.lines l ++ [[]]) := by
  simp [Notice.block, Notice.lines, join]

/-- The last block of a report is read with the line break behind it. -/
theorem Printable.blocks_last (h : n.Printable r.layout) (finished : Bool) :
    r.blocks (n.block r.layout r.platform ++ if finished then r.platform.lineBreak else []) =
      [.ok n.diagnostic] := by
  cases finished with
  | true =>
    rw [if_pos rfl, block_append_lineBreak]
    exact h.blocks (.inr rfl)
  | false =>
    have read := h.blocks (.inl rfl)
    rw [List.append_nil] at read
    rwa [if_neg Bool.false_ne_true, List.append_nil]

/-- A block alone is read as its notice. -/
theorem Printable.read (h : n.Printable r.layout) :
    r.read [n.block r.layout r.platform] = [n.diagnostic] := by
  have blocks := h.blocks_last false
  rw [if_neg Bool.false_ne_true, List.append_nil] at blocks
  rw [ReportReader.read_single, blocks]
  rfl

end Notice

/-! ## Reports -/

namespace ReportReader

/-- **Reading undoes printing**: from a printed report the notices are read that it was printed
from. -/
theorem read_printed (r : ReportReader) {notices : List Notice}
    (printable : ∀ n ∈ notices, n.Printable r.layout)
    (finished : Bool) : r.read [r.report notices finished] = notices.map Notice.diagnostic := by
  induction notices with
  | nil =>
    obtain ⟨platform, layout, cwd⟩ := r
    cases platform <;> cases finished <;> rfl
  | cons n notices ih =>
    obtain ⟨here, behind⟩ := List.forall_mem_cons.mp printable
    cases notices with
    | nil =>
      rw [read_single, report, List.map_cons, List.map_nil, join, here.blocks_last finished]
      rfl
    | cons m notices =>
      rw [report, List.map_cons, List.map_cons, join, List.append_assoc, List.append_assoc,
        r.read_join here.ends, here.read, List.map_cons, ← ih behind]
      rfl

/-! A report on a copy and on a file of the same directory. -/

theorem marks_default : Layout.Marks {} where
  inLine := by unfold InLine; decide
  plain := .inl ⟨'~', rfl⟩

/-- A message with a place in it, about a name with a colon. -/
def misleading : Notice :=
  { severity := "Warning --> 1".toList, message := "see ^ --> ~B.sol:1:2:: it's \u2028 here".toList,
    name := "-->: A ~.sol".toList, line := 10, column := 0, third := " ".toList,
    fourth := ":".toList,
    underline := "^ ^^|".toList, marked := true, closed := true }

/-- Little more than a place. -/
def bare : Notice :=
  { severity := "e".toList, message := [], name := "B".toList, line := 0, column := 7,
    third := "|".toList,
    fourth := "|".toList, underline := "-".toList, marked := false, closed := false }

theorem misleading_printable : misleading.Printable {} where
  severity_given := by decide
  severity_trimmed := by decide +kernel
  severity_bare := by decide
  message_trimmed := by decide +kernel
  name := ⟨by decide, by decide +kernel, eq_false_of_any (by decide +kernel)⟩
  unmarked := by decide +kernel
  marks _ := marks_default
  small_line := small_number (by decide)
  small_column := small_number (by decide)
  third_given := by decide
  fourth_given := by decide
  underline_given := by decide
  inLine := by unfold InLine; decide +kernel

theorem bare_printable : bare.Printable {} where
  severity_given := by decide
  severity_trimmed := by decide +kernel
  severity_bare := by decide
  message_trimmed := by decide +kernel
  name := ⟨by decide, by decide +kernel, eq_false_of_any (by decide +kernel)⟩
  unmarked := by decide +kernel
  marks _ := marks_default
  small_line := small_number (by decide)
  small_column := small_number (by decide)
  third_given := by decide
  fourth_given := by decide
  underline_given := by decide
  inLine := by unfold InLine; decide +kernel

/-- Both notices are read back as they are. -/
theorem read_misleading :
    (∀ n ∈ [misleading, bare], n.Printable {}) ∧
      (let r : ReportReader := { platform := .windows, cwd := "/home".toList }
       r.report [misleading, bare] true
          =
            ("Warning --> 1: see ^ --> ~B.sol:1:2:: it's \u2028 here\r\n  --> ~-->: A ~.sol:10:0:\r\n \r\n:\r\n^ ^^|" ++
              "\r\n\r\ne: \r\n  --> B:0:7\r\n|\r\n|\r\n-\r\n").toList ∧
        r.read [r.report [misleading, bare] true]
          =
            [{ severity := "Warning --> 1".toList,
               message := "see ^ --> ~B.sol:1:2:: it's \u2028 here".toList,
               file := "-->: A ~.sol".toList, path := "-->: A ~.sol".toList, line := 10,
               column := 0, length := 3 },
             { severity := "e".toList, message := [], file := "B".toList, path := "B".toList,
               line := 0, column := 7, length := 0 }]) := by
  have printable : ∀ n ∈ [misleading, bare], n.Printable {} :=
    List.forall_mem_cons.mpr ⟨misleading_printable,
      List.forall_mem_cons.mpr ⟨bare_printable, nofun⟩⟩
  refine ⟨printable, by decide +kernel, ?_⟩
  exact (read_printed { platform := .windows, cwd := "/home".toList } printable true).trans
    (by decide +kernel)

end ReportReader
end ContractCheck
