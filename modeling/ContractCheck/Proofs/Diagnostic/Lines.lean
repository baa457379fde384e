import ContractCheck.Proofs.Diagnostic.Printing
import Mathlib.Data.List.TakeWhile

/-! # Which lines of a block matter

Of the five lines of a block three are looked at: the header, the location, and how many carets the
last line has.  But blocks are told apart before their lines are, so a block in which a line of
context is empty is taken for two, both too short to be one, and nothing is read from it
(`read_block`).  And lines are counted after the text is split, so a line break that ends the output
adds an empty line to its last block: a block with one line too few has enough of them then
(`read_lineBreak`).
-/
namespace ContractCheck

open Text

namespace ReportReader

variable {r : ReportReader}

/-! ## Blocks with few lines -/

/-- The line breaks in front of a block. -/
abbrev leadingBreak (c : Char) : Bool := c == '\r' || c == '\n'

theorem isBlank_of_leadingBreak {c : Char} (here : leadingBreak c = true) : isBlank c = true := by
  simp only [Bool.or_eq_true, beq_iff_eq] at here
  rcases here with rfl | rfl <;> rfl

theorem readLines?_of_short {lines : List Text} (short : lines.length < minLines) :
    r.readLines? lines = none := by
  rw [← Option.isNone_iff_eq_none, ← Option.not_isSome, r.isSome_readLines?]
  simpa using short

/-- **A text with fewer lines than a block holds nothing**, however it falls into blocks. -/
theorem blocks_of_short {t : Text} (short : (splitOn r.platform.lineBreak t).length < minLines) :
    r.blocks t = [] := by
  refine List.filterMap_eq_nil_iff.mpr fun b mem =>
    readLines?_of_short (Nat.lt_of_le_of_lt ?_ short)
  have inside : b.dropWhile leadingBreak <:+: t :=
    (List.dropWhile_suffix _).isInfix.trans (within_of_mem_splitOn r.platform.blockBreak_ne_nil mem)
  exact length_splitOn_within inside

/-! ## Blocks with lines of context -/

/-- The five lines of a block. -/
structure Block where
  header : Text
  location : Text
  context : Text
  source : Text
  underline : Text

namespace Block

def lines (b : Block) : List Text := [b.header, b.location, b.context, b.source, b.underline]

/-- The block as it stands in a report. -/
def text (b : Block) (p : Platform) : Text := join p.lineBreak b.lines

/-- A block that follows the rules: its header begins with a severity, its location names a place,
and its lines are no more than lines.  Of the lines of context nothing is asked. -/
structure WellFormed (p : Platform) (severity message : Text) (place : Location) (b : Block) :
    Prop where
  header : b.header = severity ++ ':' :: message
  severity_bare : ':' ∉ severity
  severity_given : trim severity ≠ []
  location : Location.read b.location = .ok place
  within : ∀ line ∈ b.lines, ¬ p.lineBreak <:+: line

/-- What the header, the place and a number of carets say. -/
def diagnostic (r : ReportReader) (severity message : Text) (place : Location) (carets : Nat) :
    Diagnostic :=
  { severity := trim severity, message := trim message, file := (r.sourceOf place.file).1,
    path := (r.sourceOf place.file).2, line := place.line, column := place.column,
    length := carets }

variable {b : Block} {severity message : Text} {place : Location}

/-- A few lines hold nothing. -/
theorem blocks_of_lines {lines : List Text} (some : lines ≠ []) (short : lines.length < minLines)
    (within : ∀ line ∈ lines, ¬ r.platform.lineBreak <:+: line) :
    r.blocks (join r.platform.lineBreak lines) = [] :=
  blocks_of_short (by rwa [Platform.splitOn_lines some within])

/-- Line breaks in front of a header are no part of its severity. -/
theorem readHeader_dropBreaks {header : Text} (shape : header = severity ++ ':' :: message)
    (bare : ':' ∉ severity) (given : trim severity ≠ []) :
    readHeader (header.dropWhile leadingBreak) = .ok (trim severity, trim message) := by
  have front : header.dropWhile leadingBreak = severity.dropWhile leadingBreak ++
      ':' :: message := by
    rw [shape, List.dropWhile_append]
    split
    · next none =>
        rw [List.isEmpty_iff.mp none, List.dropWhile_cons_of_neg (by decide), List.nil_append]
    · rfl
  have trimmed : trim (severity.dropWhile leadingBreak) = trim severity := by
    rw [trim, trim, trimStart, trimStart, dropWhile_dropWhile fun c => isBlank_of_leadingBreak]
  have bare : ':' ∉ severity.dropWhile leadingBreak :=
    fun mem => bare ((List.dropWhile_suffix _).subset mem)
  rw [readHeader, front, cutFirst_append bare]
  simp [trimmed, given]

namespace WellFormed

variable (h : b.WellFormed r.platform severity message place)
include h

theorem header_ne_nil : b.header ≠ [] :=
  h.header ▸ List.append_ne_nil_of_right_ne_nil _ (List.cons_ne_nil _ _)

theorem location_ne_nil : b.location ≠ [] := by
  intro empty
  have read := h.location
  rw [empty] at read
  cases read

/-- With its lines of context the block is one block, and it is read. -/
theorem blocks_of_given (context : b.context ≠ []) (source : b.source ≠ []) :
    r.blocks (b.text r.platform) =
      [.ok (diagnostic r severity message place (b.underline.count '^'))] := by
  have given : [] ∉ b.lines.dropLast := by
    intro early
    have empty : [] ∈ [b.header, b.location, b.context, b.source] := early
    simp [h.header_ne_nil.symm, h.location_ne_nil.symm, context.symm, source.symm] at empty
  have single : splitOn r.platform.blockBreak (b.text r.platform) = [b.text r.platform] :=
    Platform.splitOn_block (List.cons_ne_nil _ _) h.within given
  -- Only the header is shortened, and it still ends before its message.
  have dropped : (b.text r.platform).dropWhile leadingBreak
      = join r.platform.lineBreak (b.header.dropWhile leadingBreak :: [b.location,
        b.context, b.source, b.underline]) := by
    have stops : b.header.dropWhile leadingBreak ≠ [] := by
      intro none
      have colon := List.dropWhile_eq_nil_iff.mp none ':'
        (h.header ▸ List.mem_append_right _ List.mem_cons_self)
      cases colon
    have joined (header : Text) : join r.platform.lineBreak [header, b.location, b.context,
        b.source, b.underline]
        = header ++ (r.platform.lineBreak ++ join r.platform.lineBreak
          [b.location, b.context, b.source, b.underline]) :=
      List.append_assoc ..
    rw [text, lines, joined, joined, List.dropWhile_append, if_neg (by rwa [List.isEmpty_iff])]
  have lines : r.linesOf (b.text r.platform)
      = b.header.dropWhile leadingBreak :: [b.location, b.context, b.source, b.underline] := by
    obtain ⟨header, others⟩ := List.forall_mem_cons.mp h.within
    rw [linesOf, dropped, Platform.splitOn_lines (List.cons_ne_nil _ _)
      (List.forall_mem_cons.mpr ⟨fun inside => ?_, others⟩)]
    exact header (inside.trans (List.dropWhile_suffix _).isInfix)
  rw [ReportReader.blocks, single]
  simp only [List.filterMap_cons, List.filterMap_nil, lines, readLines?, readBlock,
    readHeader_dropBreaks h.header h.severity_bare h.severity_given, h.location]
  rfl

/-- Where a line of context is empty, the block is taken for two, and both are too short. -/
theorem blocks_of_missing (missing : b.context = [] ∨ b.source = []) :
    r.blocks (b.text r.platform) = [] := by
  -- The lines in front of the empty one, and those behind it.
  have cut (front behind : List Text) (shape : b.text r.platform
        = join r.platform.lineBreak front ++
        (r.platform.blockBreak ++ join r.platform.lineBreak behind))
      (fronts : front ≠ []) (behinds : behind ≠ []) (short : front.length < minLines)
      (short' : behind.length < minLines)
      (inside : front ++ behind ⊆ b.lines) (last : front.getLast? ≠ some []) :
      r.blocks (b.text r.platform) = [] := by
    obtain ⟨here, there⟩ := List.append_subset.mp inside
    have ends := Platform.endsWith_lines fronts (fun line mem => h.within line (here mem)) last
    rw [shape, r.blocks_append ends, blocks_of_lines fronts short fun line mem =>
      h.within line (here mem),
      blocks_of_lines behinds short' fun line mem => h.within line (there mem), List.append_nil]
  by_cases context : b.context = []
  · refine cut [b.header, b.location] [b.source, b.underline] ?_ (List.cons_ne_nil _ _)
      (List.cons_ne_nil _ _) (by simp [minLines]) (by simp [minLines])
      ?_ (fun last => h.location_ne_nil (Option.some.inj last))
    · simp [text, lines, join, context, r.platform.blockBreak_eq]
    · simp [lines]
  · obtain source := missing.resolve_left context
    refine cut [b.header, b.location, b.context] [b.underline] ?_ (List.cons_ne_nil _ _)
      (List.cons_ne_nil _ _) (by simp [minLines]) (by simp [minLines]) ?_
      (fun last => context (Option.some.inj last))
    · simp [text, lines, join, source, r.platform.blockBreak_eq]
    · simp [lines]

/-- **Reading a block**: nothing, if a line of context is empty, and else the one problem that its
header, its place and its carets say. -/
theorem blocks_text : r.blocks (b.text r.platform)
    = if b.context = [] ∨ b.source = [] then []
      else [.ok (diagnostic r severity message place (b.underline.count '^'))] := by
  split
  · next missing => exact h.blocks_of_missing missing
  · next given => exact h.blocks_of_given (mt .inl given) (mt .inr given)

theorem read_text : r.read [b.text r.platform]
    = if b.context = [] ∨ b.source = [] then []
      else [diagnostic r severity message place (b.underline.count '^')] := by
  rw [r.read_single, h.blocks_text]
  split <;> rfl

/-- Other lines of context make no difference to what follows the rules. -/
theorem exchange {context source underline : Text}
    (within : ∀ line ∈ [context, source, underline], ¬ r.platform.lineBreak <:+: line) :
    WellFormed r.platform severity message place { b with context, source, underline } where
  header := h.header
  severity_bare := h.severity_bare
  severity_given := h.severity_given
  location := h.location
  within := by
    obtain ⟨header, others⟩ := List.forall_mem_cons.mp h.within
    obtain ⟨location, -⟩ := List.forall_mem_cons.mp others
    exact List.forall_mem_cons.mpr ⟨header, List.forall_mem_cons.mpr ⟨location, within⟩⟩

end WellFormed
end Block

/-- **The lines of context matter only where one is empty.**  A block with both is read as the one
problem that its header, its location and its carets say; from a block in which one is empty nothing
is read, and nothing is noted either.  So other lines with as many carets, the source line not
empty, leave the result as it is if and only if the first line of context is empty in both blocks or
in none. -/
theorem read_block (r : ReportReader) {b : Block} {severity message : Text} {place : Location}
    (h : b.WellFormed r.platform severity message place) :
    r.read [b.text r.platform]
        = (if b.context = [] ∨ b.source = [] then []
          else [Block.diagnostic r severity message place (b.underline.count '^')]) ∧
      r.skipped [b.text r.platform] = [] ∧
      ∀ context source underline,
        (∀ line ∈ [context, source, underline], ¬ r.platform.lineBreak <:+: line) →
        b.source ≠ [] → source ≠ [] → underline.count '^' = b.underline.count '^' →
          (r.read [({ b with context, source, underline } : Block).text r.platform] =
            r.read [b.text r.platform] ↔ (context = [] ↔ b.context = [])) := by
  refine ⟨h.read_text, ?_, fun context source underline within given given' carets => ?_⟩
  · rw [skipped, allBlocks, List.flatMap_singleton, h.blocks_text]
    split <;> rfl
  · rw [(h.exchange within).read_text, h.read_text]
    dsimp only
    rw [carets]
    by_cases first : context = [] <;> by_cases second :
      b.context = [] <;> simp [first, second, given, given']

/-! A block with bars for context, and with none. -/

/-- A block in whose third line stands what is given. -/
def undeclared (context : Text) : Block where
  header := "Error: Undeclared identifier.".toList
  location := "  --> ~Token.sol:10:5:".toList
  context
  source := "10 |     foo();".toList
  underline := "   |     ^^^^".toList

theorem undeclared_wellFormed (p : Platform) {context : Text}
    (within : ¬ p.lineBreak <:+: context) :
    (undeclared context).WellFormed p "Error".toList " Undeclared identifier.".toList
      ⟨"~Token.sol".toList, 10, 5⟩ where
  header := rfl
  severity_bare := by decide
  severity_given := by decide
  location :=
  (by decide +kernel : Location.read "  --> ~Token.sol:10:5:".toList = .ok ⟨"~Token.sol".toList, 10,
    5⟩)
  within := by
    have header : InLine "Error: Undeclared identifier.".toList := by unfold InLine; decide +kernel
    have location : InLine "  --> ~Token.sol:10:5:".toList := by unfold InLine; decide +kernel
    have source : InLine "10 |     foo();".toList := by unfold InLine; decide +kernel
    have underline : InLine "   |     ^^^^".toList := by unfold InLine; decide +kernel
    exact List.forall_mem_cons.mpr ⟨header.free p, List.forall_mem_cons.mpr ⟨location.free p,
      List.forall_mem_cons.mpr ⟨within, List.forall_mem_cons.mpr ⟨source.free p,
        List.forall_mem_singleton.mpr (underline.free p)⟩⟩⟩⟩

/-- A blank third line and one with a message in it are alike. -/
theorem undeclared_read :
    let r : ReportReader := { platform := .windows, cwd := "/home".toList }
    (undeclared [' ']).WellFormed r.platform "Error".toList " Undeclared identifier.".toList
        ⟨"~Token.sol".toList, 10, 5⟩ ∧
      r.read [(undeclared [' ']).text .windows]
        = [⟨"Error".toList, "Undeclared identifier.".toList, "Token.sol".toList, "Token.sol".toList,
          10, 5, 4⟩] ∧
      r.read [(undeclared "Error: --> ^".toList).text .windows] =
        r.read [(undeclared [' ']).text .windows] := by
  intro r
  have blank : InLine [' '] := by unfold InLine; decide
  have misleading : InLine "Error: --> ^".toList := by unfold InLine; decide +kernel
  have wellFormed := undeclared_wellFormed r.platform (blank.free r.platform)
  obtain ⟨read, -, exchanged⟩ := read_block r wellFormed
  refine ⟨wellFormed, read.trans (by decide +kernel), ?_⟩
  obtain ⟨-, others⟩ :=
    List.forall_mem_cons.mp (undeclared_wellFormed r.platform (misleading.free r.platform)).within
  obtain ⟨-, others⟩ := List.forall_mem_cons.mp others
  exact (exchanged "Error: --> ^".toList _ _ others (by decide) (by decide) rfl).mpr (by decide)

/-- **A block whose third line is empty is lost**, though it follows the rules, and it is not even
noted. -/
theorem empty_context_lost :
    let r : ReportReader := { cwd := "/home".toList }
    (∀ context ∈ [[], [' ']], (undeclared context).WellFormed r.platform "Error".toList
      " Undeclared identifier.".toList
        ⟨"~Token.sol".toList, 10, 5⟩) ∧
      r.read [(undeclared [' ']).text .posix]
        = [⟨"Error".toList, "Undeclared identifier.".toList, "Token.sol".toList, "Token.sol".toList,
          10, 5, 4⟩] ∧
      r.read [(undeclared []).text .posix] = [] ∧ r.skipped [(undeclared []).text .posix] = [] := by
  intro r
  have empty : InLine [] := ⟨nofun, nofun⟩
  have blank : InLine [' '] := by unfold InLine; decide
  refine ⟨List.forall_mem_cons.mpr ⟨undeclared_wellFormed _ (empty.free _),
    List.forall_mem_singleton.mpr ?_⟩, ?_⟩
  · exact undeclared_wellFormed _ (blank.free _)
  · decide +kernel

/-! ## A line break behind a report -/

/-- The last block of a piece of output. -/
def lastBlock (r : ReportReader) (chunk : Text) : Text :=
  (splitOn r.platform.blockBreak chunk).getLast (splitOn_ne_nil _ chunk)

/-- What four lines are read as if an empty one stands behind them: a problem with nothing
underlined. -/
def readFour? (r : ReportReader) : List Text → Option (Except Malformed Diagnostic)
  | [header, location, _, _] => some (r.readBlock header location [])
  | _ => none

/-- An empty line behind four makes a block of them, and nothing of any other number. -/
theorem readLines?_append_nil (lines : List Text) :
    (r.readLines? (lines ++ [[]])).toList = (r.readLines? lines).toList ++
      (r.readFour? lines).toList := by
  match lines with
  | [] | [_] | [_, _] | [_, _, _] | [_, _, _, _] => rfl
  | _ :: _ :: _ :: _ :: _ :: _ => simp [readLines?, readFour?]

/-- A line break at its end gives a block one more line, an empty one, unless the block holds only
line breaks. -/
theorem linesOf_append_lineBreak (t : Text) :
    r.linesOf (t ++ r.platform.lineBreak) = r.linesOf t ++ [[]] ∨
      r.linesOf (t ++ r.platform.lineBreak) = [[]] ∧ r.linesOf t = [[]] := by
  have breaks : r.platform.lineBreak.dropWhile leadingBreak = [] := by cases r.platform <;> rfl
  have unfolded (t : Text) :
    r.linesOf t = splitOn r.platform.lineBreak (t.dropWhile leadingBreak) := rfl
  rw [unfolded, unfolded, List.dropWhile_append]
  split
  · next none =>
    rw [breaks, List.isEmpty_iff.mp none]
    exact .inr ⟨rfl, rfl⟩
  · exact .inl (splitOn_append_self r.platform.lineBreak_ne_nil (r.platform.sealed_lineBreak _))

theorem blocks_append_lineBreak {chunk : Text}
    (ends : endsWith chunk r.platform.lineBreak = false) :
    r.blocks (chunk ++ r.platform.lineBreak) =
    r.blocks chunk ++ (r.readFour? (r.linesOf (r.lastBlock chunk))).toList := by
  have begun : r.platform.lineBreak <+: r.platform.blockBreak :=
    r.platform.blockBreak_eq ▸ List.prefix_append _ _
  have short : r.platform.lineBreak.length < r.platform.blockBreak.length := by
    cases r.platform <;> decide
  obtain ⟨front, last, before, after⟩ :=
    splitOn_begun (r.platform.sealed_blockBreak ends) begun short
  have last_eq : r.lastBlock chunk = last := by simp [lastBlock, before]
  have single (t : Text) :
    [t].filterMap (fun b => r.readLines? (r.linesOf b)) = (r.readLines? (r.linesOf t)).toList := by
    cases read : r.readLines? (r.linesOf t) <;> simp [read]
  rw [blocks, blocks, after, before, List.filterMap_append, List.filterMap_append,
    List.append_assoc, single, single, last_eq]
  congr 1
  rcases r.linesOf_append_lineBreak last with more | ⟨here, there⟩
  · rw [more, readLines?_append_nil]
  · rw [here, there]
    rfl

theorem length_of_readBlock {header location underline : Text} {d : Diagnostic}
    (read : r.readBlock header location underline = .ok d) : d.length = underline.count '^' := by
  unfold readBlock at read
  split at read
  · cases read
  · split at read
    · cases read
    · exact Except.ok.inj read ▸ rfl

/-- **A line break behind a report matters where its last block is one line short.**  Exactly if the
last block has four lines, and its header and its location are well-formed, something else is read
with a line break behind it: the block is taken for a problem then, of which nothing is
underlined. -/
theorem read_lineBreak (r : ReportReader) {chunk : Text}
    (ends : endsWith chunk r.platform.lineBreak = false) :
    (r.read [chunk ++ r.platform.lineBreak] = r.read [chunk] ↔
      ∀ header location third fourth, r.linesOf (r.lastBlock chunk) =
        [header, location, third, fourth] →
        ∀ d, r.readBlock header location [] ≠ .ok d) ∧
    ∀ header location third fourth d, r.linesOf (r.lastBlock chunk) =
      [header, location, third, fourth] →
      r.readBlock header location [] = .ok d →
        r.read [chunk ++ r.platform.lineBreak] = r.read [chunk] ++ [d] ∧ d.length = 0 := by
  have more : r.read [chunk ++ r.platform.lineBreak] = r.read [chunk]
      ++ (r.readFour? (r.linesOf (r.lastBlock chunk))).toList.filterMap fun b => b.toOption := by
    rw [r.read_single, blocks_append_lineBreak ends, List.filterMap_append, r.read_single]
  have taken : ∀ header location third fourth d, r.linesOf (r.lastBlock chunk) =
      [header, location, third, fourth] →
      r.readBlock header location [] = .ok d →
      r.read [chunk ++ r.platform.lineBreak] = r.read [chunk] ++ [d] := by
    intro header location third fourth d four read
    rw [more, four, readFour?, read]
    rfl
  refine ⟨⟨fun same header location third fourth four d read => ?_, fun none => ?_⟩,
    fun header location third fourth d four read => ?_⟩
  · rw [taken header location third fourth d four read] at same
    simp at same
  · rw [more, List.append_right_eq_self]
    match four : r.linesOf (r.lastBlock chunk) with
    | [] | [_] | [_, _] | [_, _, _] => rfl
    | _ :: _ :: _ :: _ :: _ :: _ => rfl
    | [header, location, third, fourth] =>
      cases read : r.readBlock header location [] with
      | ok d => exact absurd read (none header location third fourth four d)
      | error e => simp [readFour?, read, Except.toOption]
  · exact ⟨taken header location third fourth d four read, length_of_readBlock read⟩

/-! Reports that break off in their last block. -/

/-- A report whose last block has all lines but the last, or the last two. -/
def brokenOff (lines : Nat) : Text :=
  join Platform.posix.blockBreak ["Warning: First.\n  --> ~A.sol:1:2:\n  |\n1 | a b\n  | ^".toList,
    join Platform.posix.lineBreak (["Error: Second.", "  --> ~B.sol:3:4:", "  |", "3 | c d"].map
      String.toList |>.take lines)]

/-- With three lines in its last block a report is read alike, whether a line break ends it or
not. -/
theorem brokenOff_three_read :
    let r : ReportReader := { cwd := "/home".toList }
    endsWith (brokenOff 3) r.platform.lineBreak = false ∧
      r.read [brokenOff 3 ++ r.platform.lineBreak] = r.read [brokenOff 3] := by
  intro r
  have ends : endsWith (brokenOff 3) r.platform.lineBreak = false := by decide +kernel
  refine ⟨ends, (read_lineBreak r ends).1.mpr fun header location third fourth four => ?_⟩
  have three : (r.linesOf (r.lastBlock (brokenOff 3))).length = 3 := by decide +kernel
  rw [four] at three
  cases three

/-- **With four lines it is not**: the line break makes a problem of them that nothing is underlined
for. -/
theorem brokenOff_four_read :
    let r : ReportReader := { cwd := "/home".toList }
    let first : Diagnostic :=
      ⟨"Warning".toList, "First.".toList, "A.sol".toList, "A.sol".toList, 1, 2, 1⟩
    endsWith (brokenOff 4) r.platform.lineBreak = false ∧ r.read [brokenOff 4] = [first] ∧
      r.read [brokenOff 4 ++ r.platform.lineBreak]
        = [first, ⟨"Error".toList, "Second.".toList, "B.sol".toList, "B.sol".toList, 3, 4, 0⟩] := by
  decide +kernel

end ReportReader
end ContractCheck
