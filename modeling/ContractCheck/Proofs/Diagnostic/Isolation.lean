import ContractCheck.Compilation
import ContractCheck.Proofs.Host.Following
import ContractCheck.Proofs.Text.Separators

/-! # Blocks are read on their own

A report is read piece by piece and block by block.  What separates two blocks overlaps with itself,
so where blocks end is not clear from a separator alone: a line break in front of it shifts it.
After a text that no line break ends the separator is where it seems to be, and both sides of it are
read as if the other one were not there (`read_apart`).  A block that cannot be read is noted and
left out, whatever stands in it.
-/
namespace ContractCheck

open Text

/-! ## Where lines and blocks end -/

namespace Platform

variable (p : Platform)

theorem lineBreak_ne_nil : p.lineBreak ≠ [] := by cases p <;> decide

theorem blockBreak_ne_nil : p.blockBreak ≠ [] := by cases p <;> decide

/-- A blank line separates two blocks. -/
theorem blockBreak_eq : p.blockBreak = p.lineBreak ++ p.lineBreak := by cases p <;> rfl

/-- No line break begins inside of another one. -/
theorem sealed_lineBreak (t : Text) : Sealed p.lineBreak t := by
  intro v given _ short reaches
  obtain ⟨c, v, rfl⟩ := List.exists_cons_of_ne_nil given
  cases p with
  | posix => simp [lineBreak] at short
  | windows =>
    have one : v.length + 1 < 2 := short
    obtain rfl : v = [] := List.eq_nil_of_length_eq_zero (by omega)
    simp [lineBreak] at reaches

/-- The end of a block is clear if no line break ends its text. -/
theorem sealed_blockBreak {t : Text} (ends : endsWith t p.lineBreak = false) :
    Sealed p.blockBreak t := by
  intro v given suffix short reaches
  have broken : ¬ p.lineBreak <:+ t := fun found => by
    rw [endsWith, List.isSuffixOf_iff_suffix.mpr found] at ends
    cases ends
  cases p with
  | posix =>
    match v, given with
    | [c], _ =>
      -- One line break in front of the separator is the only way to shift it.
      obtain rfl : '\n' = c := by simpa [blockBreak] using reaches
      exact broken suffix
    | _ :: _ :: _, _ => simp only [blockBreak, List.length_cons, List.length_nil] at short; omega
  | windows =>
    match v, given with
    | [c], _ => simp [blockBreak] at reaches
    | [c, d], _ =>
      obtain ⟨rfl, rfl⟩ : '\r' = c ∧ '\n' = d := by simpa [blockBreak] using reaches
      exact broken suffix
    | [c, d, e], _ => simp [blockBreak] at reaches
    | _ :: _ :: _ :: _ :: _, _ =>
      simp only [blockBreak, List.length_cons, List.length_nil] at short; omega

section Lines

variable {p} {lines : List Text} (some : lines ≠ [])
  (within : ∀ line ∈ lines, ¬ p.lineBreak <:+: line)
include some within

/-- Lines that are joined are split again. -/
theorem splitOn_lines : splitOn p.lineBreak (join p.lineBreak lines) = lines :=
  splitOn_join p.lineBreak_ne_nil some within fun t _ => p.sealed_lineBreak t

/-- Lines are one block if none but the last is empty. -/
theorem splitOn_block (given : [] ∉ lines.dropLast) :
    splitOn p.blockBreak (join p.lineBreak lines) = [join p.lineBreak lines] := by
  refine splitOn_of_free fun doubled => given ?_
  rw [p.blockBreak_eq] at doubled
  have early := mem_dropLast_of_doubled p.lineBreak_ne_nil p.sealed_lineBreak doubled
  rwa [splitOn_lines some within] at early

/-- No line break ends lines of which the last is not empty. -/
theorem endsWith_lines (last : lines.getLast? ≠ .some []) :
    endsWith (join p.lineBreak lines) p.lineBreak = false :=
  endsWith_join p.lineBreak_ne_nil p.sealed_lineBreak some within last

end Lines

end Platform

/-! ## Blocks of a report -/

namespace ReportReader

variable (r : ReportReader)

theorem blocks_append {a : Text} (ends : endsWith a r.platform.lineBreak = false) (b : Text) :
    r.blocks (a ++ (r.platform.blockBreak ++ b)) = r.blocks a ++ r.blocks b := by
  rw [blocks, splitOn_sealed r.platform.blockBreak_ne_nil (r.platform.sealed_blockBreak ends),
    List.filterMap_append]
  rfl

theorem read_cons (t : Text) (chunks : List Text) :
    r.read (t :: chunks) = r.read [t] ++ r.read chunks :=
  r.read_append [t] chunks

theorem read_single (t : Text) : r.read [t] = (r.blocks t).filterMap fun b => b.toOption := by
  rw [read, allBlocks, List.flatMap_singleton]

/-- No piece of output has a part in what is read from another one. -/
theorem read_pieces (chunks : List Text) : r.read chunks = chunks.flatMap fun t => r.read [t] := by
  induction chunks with
  | nil => rfl
  | cons t chunks ih => rw [read_cons, ih, List.flatMap_cons]

/-- From an empty piece nothing is read. -/
theorem read_given (chunks : List Text) :
    r.read (chunks.filter fun t => !t.isEmpty) = r.read chunks := by
  have nothing : r.read [[]] = [] := by
    obtain ⟨platform, layout, cwd⟩ := r
    cases platform <;> rfl
  induction chunks with
  | nil => rfl
  | cons t chunks ih =>
    cases t with
    | nil => rw [List.filter_cons_of_neg (by simp), ih, r.read_cons [], nothing, List.nil_append]
    | cons c t => rw [List.filter_cons_of_pos (by simp), read_cons, ih, ← read_cons]

/-- What is read from a text is not changed by what comes behind a separator, and the other way
round. -/
theorem read_join {a : Text} (ends : endsWith a r.platform.lineBreak = false) (b : Text) :
    r.read [a ++ (r.platform.blockBreak ++ b)] = r.read [a] ++ r.read [b] := by
  rw [read_single, r.blocks_append ends, List.filterMap_append, ← read_single, ← read_single]

/-- Any number of texts with separators between them are read one after another. -/
theorem read_joined {texts : List Text}
    (ends : ∀ t ∈ texts, endsWith t r.platform.lineBreak = false)
    (last : Text) :
    r.read [join r.platform.blockBreak (texts ++ [last])] = r.read (texts ++ [last]) := by
  induction texts with
  | nil => rfl
  | cons t texts ih =>
    obtain ⟨here, behind⟩ := List.forall_mem_cons.mp ends
    obtain ⟨u, us, shape⟩ := List.exists_cons_of_ne_nil (List.append_ne_nil_of_right_ne_nil texts
      (List.cons_ne_nil last []))
    rw [List.cons_append, r.read_cons t, ← ih behind, shape, join, List.append_assoc,
      r.read_join here]

/-- A block holds something, be it well-formed or not, if and only if it has enough lines. -/
theorem isSome_readLines? (lines : List Text) :
    (r.readLines? lines).isSome = decide (minLines ≤ lines.length) := by
  match lines with
  | [] | [_] | [_, _] | [_, _, _] | [_, _, _, _] => rfl
  | _ :: _ :: _ :: _ :: _ :: _ => simp [readLines?, minLines]

/-- What a block holds is read, or it is noted why not. -/
theorem length_allBlocks (chunks : List Text) :
    (r.allBlocks chunks).length = (r.read chunks).length + (r.skipped chunks).length := by
  rw [read, skipped, List.length_filterMap_eq_countP, List.length_filterMap_eq_countP,
    List.length_eq_countP_add_countP fun b : Except Malformed Diagnostic => b.toOption.isSome]
  congr 1
  exact List.countP_congr fun b _ => by cases b <;> simp [Except.toOption]

/-- Of the blocks with enough lines none is lost. -/
theorem length_read_add_skipped (chunks : List Text) :
    (r.read chunks).length + (r.skipped chunks).length
      = (chunks.flatMap (splitOn r.platform.blockBreak)).countP
          fun b => decide (minLines ≤ (r.linesOf b).length) := by
  rw [← length_allBlocks, allBlocks, List.length_flatMap, List.countP_flatMap]
  congr 2
  funext t
  rw [blocks, List.length_filterMap_eq_countP]
  exact List.countP_congr fun b _ => by simp [isSome_readLines?]

end ReportReader

/-! ## Malformed blocks -/

namespace Compilation

/-- Blocks that cannot be read are only logged. -/
theorem logSkipped_logs (c : Compilation) (found : List Malformed) :
    Action.Logs (c.logSkipped found) := by
  induction found with
  | nil => exact .pure
  | cons m found ih => exact .bind (Log.debug_logs _ _ _) ih

end Compilation

namespace ReportReader

/-- **Blocks are read on their own**, from any texts at all: pieces of output do not matter to each
other, nor do the texts around a separator whose place is clear, and a block that cannot be read is
logged and takes nothing with it. -/
theorem read_apart (r : ReportReader) :
    (∀ chunks, r.read chunks = chunks.flatMap fun t => r.read [t]) ∧
    (∀ a b, endsWith a r.platform.lineBreak = false →
      r.read [a ++ r.platform.blockBreak ++ b] = r.read [a] ++ r.read [b]) ∧
    (∀ texts last, (∀ t ∈ texts, endsWith t r.platform.lineBreak = false) →
      r.read [join r.platform.blockBreak (texts ++ [last])] =
        (texts ++ [last]).flatMap fun t => r.read [t]) ∧
    (∀ chunks, (r.read chunks).length + (r.skipped chunks).length
      = (chunks.flatMap (splitOn r.platform.blockBreak)).countP
          fun b => decide (minLines ≤ (r.linesOf b).length)) ∧
    ∀ (c : Compilation) chunks (h : Host), h.LogReady ∨ r.skipped chunks = [] →
      ∃ h', (do c.logSkipped (r.skipped chunks); pure (r.read chunks) :
        Action (List Diagnostic)).perform h = (.ok (r.read chunks), h') := by
  refine ⟨r.read_pieces, fun a b ends => ?_, fun texts last ends => ?_, r.length_read_add_skipped,
    fun c chunks h free => ?_⟩
  · rw [List.append_assoc, r.read_join ends]
  · rw [r.read_joined ends, r.read_pieces]
  · rcases free with ready | none
    · obtain ⟨h', performed, -⟩ := c.logSkipped_logs (r.skipped chunks) h ready
      exact ⟨h', Action.perform_bind_ok performed⟩
    · rw [none]
      exact ⟨h, rfl⟩

/-! A report with a block that names no column, between two others. -/

def opening : Text := "Error: First.\n  --> ~A.sol:1:2:\n  |\n1 | a b\n  | ^".toList

def broken : Text := "Error: Second.\n  --> ~B.sol:3:\n  |\n3 | c\n  | ^".toList

def closing : Text := "\n\nWarning: Third.\n  --> ~C.sol:5:1:\n  |\n5 | d\n  | ^\n".toList

/-- Only the block in the middle is left out, and an activity that reads the report goes on. -/
theorem read_around_broken :
    (∀ t ∈ [opening, broken], endsWith t Platform.posix.lineBreak = false) ∧ Host.LogReady {} ∧
      (let r : ReportReader := { cwd := "/home".toList }
       let report := join Platform.posix.blockBreak ([opening, broken] ++ [closing])
       let found : List Diagnostic :=
        [⟨"Error".toList, "First.".toList, "A.sol".toList, "A.sol".toList, 1, 2, 1⟩,
          ⟨"Warning".toList, "Third.".toList, "C.sol".toList, "C.sol".toList, 5, 1, 1⟩]
       r.read [report] = found ∧
        ∀ c : Compilation, ∃ h',
          (do c.logSkipped (r.skipped [report]); pure (r.read [report]) : Action
            (List Diagnostic)).perform {}
            = (.ok (r.read [report]), h')) := by
  have ends : ∀ t ∈ [opening, broken], endsWith t Platform.posix.lineBreak = false := by
    decide +kernel
  obtain ⟨-, -, joined, -, performed⟩ := read_apart { cwd := "/home".toList }
  refine ⟨ends, nofun, ?_, fun c => performed c _ {} (.inl nofun)⟩
  exact (joined [opening, broken] closing ends).trans (by decide +kernel)

/-- What was read is lost if the block that was left out cannot be noted. -/
theorem read_unnoted :
    let r : ReportReader := { cwd := "/home".toList }
    (r.read [opening, broken]).length = 1 ∧
      ∀ c : Compilation, ∃ h',
        (do c.logSkipped (r.skipped [opening, broken]); pure (r.read [opening, broken]) :
          Action (List Diagnostic)).perform .homeless = (.error .noHome, h') := by
  refine ⟨by decide +kernel, fun c => ?_⟩
  have skipped : ∃ m, ReportReader.skipped { cwd := "/home".toList } [opening, broken] = [m] :=
    List.length_eq_one_iff.mp (by decide +kernel)
  obtain ⟨m, skipped⟩ := skipped
  rw [skipped]
  exact ⟨_, rfl⟩

end ReportReader

end ContractCheck
