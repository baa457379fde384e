import ContractCheck.Diagnostic.Report
import ContractCheck.Proofs.Layout.Mirror
import ContractCheck.Proofs.Path.Resolving
import ContractCheck.Proofs.Text.Numerals

/-! # Diagnostics point back at the user's file

The compiler is run on staged copies, so what it reports is about them.  A location line names the
staged copy; what is read from it is the file that the copy was made of (`origin_of_staged`),
whatever blanks, arrow and colon stand around the place.
-/
namespace ContractCheck

open Text

/-! ## Location lines -/

namespace Location

/-- What stands around the place in a location line. -/
structure Frame where
  lead : Text
  arrow : Text
  colon : Text
  trail : Text
  lead_blank : Blanks lead
  arrow_optional : arrow = [] ∨ ∃ gap, Blanks gap ∧ arrow = Location.arrow ++ gap
  colon_optional : colon = [] ∨ colon = [':']
  trail_blank : Blanks trail

namespace Frame

variable (f : Frame)

/-- The location line with a place. -/
def line (place : Text) : Text := f.lead ++ (f.arrow ++ (place ++ f.colon)) ++ f.trail

theorem endsPlain_colon {place : Text} (ends : EndsPlain place) : EndsPlain (place ++ f.colon) := by
  rcases f.colon_optional with none | one
  · rwa [none, List.append_nil]
  · rw [one]
    intro c last
    rw [List.getLast?_concat] at last
    obtain rfl := Option.some.inj last
    rfl

/-- What is left of the line without blanks and arrow. -/
theorem strip_front {c : Char} {r : Text} (first : isBlank c = false)
    (start : c = '-' → f.arrow ≠ []) (ends : EndsPlain (c :: r)) :
    (let t := trim (f.line (c :: r))
     if startsWith t Location.arrow then trim (t.drop Location.arrow.length) else t) =
       c :: r ++ f.colon := by
  have core := f.endsPlain_colon ends
  rw [List.cons_append] at core
  rcases f.arrow_optional with none | ⟨gap, blank, some⟩
  · have shape : f.line (c :: r) = f.lead ++ c :: (r ++ f.colon ++ f.trail) := by simp [line, none]
    have other : ¬ startsWith (c :: (r ++ f.colon)) Location.arrow = true := fun found =>
      start (List.cons_prefix_cons.mp (startsWith_iff.mp found)).1.symm none
    rw [shape, trim_append f.lead_blank f.trail_blank first core]
    simp [other]
  · have shape : f.line (c :: r)
        = f.lead ++ '-' :: (['-', '>'] ++ gap ++ c :: (r ++ f.colon) ++ f.trail) := by
      simp [line, some, Location.arrow]
    have whole : EndsPlain ('-' :: (['-', '>'] ++ gap ++ c :: (r ++ f.colon))) := by
      have := core.append (List.cons_ne_nil _ _) (Location.arrow ++ gap)
      simpa [Location.arrow] using this
    have behind : trim (gap ++ c :: (r ++ f.colon)) = c :: (r ++ f.colon) := by
      have := trim_append blank blanks_nil first core
      simpa using this
    rw [shape, trim_append f.lead_blank f.trail_blank rfl whole]
    simp [startsWith, Location.arrow, behind]

/-- A location line without what stands around the place is the place. -/
theorem strip_line {c : Char} {r : Text} (first : isBlank c = false)
    (start : c = '-' → f.arrow ≠ []) (ends : EndsPlain (c :: r))
    (bare : (c :: r).getLast? ≠ some ':') :
    strip (f.line (c :: r)) = c :: r := by
  have front := f.strip_front first start ends
  rw [strip]
  simp only at front ⊢
  rw [front]
  rcases f.colon_optional with none | one
  · rw [none, List.append_nil, dropTail_singleton bare]
  · rw [one, dropTail_append]

/-- The place that a location line names is read from it. -/
theorem read_place (file : Text) {line column : Nat} {c : Char} {r : Text}
    (shape : file ++ ':' :: ofNat line ++ ':' :: ofNat column = c :: r) (first : isBlank c = false)
    (start : c = '-' → f.arrow ≠ []) (lines : line < Nat.pow 10 maxDigits)
    (columns : column < Nat.pow 10 maxDigits) :
    Location.read (f.line (file ++ ':' :: ofNat line ++ ':' :: ofNat column))
      = .ok { file := trim file, line, column } := by
  have numeral := numeral_ofNat column
  have last : (c :: r).getLast? = (ofNat column).getLast? := by
    rw [← shape, List.append_cons, List.getLast?_append_of_ne_nil _ numeral.given]
  have ends : EndsPlain (c :: r) := fun x there => numeral.endsPlain x (last.symm.trans there)
  have bare : (c :: r).getLast? ≠ some ':' :=
    fun there => numeral.not_mem rfl (List.mem_of_getLast? (last.symm.trans there))
  rw [Location.read, shape, f.strip_line first start ends bare, ← shape, cut?,
    cutLast_append (numeral.not_mem rfl)]
  dsimp only
  rw [cutLast_append ((numeral_ofNat line).not_mem rfl)]
  simp [readInt?_ofNat lines, readInt?_ofNat columns]

/-- A place whose file begins with no blank. -/
theorem read_line {c : Char} {r : Text} (first : isBlank c = false) (start : c = '-' → f.arrow ≠ [])
    {line column : Nat} (lines : line < Nat.pow 10 maxDigits)
    (columns : column < Nat.pow 10 maxDigits) :
    Location.read (f.line (c :: (r ++ ':' :: ofNat line ++ ':' :: ofNat column)))
      = .ok { file := trim (c :: r), line, column } :=
  f.read_place (c :: r) rfl first start lines columns

end Frame
end Location

/-! ## Layouts and sources -/

namespace Layout

open ContractCheck.Path

/-- A name for a directory of a layout. -/
structure IsName (t : Text) : Prop where
  given : t ≠ []
  trimmed : trim t = t
  bare : ∀ c ∈ t, isSlash c = false

/-- A layout that maps back: its directories have names, and its marker is one character that is
neither a slash nor a blank. -/
structure Reversible (l : Layout) : Prop where
  contracts : IsName l.contracts
  temp : IsName l.temp
  marker : ∃ c, l.marker = [c] ∧ isSlash c = false ∧ isBlank c = false

/-- A resolved path, with a directory that is no root and nowhere the temporary one. -/
structure Source (l : Layout) (directory name : Text) : Prop where
  absolute : Posix.isAbsolute (directory ++ '/' :: name) = true
  resolved : Posix.normalise (directory ++ '/' :: name) = directory ++ '/' :: name
  below : directory ≠ [] ∧ directory ≠ ['/']
  bare : ∀ c ∈ name, isSlash c = false
  forward : '\\' ∉ directory
  foreign : l.temp ∉ splitOn ['/'] directory
  directory_ends : EndsPlain directory
  name_ends : EndsPlain name

variable {l : Layout} {directory name : Text} {segs : List Text}

theorem IsName.not_mem {t : Text} (h : IsName t) {c : Char} (slash : isSlash c = true) : c ∉ t :=
  not_mem_of_bare h.bare slash

theorem IsName.endsPlain {t : Text} (h : IsName t) : EndsPlain t := h.trimmed ▸ endsPlain_trim t

/-- The last segment is not empty, and no blank ends it. -/
def EndsOwn (segs : List Text) : Prop := ∃ x, segs.getLast? = some x ∧ x ≠ [] ∧ EndsPlain x

theorem EndsOwn.inLine {segs : List Text} (h : EndsOwn segs) : EndsInLine segs := by
  obtain ⟨x, last, -, ends⟩ := h
  intro y last' feed
  obtain rfl := Option.some.inj (last.symm.trans last')
  cases ends _ feed

theorem EndsOwn.endsPlain {segs : List Text} (h : EndsOwn segs) : EndsPlain (slashed segs) := by
  obtain ⟨x, last, own, ends⟩ := h
  rw [EndsPlain, getLast?_slashed last own]
  exact ends

theorem EndsOwn.cons {segs : List Text} (h : EndsOwn segs) :
    ∃ rest, slashed segs = '/' :: rest := by
  obtain ⟨x, last, -⟩ := h
  cases segs with
  | nil => cases last
  | cons s segs => exact ⟨_, rfl⟩

theorem EndsOwn.trim {segs : List Text} (h : EndsOwn segs) :
    Text.trim (slashed segs) = slashed segs := by
  have ends := h.endsPlain
  obtain ⟨rest, shape⟩ := h.cons
  rw [shape] at ends ⊢
  exact trim_eq_self rfl ends

theorem EndsOwn.no_here {segs : List Text} (h : EndsOwn segs) :
    ¬ (slashed segs = [] ∨ slashed segs = here) := by
  obtain ⟨rest, shape⟩ := h.cons
  rw [shape]
  rintro (eq | eq) <;> cases eq

/-- A row of segments that a layout can mirror back. -/
structure Mirrors (l : Layout) (segs : List Text) : Prop where
  plain : Plain segs
  ends : EndsOwn segs
  forward : '\\' ∉ slashed segs
  foreign : l.temp ∉ segs

/-- The directory of a source is such a row. -/
theorem Source.row (h : Source l directory name) :
    ∃ segs, directory = slashed segs ∧ Mirrors l segs := by
  have bare : '/' ∉ name := fun mem => nomatch h.bare _ mem
  obtain ⟨given, root⟩ := h.below
  obtain ⟨c, r, rfl⟩ := List.exists_cons_of_ne_nil given
  have absolute : Posix.isAbsolute (c :: r) = true := h.absolute
  obtain ⟨segs, filled, plain, shape, pieces⟩ := slashed_of_absolute absolute
  have foreign := h.foreign
  rw [pieces] at foreign
  have path : c :: r ++ '/' :: name = slashed (segs ++ [name]) := by simp [shape]
  rcases row_of_resolved h.absolute h.resolved with rooted | ⟨body, filled', proper, plain', split⟩
  · -- A root has no directory but the excluded ones.
    rcases root_of_absolute h.absolute with one | two
    · rw [one] at rooted
      simp at rooted
    · rw [two] at rooted
      obtain ⟨rfl, rest⟩ := List.cons.inj rooted
      cases r with
      | nil => exact absurd rfl root
      | cons y r => simp at rest
  · have same : segs ++ [name] = leading (c :: r ++ '/' :: name) ++ body :=
      slashed_inj (List.forall_mem_append.mpr ⟨plain, by simpa using bare⟩) plain'
        (path.symm.trans split)
    obtain ⟨front, last, rfl⟩ := (List.eq_nil_or_concat body).resolve_left filled'
    rw [List.concat_eq_append, ← List.append_assoc] at same
    obtain ⟨rfl, -⟩ := List.append_inj' same rfl
    have inner : front ≠ [] := by
      rintro rfl
      unfold leading at shape
      split at shape
      · exact root (by simpa using shape)
      · cases shape
    obtain ⟨front, x, rfl⟩ := (List.eq_nil_or_concat front).resolve_left inner
    have own : x ≠ [] := (proper x (by simp)).1
    have last : (leading (c :: r ++ '/' :: name) ++ front.concat x).getLast? = some x := by
      rw [List.concat_eq_append, ← List.append_assoc, List.getLast?_concat]
    have ends : EndsPlain x := by
      intro y there
      rw [← getLast?_slashed last own, ← shape] at there
      exact h.directory_ends y there
    exact ⟨_, shape, plain, ⟨x, last, own, ends⟩, shape ▸ h.forward,
      fun mem => foreign (List.mem_cons_of_mem _ mem)⟩

section Mirrored

variable (usable : Reversible l) (h : Mirrors l segs)
include usable h

/-- The mirrored row ends with a segment that no blank ends. -/
theorem Mirrors.mirror_ends : EndsOwn (mirror l.contracts l.temp segs) := by
  obtain ⟨x, last, own, ends⟩ := h.ends
  have given : segs ≠ [] := by
    rintro rfl
    cases last
  obtain ⟨y, last'⟩ : ∃ y, (mirror l.contracts l.temp segs).getLast? = some y :=
    ⟨_, List.getLast?_eq_some_getLast (mirror_ne_nil given)⟩
  rcases getLast?_mirror last' with rfl | same
  · exact ⟨l.temp, last', usable.temp.given, usable.temp.endsPlain⟩
  · exact ⟨x, last'.trans (same.symm.trans last), own, ends⟩

theorem Mirrors.mirror_plain : Plain (mirror l.contracts l.temp segs) :=
  plain_mirror h.plain (usable.temp.not_mem rfl)

theorem Mirrors.toStagingDir :
    l.toStagingDir (slashed segs) = slashed (mirror l.contracts l.temp segs) := by
  refine swapSegment_slashed (usable.contracts.not_mem rfl) h.plain (usable.temp.not_mem rfl)
    h.ends.inLine (not_mem_slashed (by decide) fun s mem => ?_)
  rcases mem_mirror mem with rfl | mem
  · exact usable.temp.not_mem rfl
  · exact fun inside => h.forward (mem_slashed mem inside)

theorem Mirrors.fromStagingDir :
    l.fromStagingDir (slashed (mirror l.contracts l.temp segs)) = slashed segs := by
  have back := mirror_mirror l.contracts h.foreign
  have swapped := swapSegment_slashed (usable.temp.not_mem rfl) (h.mirror_plain usable)
    (usable.contracts.not_mem rfl) (h.mirror_ends usable).inLine (back.symm ▸ h.forward)
  rwa [back] at swapped

end Mirrored

/-- Where the staged copy of a source is. -/
theorem Source.stagedPath (h : Source l (slashed segs) name) (usable : Reversible l)
    (row : Mirrors l segs) :
    l.stagedPath (slashed segs ++ '/' :: name)
      = slashed (mirror l.contracts l.temp segs) ++ '/' :: (l.marker ++ name) := by
  obtain ⟨x, last, own, -⟩ := row.mirror_ends usable
  refine stagedPath_slashed h.bare ?_ (row.mirror_plain usable) (row.toStagingDir usable)
    ⟨x, last, own⟩
  obtain ⟨c, marker, slash, -⟩ := usable.marker
  rw [marker]
  intro mem
  rcases List.mem_cons.mp mem with rfl | mem
  · cases slash
  · cases h.bare _ mem

end Layout

/-! ## Reading reports -/

namespace ReportReader

open Layout ContractCheck.Path

variable {r : ReportReader} {directory name : Text}

/-- A resolved path is what the name is read as from its directory. -/
theorem resolve_source (cwd : Text) {segs : List Text} (row : Mirrors r.layout segs)
    (h : Source r.layout (slashed segs) name) :
    Platform.posix.resolve cwd (slashed segs) name = slashed segs ++ '/' :: name := by
  obtain ⟨x, last, own, -⟩ := row.ends
  have relative := isAbsolute_of_not_mem (not_mem_of_bare h.bare rfl)
  rw [Platform.resolve, join_slashed row.plain ⟨x, last, own⟩ relative, Posix.absolute, Posix.join,
    if_pos h.absolute, h.resolved]

/-- **The source that a staged copy was made of is what its place refers to.** -/
theorem sourceOf_stagedPath (posix : r.platform = .posix) (usable : Reversible r.layout)
    (h : Source r.layout directory name) :
    r.sourceOf (r.layout.stagedPath (directory ++ '/' :: name)) =
      (name, directory ++ '/' :: name) := by
  obtain ⟨segs, rfl, row⟩ := h.row
  obtain ⟨c, marker, slash, visible⟩ := usable.marker
  have bare : ∀ x ∈ c :: name, isSlash x = false := List.forall_mem_cons.mpr ⟨slash, h.bare⟩
  have marked : EndsPlain (c :: name) := endsPlain_cons visible h.name_ends
  have stripped : r.layout.stripMarker (c :: name) = name := by
    simp [stripMarker, isTransient, startsWith, marker]
  rw [h.stagedPath usable row, marker, List.singleton_append, sourceOf, splitPath_append bare]
  dsimp only
  rw [trim_eq_self visible marked, stripped, (row.mirror_ends usable).trim,
    row.fromStagingDir usable,
    if_neg row.ends.no_here, posix, resolve_source r.cwd row h]

/-- The place of a staged copy is read from a location line. -/
theorem read_stagedPath (usable : Reversible r.layout) (h : Source r.layout directory name)
    (f : Location.Frame) {line column : Nat} (lines : line < Nat.pow 10 maxDigits)
    (columns : column < Nat.pow 10 maxDigits) :
    Location.read (f.line (r.layout.stagedPath (directory ++ '/' :: name) ++ ':' :: ofNat line ++
        ':' :: ofNat column))
      = .ok { file := r.layout.stagedPath (directory ++ '/' :: name), line, column } := by
  obtain ⟨segs, rfl, row⟩ := h.row
  obtain ⟨c, marker, slash, visible⟩ := usable.marker
  obtain ⟨rest, shape⟩ := (row.mirror_ends usable).cons
  have ends : EndsPlain ('/' :: (rest ++ '/' :: (c :: name))) := by
    rw [← List.cons_append, List.append_cons]
    exact (endsPlain_cons visible h.name_ends).append (List.cons_ne_nil _ _) _
  rw [h.stagedPath usable row, marker, List.singleton_append, shape, List.cons_append,
    List.cons_append,
    List.cons_append, f.read_line rfl (fun start : '/' = '-' => absurd start (by decide))
      lines columns,
    trim_eq_self rfl ends]

/-- **Diagnostics point back at the user's file.**  A directory comes back from its mirror, and what
the compiler reports of a staged copy is a diagnostic of the file that the copy was made of. -/
theorem origin_of_staged (posix : r.platform = .posix) (usable : Reversible r.layout)
    (h : Source r.layout directory name) :
    r.layout.fromStagingDir (r.layout.toStagingDir directory) = directory ∧
      ∀ (header severity message third fourth underline : Text) (more : List Text)
        (f : Location.Frame) (line column : Nat),
        cutFirst ':' header = some (severity, message) → trim severity ≠ [] →
        line < Nat.pow 10 maxDigits → column < Nat.pow 10 maxDigits →
        r.readLines? (header ::
            f.line (r.layout.stagedPath (directory ++ '/' :: name) ++ ':' :: ofNat line ++
              ':' :: ofNat column) ::
            third :: fourth :: underline :: more)
          = some (.ok
            { severity := trim severity, message := trim message, file := name,
              path := directory ++ '/' :: name, line, column, length := underline.count '^' }) := by
  refine ⟨?_, fun header severity message third fourth underline more f line column
    cut given lines columns => ?_⟩
  · obtain ⟨segs, rfl, row⟩ := h.row
    rw [row.toStagingDir usable, row.fromStagingDir usable]
  · have headed : readHeader header = .ok (trim severity, trim message) := by
      simp [readHeader, cut, given]
    rw [readLines?, readBlock, headed]
    dsimp only
    rw [read_stagedPath usable h f lines columns]
    dsimp only
    rw [sourceOf_stagedPath posix usable h]

/-! A source that lies below several directories of the contracts' name. -/

/-- The directory of the source. -/
def nested : Text := "/contracts/contracts/lib/contracts".toList

theorem reversible_default : Reversible {} where
  contracts := ⟨by decide, by decide +kernel, eq_false_of_any (by decide +kernel)⟩
  temp := ⟨by decide, by decide +kernel, eq_false_of_any (by decide +kernel)⟩
  marker := ⟨'~', rfl, rfl, rfl⟩

theorem nested_source : Source {} nested "Token.sol".toList where
  absolute := by decide +kernel
  resolved := by decide +kernel
  below := by decide +kernel
  bare := eq_false_of_any (by decide +kernel)
  forward := by decide +kernel
  foreign := by decide +kernel
  directory_ends := by
    intro c last
    obtain rfl := Option.some.inj last
    rfl
  name_ends := by
    intro c last
    obtain rfl := Option.some.inj last
    rfl

/-- The first of the directories and the last one are swapped, and come back. -/
theorem nested_origin :
    ({} : Layout).stagedPath (nested ++ '/' :: "Token.sol".toList)
        = "/.temp/contracts/lib/.temp/~Token.sol".toList ∧
      ReportReader.readLines? { cwd := "/home".toList }
          ["Error: Undeclared identifier.".toList,
            "  --> /.temp/contracts/lib/.temp/~Token.sol:10:5:".toList, "   |".toList,
            "10 |     foo();".toList, "   |     ^^^^".toList]
        = some (.ok
          { severity := "Error".toList, message := "Undeclared identifier.".toList,
            file := "Token.sol".toList,
            path := "/contracts/contracts/lib/contracts/Token.sol".toList,
            line := 10, column := 5, length := 4 }) := by
  have small : ∀ n k, n ≤ k → n < Nat.pow 10 k := fun n k le =>
    Nat.lt_of_le_of_lt le (Nat.lt_pow_self (by decide))
  have blanks : ∀ n, Blanks (List.replicate n ' ') :=
    fun n c mem => List.eq_of_mem_replicate mem ▸ rfl
  have diagnostic := (origin_of_staged (r := { cwd := "/home".toList }) rfl reversible_default
    nested_source).2
    "Error: Undeclared identifier.".toList "Error".toList " Undeclared identifier.".toList
    "   |".toList
    "10 |     foo();".toList "   |     ^^^^".toList []
    { lead := List.replicate 2 ' ', arrow := "--> ".toList, colon := [':'], trail := [],
      lead_blank := blanks 2, arrow_optional := .inr ⟨_, blanks 1, rfl⟩, colon_optional := .inr rfl,
      trail_blank := nofun }
    10 5 (by decide +kernel) (by decide +kernel) (small _ _ (by decide)) (small _ _ (by decide))
  exact ⟨by decide +kernel, diagnostic⟩

end ReportReader

end ContractCheck
