import ContractCheck.Proofs.Import.Rescanning
import Mathlib.Data.List.Forall2

/-! # What marking does to a text

Marking reads a text from the left in pieces: the statements it marks, and the single characters
around them (`pieces`).  It exchanges statements for statements and leaves the characters alone
(`Rewritten`), and when it reads its own text again it finds everything marked (`mark_mark`).

The marker goes in front of the last name of a path, unless a segment before that name is a
dependency.  It does not when the last name has no dot and one before it has (`mark_lastNames_iff`):
then the path is cut at that earlier name, and dependencies behind it are not seen.
-/
namespace ContractCheck.Import

open Layout (isSlash)

variable {marker : Text} {dependencies : List Text}

/-! ## Reading a text in pieces -/

/-- What marking reads at once: a statement to mark, or a character between such statements. -/
inductive Piece where
  | letter (c : Char)
  | statement (s : Statement)
deriving DecidableEq

def Piece.text : Piece → Text
  | .letter c => [c]
  | .statement s => s.text

/-- The text that pieces are written as. -/
def written (ps : List Piece) : Text := ps.flatMap Piece.text

/-- The pieces of a text whose next `skip` characters belong to a statement already read. -/
def piecesFrom : Nat → Text → List Piece
  | _, [] => []
  | skip + 1, _ :: r => piecesFrom skip r
  | 0, c :: r =>
    match markableAt? (c :: r) with
    | some (s, rest) => .statement s :: piecesFrom (r.length - rest.length) r
    | none => .letter c :: piecesFrom 0 r

/-- The pieces in which marking reads a text. -/
def pieces (t : Text) : List Piece := piecesFrom 0 t

theorem piecesFrom_eq (skip : Nat) (t : Text) : piecesFrom skip t = pieces (t.drop skip) := by
  induction t generalizing skip with
  | nil => cases skip <;> rfl
  | cons c r ih =>
    cases skip with
    | zero => rfl
    | succ skip => exact ih skip

theorem pieces_cons {c : Char} {r : Text} (none : markableAt? (c :: r) = none) :
    pieces (c :: r) = .letter c :: pieces r := by
  rw [pieces, piecesFrom, none]
  rfl

theorem pieces_text {s : Statement} (sound : s.Sound) (markable : s.Markable) (rest : Text) :
    pieces (s.text ++ rest) = .statement s :: pieces rest := by
  have here := markableAt?_text sound markable rest
  obtain ⟨c, tail, shape⟩ : ∃ c tail, s.text = c :: tail := ⟨_, _, rfl⟩
  have behind : (tail ++ rest).drop ((tail ++ rest).length - rest.length) = rest := by
    rw [List.length_append, Nat.add_sub_cancel, List.drop_left]
  rw [shape, List.cons_append] at here ⊢
  rw [pieces, piecesFrom, here]
  dsimp only
  rw [piecesFrom_eq, behind]

/-- A text is empty, or starts with a character behind which reading goes on, or with a statement to
mark. -/
theorem reading {motive : Text → Prop} (done : motive [])
    (letter : ∀ c r, markableAt? (c :: r) = none → motive r → motive (c :: r))
    (statement : ∀ s rest, Statement.Sound s → s.Markable → motive rest → motive (s.text ++ rest))
    (t : Text) : motive t := by
  induction len : t.length using Nat.strongRecOn generalizing t with
  | _ n ih =>
    subst len
    rcases markableAt?_cases t with none | ⟨s, rest, sound, markable, rfl⟩
    · cases t with
      | nil => exact done
      | cons c r => exact letter c r none (ih r.length (by simp) r rfl)
    · have shorter : rest.length < (s.text ++ rest).length := by simp [Statement.text]; omega
      exact statement s rest sound markable (ih rest.length shorter rest rfl)

/-- The pieces of a text are all of it. -/
theorem written_pieces (t : Text) : written (pieces t) = t := by
  induction t using reading with
  | done => rfl
  | letter c r none ih =>
    rw [pieces_cons none]
    exact congrArg (c :: ·) ih
  | statement s rest sound markable ih =>
    rw [pieces_text sound markable]
    exact congrArg (s.text ++ ·) ih

theorem sound_of_mem_pieces {s : Statement} {t : Text} (mem : .statement s ∈ pieces t) :
    s.Sound ∧ s.Markable := by
  induction t using reading with
  | done => cases mem
  | letter c r none ih =>
    rw [pieces_cons none] at mem
    exact ih ((List.mem_cons.mp mem).resolve_left nofun)
  | statement s' rest sound markable ih =>
    rw [pieces_text sound markable] at mem
    rcases List.mem_cons.mp mem with same | later
    · obtain rfl := Piece.statement.inj same
      exact ⟨sound, markable⟩
    · exact ih later

/-! ## Marking again -/

theorem Statement.Markable.marked {s : Statement} (markable : s.Markable) :
    (s.marked marker dependencies).Markable :=
  ⟨markable.matching, subset_markedPath s.path markable.dot⟩

/-- **What was marked is not changed by marking again**, if the marker has no quote, slash or
dot. -/
theorem mark_mark (plain : ∀ c ∈ marker, isQuote c = false ∧ Layout.endsExtension c = false)
    (content : Text) :
    mark marker dependencies (mark marker dependencies content) =
      mark marker dependencies content := by
  have unquoted : Unquoted marker := fun c mem => (plain c mem).1
  induction content using reading with
  | done => rfl
  | letter c r none ih =>
    have again : markableAt? (mark marker dependencies (c :: r)) = Option.none :=
      markableAt?_mark none
    rw [mark_cons none] at again ⊢
    rw [mark_cons again, ih]
  | statement s rest sound markable ih =>
    have settled : (s.marked marker dependencies).marked marker dependencies =
        s.marked marker dependencies :=
      congrArg (fun path => { s with path })
        (markedPath_markedPath (fun c mem => (plain c mem).2) s.path)
    rw [mark_text sound markable, mark_text (sound.marked unquoted) markable.marked, settled, ih]

/-- A marked import and one still to be marked. -/
theorem partly_marked_settles :
    (∀ c ∈ ['~'], isQuote c = false ∧ Layout.endsExtension c = false) ∧
      mark ['~'] defaultDependencies
        (mark ['~'] defaultDependencies "import './~A.sol'; import 'B.sol';".toList)
        = mark ['~'] defaultDependencies "import './~A.sol'; import 'B.sol';".toList :=
  ⟨by decide, mark_mark (by decide) _⟩

/-! ## Exchanging statements -/

/-- Whether a piece takes the place of another one when statements change in this way. -/
inductive Piece.Changes (change : Statement → Statement → Prop) : Piece → Piece → Prop
  | letter (c : Char) : Changes change (.letter c) (.letter c)
  | statement {s s' : Statement} (changed : change s s') :
    Changes change (.statement s) (.statement s')

/-- Whether a text is another one whose statements were changed in this way, and nothing else
was. -/
def Rewritten (change : Statement → Statement → Prop) (t t' : Text) : Prop :=
  ∃ ps, List.Forall₂ (Piece.Changes change) (pieces t) ps ∧ t' = written ps

variable {change : Statement → Statement → Prop}

theorem rewritten_nil {t' : Text} : Rewritten change [] t' ↔ t' = [] := by
  constructor
  · rintro ⟨ps, changes, rfl⟩
    cases changes
    rfl
  · rintro rfl
    exact ⟨[], .nil, rfl⟩

theorem rewritten_cons {c : Char} {r t' : Text} (none : markableAt? (c :: r) = none) :
    Rewritten change (c :: r) t' ↔ ∃ r', t' = c :: r' ∧ Rewritten change r r' := by
  simp only [Rewritten, pieces_cons none, List.forall₂_cons_left_iff]
  constructor
  · rintro ⟨_, ⟨_, ps, ⟨⟩, changes, rfl⟩, rfl⟩
    exact ⟨written ps, rfl, ps, changes, rfl⟩
  · rintro ⟨_, rfl, ps, changes, rfl⟩
    exact ⟨.letter c :: ps, ⟨_, ps, .letter c, changes, rfl⟩, rfl⟩

theorem rewritten_text {s : Statement} (sound : s.Sound) (markable : s.Markable) {rest t' : Text} :
    Rewritten change (s.text ++ rest) t' ↔
      ∃ s' rest', t' = Statement.text s' ++ rest' ∧ change s s' ∧ Rewritten change rest rest' := by
  simp only [Rewritten, pieces_text sound markable, List.forall₂_cons_left_iff]
  constructor
  · rintro ⟨_, ⟨_, ps, first, changes, rfl⟩, rfl⟩
    cases first with
    | statement changed => exact ⟨_, written ps, rfl, changed, ps, changes, rfl⟩
  · rintro ⟨s', _, rfl, changed, ps, changes, rfl⟩
    exact ⟨.statement s' :: ps, ⟨_, ps, .statement changed, changes, rfl⟩, rfl⟩

/-- **Marking changes statements only.**  It changes them in any way that takes each one to its
marked form. -/
theorem rewritten_mark {t : Text}
    (each : ∀ s, .statement s ∈ pieces t → change s (s.marked marker dependencies)) :
    Rewritten change t (mark marker dependencies t) := by
  induction t using reading with
  | done => exact rewritten_nil.mpr rfl
  | letter c r none ih =>
    rw [pieces_cons none] at each
    exact (rewritten_cons none).mpr ⟨_, mark_cons none,
      ih fun s mem => each s (List.mem_cons_of_mem _ mem)⟩
  | statement s rest sound markable ih =>
    rw [pieces_text sound markable] at each
    exact (rewritten_text sound markable).mpr ⟨_, _, mark_text sound markable rest,
      each s List.mem_cons_self,
      ih fun s mem => each s (List.mem_cons_of_mem _ mem)⟩

/-- Two texts that start with statements start with the same one. -/
theorem Statement.Sound.text_inj {s s' : Statement} (sound : s.Sound) (sound' : s'.Sound)
    {rest rest' : Text}
    (same : s.text ++ rest = s'.text ++ rest') : s = s' ∧ rest = rest' := by
  have found := statementAt?_text sound rest
  rw [same, statementAt?_text sound' rest'] at found
  obtain ⟨rfl, rfl⟩ := Prod.mk.inj (Option.some.inj found)
  exact ⟨rfl, rfl⟩

/-- A marked text is a changed one only if each marked statement is, since it can be read in one way
only. -/
theorem changes_of_rewritten (unquoted : Unquoted marker)
    (keeps : ∀ s s', Statement.Sound s → change s s' → Statement.Sound s') {t : Text}
    (rewritten : Rewritten change t (mark marker dependencies t)) :
    ∀ s, .statement s ∈ pieces t → change s (s.marked marker dependencies) := by
  induction t using reading with
  | done => nofun
  | letter c r none ih =>
    obtain ⟨r', whole, later⟩ := (rewritten_cons none).mp rewritten
    rw [mark_cons none] at whole
    obtain rfl := (List.cons.inj whole).2
    rw [pieces_cons none]
    exact fun s mem => ih later s ((List.mem_cons.mp mem).resolve_left nofun)
  | statement s rest sound markable ih =>
    obtain ⟨s', rest', whole, changed, later⟩ := (rewritten_text sound markable).mp rewritten
    rw [mark_text sound markable] at whole
    obtain ⟨rfl, rfl⟩ := (sound.marked unquoted).text_inj (keeps s s' sound changed) whole
    rw [pieces_text sound markable]
    intro s' mem
    rcases List.mem_cons.mp mem with same | mem
    · rwa [Piece.statement.inj same]
    · exact ih later s' mem

/-- The statement that imports a path and names nothing of it. -/
def importing (path : Text) : Statement := { clause := [' '], quote := '"', path, close := '"' }

theorem importing_sound {path : Text} (given : path ≠ []) (unquoted : Unquoted path) :
    (importing path).Sound :=
  ⟨rfl, fun _ mem => List.mem_singleton.mp mem ▸ rfl, rfl, given, unquoted, rfl⟩

theorem importing_markable {path : Text} (dot : '.' ∈ path) :
    (importing path).Markable := ⟨rfl, dot⟩

/-! ## Last names -/

/-- The last name of a path, behind its last slash, and what stands in front of it. -/
structure LastName (path front name : Text) : Prop where
  whole : path = front ++ name
  closed : Closed front
  bare : ∀ c ∈ name, isSlash c = false

theorem LastName.splitPath {path front name : Text} (h : LastName path front name) :
    (Layout.splitPath path).2 = name := by
  rcases h.closed with rfl | ⟨before, c, slash, rfl⟩
  · rw [h.whole, List.nil_append, Layout.splitPath, Text.cutLastWhere_eq_none h.bare]
    rfl
  · rw [h.whole, List.append_assoc, List.singleton_append, Layout.splitPath,
      Text.cutLastWhere_append slash h.bare before]
    rfl

theorem lastName_of_slash {front behind : Text} {c : Char} (slash : isSlash c = true)
    (free : ∀ x ∈ behind, isSlash x = false) :
    LastName (front ++ c :: behind) (front ++ [c]) behind :=
  ⟨by simp, .inr ⟨front, c, slash, rfl⟩, free⟩

/-- What stands behind the last slash of a path stays as it is when the front of the path changes,
so no marker comes to stand before it. -/
theorem marker_eq_nil (slashless : ∀ c ∈ marker, isSlash c = false)
    {before before' behind front name : Text} {c : Char} (slash : isSlash c = true)
    (free : ∀ x ∈ behind, isSlash x = false) (last : LastName (before ++ c :: behind) front name)
    (same : before' ++ c :: behind = front ++ (marker ++ name)) : marker = [] := by
  have marked : LastName (before' ++ c :: behind) front (marker ++ name) :=
    ⟨same, last.closed, List.forall_mem_append.mpr ⟨slashless, last.bare⟩⟩
  have old : name = behind := last.splitPath.symm.trans (lastName_of_slash slash free).splitPath
  have new : marker ++ name = behind :=
    marked.splitPath.symm.trans (lastName_of_slash slash free).splitPath
  exact List.append_left_eq_self.mp (new.trans old.symm)

/-- A path that is cut has its last slash in the directory, or behind the dot. -/
theorem Cut.lastName {path directory stem tail : Text} (cut : Cut path directory stem tail) :
    LastName path directory (stem ++ '.' :: tail) ∨
      ∃ before c behind, isSlash c = true ∧ tail = before ++ c :: behind ∧
        ∀ x ∈ behind, isSlash x = false := by
  rcases Text.free_or_last isSlash tail with free | ⟨before, c, behind, slash, free, rfl⟩
  · refine .inl ⟨cut.whole, cut.closed, List.forall_mem_append.mpr ⟨cut.stem_slashless, ?_⟩⟩
    exact List.forall_mem_cons.mpr ⟨rfl, free⟩
  · exact .inr ⟨before, c, behind, slash, rfl, free⟩

/-- Whether a statement is as it was, or has the marker in front of the last name of its path and no
dependency before that name. -/
def Statement.NameMarked (marker : Text) (dependencies : List Text) (s s' : Statement) : Prop :=
  s' = s ∨ ∃ front name, LastName s.path front name ∧ isDependency front dependencies = false ∧
    s' = { s with path := front ++ (marker ++ name) }

/-- Whether a statement has the marker in front of the name at which its path is cut, unless that is
spared. -/
def Statement.CutMarked (marker : Text) (dependencies : List Text) (s s' : Statement) : Prop :=
  ∃ directory stem tail, Cut s.path directory stem tail ∧
    (Spared marker dependencies directory stem ∧ s' = s ∨
      ¬ Spared marker dependencies directory stem ∧
        s' = { s with path := directory ++ (marker ++ (stem ++ '.' :: tail)) })

section Cut

variable {s : Statement} {directory stem tail : Text} (cut : Cut s.path directory stem tail)
include cut

theorem Statement.marked_spared (spared : Spared marker dependencies directory stem) :
    s.marked marker dependencies = s :=
  congrArg (fun path => { s with path }) (markedPath_spared cut spared)

theorem Statement.marked_unspared (marked : ¬ Spared marker dependencies directory stem) :
    s.marked marker dependencies =
      { s with path := directory ++ (marker ++ (stem ++ '.' :: tail)) } :=
  congrArg (fun path => { s with path }) (markedPath_marked cut marked)

end Cut

theorem Statement.Markable.cutMarked {s : Statement} (markable : s.Markable) :
    s.CutMarked marker dependencies (s.marked marker dependencies) := by
  obtain ⟨directory, stem, tail, cut⟩ := exists_cut markable.dot
  refine ⟨directory, stem, tail, cut, ?_⟩
  by_cases spared : Spared marker dependencies directory stem
  · exact .inl ⟨spared, s.marked_spared cut spared⟩
  · exact .inr ⟨spared, s.marked_unspared cut spared⟩

theorem Statement.NameMarked.sound {s s' : Statement} (unquoted : Unquoted marker) (sound : s.Sound)
    (h : s.NameMarked marker dependencies s') : s'.Sound := by
  rcases h with rfl | ⟨front, name, last, -, rfl⟩
  · exact sound
  · have given := sound.given
    have path := sound.path
    rw [last.whole] at given path
    obtain ⟨before, behind⟩ := List.forall_mem_append.mp path
    refine ⟨sound.clause, sound.unquoted, sound.quote, ?_,
      Unquoted.append before (unquoted.append behind),
      sound.close⟩
    simp only [ne_eq, List.append_eq_nil_iff, not_and] at given ⊢
    exact fun empty _ => given empty

/-- The marker stands in front of the last name, unless the path is cut in front of a slash. -/
theorem Statement.nameMarked_iff {s : Statement} (slashless : ∀ c ∈ marker, isSlash c = false)
    {directory stem tail : Text} (cut : Cut s.path directory stem tail) :
    s.NameMarked marker dependencies (s.marked marker dependencies) ↔
      ((∃ c ∈ tail, isSlash c = true) → Spared marker dependencies directory stem) := by
  constructor
  · rintro named ⟨c, mem, slash⟩
    by_contra marked
    rcases named with same | ⟨front, name, last, -, same⟩
    · exact marked ((markedPath_eq_self_iff cut).mp (congrArg Statement.path same))
    · rcases cut.lastName with here | ⟨before, c', behind, slash', rfl, free⟩
      · exact nomatch (here.bare c (by simp [mem])).symm.trans slash
      · have path := (markedPath_marked cut marked).symm.trans (congrArg Statement.path same)
        have shape : directory ++ (marker ++ (stem ++ '.' :: before)) ++ c' :: behind =
            front ++ (marker ++ name) := by
          simpa using path
        have whole : s.path = directory ++ (stem ++ '.' :: before) ++ c' :: behind := by
          simp [cut.whole]
        have empty := marker_eq_nil slashless slash' free (whole ▸ last) shape
        exact marked (.inr (.inr (by rw [empty]; rfl)))
  · intro spared
    by_cases here : Spared marker dependencies directory stem
    · exact .inl (s.marked_spared cut here)
    · rcases cut.lastName with last | ⟨before, c, behind, slash, rfl, -⟩
      · have own := Bool.eq_false_iff.mpr fun dependency => here (.inl dependency)
        exact .inr ⟨directory, stem ++ '.' :: tail, last, own, s.marked_unspared cut here⟩
      · exact absurd (spared ⟨c, by simp, slash⟩) here

/-- **Where the marker goes.**  Marking leaves everything but paths of statements alone, and there
it puts the marker in front of the name at which the path is cut.  That is always the last name, and
never behind a dependency, exactly when each path that is cut in front of one of its slashes is
spared. -/
theorem mark_lastNames_iff (plain : ∀ c ∈ marker, isQuote c = false ∧ isSlash c = false)
    (content : Text) :
    (written (pieces content) = content ∧ ∀ s, .statement s ∈ pieces content →
      s.Sound ∧ s.Markable) ∧
      Rewritten (Statement.CutMarked marker dependencies) content
        (mark marker dependencies content) ∧
      (Rewritten (Statement.NameMarked marker dependencies) content
        (mark marker dependencies content) ↔
        ∀ s, .statement s ∈ pieces content → ∀ directory stem tail, Cut s.path directory stem tail →
          (∃ c ∈ tail, isSlash c = true) → Spared marker dependencies directory stem) := by
  have unquoted : Unquoted marker := fun c mem => (plain c mem).1
  have slashless : ∀ c ∈ marker, isSlash c = false := fun c mem => (plain c mem).2
  refine ⟨⟨written_pieces content, fun s => sound_of_mem_pieces⟩, ?_,
    fun named s mem directory stem tail cut => ?_, fun spared => rewritten_mark fun s mem => ?_⟩
  · exact rewritten_mark fun s mem => (sound_of_mem_pieces mem).2.cutMarked
  · exact (Statement.nameMarked_iff slashless cut).mp
      (changes_of_rewritten unquoted (fun s s' sound changed => changed.sound unquoted sound)
        named s mem)
  · obtain ⟨directory, stem, tail, cut⟩ := exists_cut (sound_of_mem_pieces mem).2.dot
    exact (Statement.nameMarked_iff slashless cut).mpr (spared s mem directory stem tail cut)

/-- `import "./lib/B.sol";` becomes `import "./lib/~B.sol";`. -/
theorem lib_import_named :
    mark ['~'] defaultDependencies "import \"./lib/B.sol\";".toList =
      "import \"./lib/~B.sol\";".toList ∧
      Rewritten (Statement.NameMarked ['~'] defaultDependencies) "import \"./lib/B.sol\";".toList
        "import \"./lib/~B.sol\";".toList := by
  have marked : mark ['~'] defaultDependencies "import \"./lib/B.sol\";".toList
      = "import \"./lib/~B.sol\";".toList := by decide +kernel
  have read : pieces "import \"./lib/B.sol\";".toList
      = [.statement (importing "./lib/B.sol".toList), .letter ';'] := by decide +kernel
  have spared : ∀ s, .statement s ∈ pieces "import \"./lib/B.sol\";".toList → ∀ directory stem tail,
      Cut s.path directory stem tail → (∃ c ∈ tail, isSlash c = true) →
        Spared ['~'] defaultDependencies directory stem := by
    intro s mem directory stem tail cut slash
    rw [read] at mem
    have only : s = importing "./lib/B.sol".toList := by simpa using mem
    have place := cut.eq_some
    rw [only, show cutModule? (importing "./lib/B.sol".toList).path
      = some ("./lib/".toList, "B".toList, ".sol".toList) by decide +kernel] at place
    cases place
    obtain ⟨c, mem, slash⟩ := slash
    exact nomatch (Text.eq_false_of_any (t := "sol".toList) rfl c mem).symm.trans slash
  have named := (mark_lastNames_iff (by decide) _).2.2.mpr spared
  rw [marked] at named
  exact ⟨marked, named⟩

/-- A statement is not marked as it should be when its path is cut in front of a slash and not
spared. -/
theorem not_nameMarked (plain : ∀ c ∈ marker, isQuote c = false ∧ isSlash c = false) (path : Text)
    {directory stem tail : Text} (unquoted : Unquoted path) (cut : Cut path directory stem tail)
    (slash : ∃ c ∈ tail, isSlash c = true) (marked : ¬ Spared marker dependencies directory stem)
    (rest : Text) :
    ¬ Rewritten (Statement.NameMarked marker dependencies) ((importing path).text ++ rest)
      (mark marker dependencies ((importing path).text ++ rest)) := by
  intro named
  have given : path ≠ [] := by
    rintro rfl
    exact nomatch cut.dot
  have sound : (importing path).Sound := importing_sound given unquoted
  have first : .statement (importing path) ∈ pieces ((importing path).text ++ rest) := by
    rw [pieces_text sound (importing_markable cut.dot)]
    exact List.mem_cons_self
  have changed := changes_of_rewritten (fun c mem => (plain c mem).1)
    (fun s s' sound changed => Statement.NameMarked.sound (fun c mem => (plain c mem).1) sound
      changed) named _ first
  exact marked ((Statement.nameMarked_iff (fun c mem => (plain c mem).2) (s := importing path)
    cut).mp changed slash)

/-- In `import "./a.b/c";` the marker gets in front of the name of a directory, and
`import "./a.b/node_modules/c";` is changed too. -/
theorem directory_name_marked :
    mark ['~'] defaultDependencies "import \"./a.b/c\";".toList = "import \"./~a.b/c\";".toList ∧
    mark ['~'] defaultDependencies "import \"./a.b/node_modules/c\";".toList
      = "import \"./~a.b/node_modules/c\";".toList ∧
    ∀ content ∈ ["import \"./a.b/c\";".toList, "import \"./a.b/node_modules/c\";".toList],
      ¬ Rewritten (Statement.NameMarked ['~'] defaultDependencies) content
        (mark ['~'] defaultDependencies content) := by
  have plain : ∀ c ∈ ['~'], isQuote c = false ∧ isSlash c = false := by decide
  refine ⟨by decide +kernel, by decide +kernel,
    List.forall_mem_cons.mpr ⟨?_, List.forall_mem_singleton.mpr ?_⟩⟩
  · exact not_nameMarked plain "./a.b/c".toList (Text.eq_false_of_any rfl) (.of_eq_some rfl)
      ⟨'/', by decide, rfl⟩ (by decide +kernel) [';']
  · exact not_nameMarked plain "./a.b/node_modules/c".toList (Text.eq_false_of_any rfl)
      (.of_eq_some rfl)
      ⟨'/', by decide, rfl⟩ (by decide +kernel) [';']

end ContractCheck.Import
