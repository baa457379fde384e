import ContractCheck.Lint.Linter
import ContractCheck.Proofs.Host.Logged
import ContractCheck.Proofs.Text.Kinds

/-! # What validations come to

Validating a document is to give diagnostics, or to fail with the linter's own failure, whatever the
linter does.  A linter that cannot be started and a report that is no JSON are such failures.  But
the fields of an entry are taken as they are, the numbers of a line may have too many digits, the
output need not be text, and the linter may have removed its rule file: what these lead to are other
faults.  They are the only ones (`Linter.validate_proper_iff`).
-/
namespace ContractCheck

open ContractCheck.Action

/-! ## Proper outcomes -/

/-- A fault that is a linter's own failure. -/
def Fault.IsLinting : Fault → Prop
  | .failure f => f.kind = .linting
  | _ => False

instance : DecidablePred Fault.IsLinting
  | .failure f => inferInstanceAs (Decidable (f.kind = .linting))
  | .file .. | .invalid _ | .notText | .wrongShape _ | .noSuchPart _ | .badValue
    _ | .endless | .unreadableSetting
  | .unreachable | .garbled | .unencodable | .corrupt | .noHome => isFalse id

theorem Lint.isLinting_failure (linter : LinterName) (message : Text) :
    (Lint.failure linter message).IsLinting := rfl

namespace Lint

variable {α β : Type}

/-- A value, or a linter's own failure. -/
def Proper : Except Fault α → Prop
  | .ok _ => True
  | .error e => e.IsLinting

instance : DecidablePred (Proper (α := α))
  | .ok _ => isTrue trivial
  | .error e => inferInstanceAs (Decidable e.IsLinting)

/-! ## Outcomes that hinge on a condition -/

/-- An outcome that is a value under a condition, and a fault of another kind without it. -/
inductive Hinges (p : Prop) : Except Fault α → Prop
  | value {a : α} (holds : p) : Hinges p (.ok a)
  | fault {e : Fault} (foreign : ¬ e.IsLinting) (fails : ¬ p) : Hinges p (.error e)

namespace Hinges

variable {p q : Prop} {outcome : Except Fault α}

theorem proper_iff (h : Hinges p outcome) : Proper outcome ↔ p := by
  cases h with
  | value holds => exact iff_of_true trivial holds
  | fault foreign fails => exact iff_of_false foreign fails

theorem congr (h : Hinges p outcome) (iff : p ↔ q) : Hinges q outcome := propext iff ▸ h

/-- What is done with a value may hinge on a second condition. -/
theorem bind {f : α → Except Fault β} (first : Hinges p outcome)
    (rest : ∀ a, outcome = .ok a → Hinges q (f a)) :
    Hinges (p ∧ q) (outcome >>= f) := by
  cases first with
  | value holds => exact (rest _ rfl).congr (and_iff_right holds).symm
  | fault foreign fails => exact .fault foreign fun both => fails both.1

/-- A list hinges on the conditions of its items. -/
theorem mapM {f : α → Except Fault β} {p : α → Prop} {l : List α}
    (each : ∀ a ∈ l, Hinges (p a) (f a)) :
    Hinges (∀ a ∈ l, p a) (l.mapM f) := by
  induction l with
  | nil => exact .value (List.forall_mem_nil p)
  | cons a l ih =>
    obtain ⟨here, rest⟩ := List.forall_mem_cons.mp each
    rw [List.mapM_cons]
    refine (here.bind fun b _ => ?_).congr List.forall_mem_cons.symm
    exact ((ih rest).bind fun bs _ => .value trivial).congr (Iff.of_eq (and_true _))

end Hinges

/-! ## Entries -/

/-- A value that is taken as a whole number: a number that is not endless, a truth value, or the
text of an integer. -/
def Countable : Value → Prop
  | .int _ | .bool _ => True
  | .float x => x.isFinite = true
  | .text t => (Text.readInt? t).isSome = true
  | .misnamed _ v => Countable v
  | .null | .broken _ | .moment _ | .list _ | .table _ => False

/-- A string, whether it is a text or not. -/
def IsString : Value → Prop
  | .text _ | .broken _ => True
  | _ => False

/-- A string, or nothing. -/
def StringOrNull (v : Value) : Prop := v = .null ∨ IsString v

/-- The value of a field that need not be there. -/
def fieldOr (fs : Fields) (key : String) (v : Value) : Value := (fs.get? key.toList).getD v

/-- An entry about a line of which a diagnostic can be made. -/
structure Showable (fs : Fields) (line : Value) : Prop where
  line : Countable line
  column : (fieldOr fs "column" .null).given = true → Countable (fieldOr fs "column" .null)
  rule : StringOrNull (fieldOr fs "ruleId" .null)
  message : (fieldOr fs "ruleId" .null).given = false → IsString (fieldOr fs "message" (.text []))

/-- An entry that is about no line, or of which a diagnostic can be made. -/
def Usable (fs : Fields) : Prop := ∀ line, fs.get? "line".toList = some line → Showable fs line

/-- A number hinges on the value that it is taken from. -/
theorem whole_hinges : ∀ v : Value, Hinges (Countable v) (whole v)
  | .int _ | .bool _ => .value trivial
  | .null | .broken _ | .moment _ | .list _ | .table _ => .fault id id
  | .misnamed _ v => by
    rw [whole]
    exact whole_hinges v
  | .text t => by
    cases read : Text.readInt? t with
    | some n =>
      have taken : whole (.text t) = .ok n := by rw [whole, read]
      rw [taken]
      exact .value (Option.isSome_iff_exists.mpr ⟨n, read⟩)
    | none =>
      have refused : whole (.text t) =
          .error (.badValue ("invalid literal for int() with base 10: ".toList ++
            Text.quote t)) := by rw [whole, read]
      rw [refused]
      exact .fault id fun some_ => by simp [Countable, read] at some_
  | .float x => by
    unfold whole
    by_cases finite : x.isFinite = true
    · have number : x.isNaN = false := by
        simp only [Binary64.isFinite, Binary64.isNaN, decide_eq_true_eq,
          decide_eq_false_iff_not] at finite ⊢
        omega
      simp only [number, finite, Bool.false_eq_true, if_false, if_true]
      exact .value finite
    · simp only [finite, Bool.false_eq_true, if_false]
      split <;> exact .fault id finite

theorem atLeastZero?_int (n : Int) :
    EditorDiagnostic.atLeastZero? (.int n) = some (.int n.toNat) := by
  unfold EditorDiagnostic.atLeastZero? EditorDiagnostic.belowZero?
  by_cases below : n < 0
  · have zero : n.toNat = 0 := by omega
    simp [below, zero]
  · have same : (n.toNat : Int) = n := by omega
    simp [below, same]

theorem place_nat (line character : Nat) :
    EditorDiagnostic.place (.int line) (.int character) = .valid ⟨line, character⟩ := by
  have natural (n : Nat) : Accept.natural (.int n) = .valid n := by
    have least : ¬ (n : Int) < 0 := by omega
    simp [Accept.natural, Accept.integer, Checked.andThen, least]
  unfold EditorDiagnostic.place
  rw [natural, natural]
  rfl

/-- What an entry comes to, once its numbers are taken. -/
def shown (line column : Int) (message rule : Value) (severity : Severity) :
    Except Fault (Option EditorDiagnostic) :=
  match EditorDiagnostic.compose (.int line) (.int column) (.int 0) message severity
    (.text LinterName.solhint.label) rule with
  | .ok d => .ok (some d)
  | .error (.issues is) => .error (.invalid is)
  | .error .notComparable => .error (.wrongShape "a position is no number".toList)

/-- A diagnostic at numbers hinges on its message and its rule. -/
theorem shown_hinges (line column : Int) (message rule : Value) (severity : Severity) :
    Hinges (IsString message ∧ StringOrNull rule) (shown line column message rule severity) := by
  have placed : EditorDiagnostic.compose (.int line) (.int column) (.int 0) message severity
        (.text LinterName.solhint.label) rule =
      Except.mapError EditorDiagnostic.Unfit.issues (Checked.toExcept
        ((fun message source code =>
            { start := ⟨line.toNat, column.toNat⟩, stop := ⟨line.toNat, column.toNat⟩,
              severity, message, source, code })
          <$> (Accept.text message).behind "message".toList
          <*> (Accept.text (.text LinterName.solhint.label)).behind "source".toList
          <*> (Accept.orNull Accept.text rule).behind "code".toList)) := by
    unfold EditorDiagnostic.compose
    simp only [atLeastZero?_int, place_nat, EditorDiagnostic.endOf, Checked.andThen,
      Int.toNat_zero, Int.natCast_zero, Int.add_zero]
  unfold shown
  rw [placed]
  cases message with
  | text | broken =>
    cases rule with
    | null => exact .value ⟨trivial, .inl rfl⟩
    | text | broken => exact .value ⟨trivial, .inr trivial⟩
    | bool | int | float | moment | list | table | misnamed =>
      exact .fault id fun both => both.2.elim nofun id
  | null | bool | int | float | moment | list | table | misnamed =>
    -- Whatever the rule is, the message is wrong.
    cases (Accept.orNull Accept.text rule).behind "code".toList with
    | valid code => exact .fault id fun both => both.1
    | invalid is => exact .fault id fun both => both.1

/-- A message that ends with a rule is a text. -/
theorem messageOf_isString_iff (message rule : Value) :
    IsString (messageOf message rule) ↔ (rule.given = false → IsString message) := by
  unfold messageOf
  cases rule.given with
  | true => exact iff_of_true trivial nofun
  | false => exact ⟨fun text _ => text, fun text => text rfl⟩

theorem entry_of_line {fs : Fields} {line : Value} (about : fs.get? "line".toList = some line) :
    entry fs = (do
      let line ← whole line
      let column ← whole
        (if (fieldOr fs "column" .null).given then fieldOr fs "column" .null else .int 1)
      shown (line - 1) (column - 1) (messageOf (fieldOr fs "message" (.text []))
        (fieldOr fs "ruleId" .null))
        (fieldOr fs "ruleId" .null) (severityOf (fieldOr fs "severity" .null))) := by
  unfold entry
  rw [about]
  rfl

/-- **An entry hinges on its fields**: a diagnostic can be made of it, or a fault that is no
linter's own. -/
theorem entry_hinges (fs : Fields) : Hinges (Usable fs) (entry fs) := by
  cases about : fs.get? "line".toList with
  | none =>
    have skipped : entry fs = .ok none := by
      unfold entry
      rw [about]
    rw [skipped]
    exact .value fun line found => nomatch about.symm.trans found
  | some line =>
    rw [entry_of_line about]
    have column : Hinges ((fieldOr fs "column" .null).given = true →
        Countable (fieldOr fs "column" .null))
        (whole
          (if (fieldOr fs "column" .null).given then fieldOr fs "column" .null else .int 1)) := by
      split
      · next given => exact (whole_hinges _).congr ⟨fun countable _ => countable,
          fun countable => countable given⟩
      · next missing =>
          exact (whole_hinges _).congr ⟨fun _ given => absurd given missing, fun _ => trivial⟩
    refine ((whole_hinges line).bind fun n _ => column.bind fun m _ =>
      shown_hinges _ _ _ _ _).congr ?_
    rw [messageOf_isString_iff]
    constructor
    · rintro ⟨line_, column_, message, rule⟩ other found
      obtain rfl := Option.some.inj (about.symm.trans found)
      exact ⟨line_, column_, rule, message⟩
    · intro usable
      obtain ⟨line_, column_, rule, message⟩ := usable line about
      exact ⟨line_, column_, message, rule⟩

/-- The entries of a list are gone through one by one. -/
theorem entries_eq_mapM (vs : List Value) :
    entries vs = (do
      let ds ← (vs.filterMap Value.fields?).mapM entry
      .ok (ds.flatMap Option.toList)) := by
  induction vs with
  | nil => rfl
  | cons v vs ih =>
    cases v with
    | table fs =>
      have found : Value.fields? (.table fs) = some fs := rfl
      rw [entries, ih, List.filterMap_cons_some found, List.mapM_cons]
      cases entry fs with
      | error e => rfl
      | ok d =>
        cases (vs.filterMap Value.fields?).mapM entry with
        | error e => rfl
        | ok ds => rfl
    | null | bool | int | float | text | broken | moment | list | misnamed => exact ih

/-- A report in JSON all of whose entries can be shown. -/
def UsableReport (output : Text) : Prop :=
  Text.trim output ≠ [] → ∀ vs fs, Json.read? output = some (.list vs) → .table fs ∈ vs → Usable fs

/-- **A report in JSON comes to diagnostics or to the linter's own failure** exactly if its entries
are usable. -/
theorem readEntries_proper_iff (output : Text) :
    Proper (readEntries output) ↔ UsableReport output := by
  unfold readEntries UsableReport
  by_cases blank : Text.trim output = []
  · simp only [blank, List.isEmpty_nil, if_true]
    exact iff_of_true trivial fun given => absurd rfl given
  · simp only [blank, List.isEmpty_iff, if_false, ne_eq, not_false_eq_true, true_implies]
    cases Json.read? output with
    | none => exact iff_of_true (isLinting_failure _ _) nofun
    | some v =>
      cases v with
      | list vs =>
        have each := Hinges.mapM fun fs (_ : fs ∈ vs.filterMap Value.fields?) => entry_hinges fs
        have all : Hinges (∀ fs ∈ vs.filterMap Value.fields?, Usable fs) (entries vs) := by
          rw [entries_eq_mapM]
          exact (each.bind fun ds _ => .value trivial).congr (Iff.of_eq (and_true _))
        refine all.proper_iff.trans ?_
        simp only [List.mem_filterMap]
        constructor
        · rintro usable vs' fs same mem
          obtain rfl := Value.list.inj (Option.some.inj same)
          exact usable fs ⟨.table fs, mem, rfl⟩
        · rintro usable fs ⟨v, mem, table⟩
          obtain rfl : v = .table fs := by
            cases v <;> cases table
            rfl
          exact usable vs fs rfl mem
      | null | bool | int | float | text | broken | moment | table | misnamed =>
        exact iff_of_true trivial nofun

/-! ## Lines -/

theorem digitsThenColon?_digits {t digits rest : Text}
    (found : digitsThenColon? t = some (digits, rest)) :
    digits ≠ [] ∧ ∀ c ∈ digits, Text.isDecimal c = true := by
  unfold digitsThenColon? at found
  dsimp only at found
  split at found
  · split at found
    · cases found
    · next given =>
      obtain ⟨rfl, -⟩ := Prod.mk.inj (Option.some.inj found)
      refine ⟨fun nothing => given (List.isEmpty_iff.mpr nothing), fun c mem => ?_⟩
      exact List.all_eq_true.mp List.all_takeWhile c mem
  · cases found

/-- The numbers of a finding are digits. -/
structure Finding.Numbered (f : Finding) : Prop where
  line : f.line ≠ [] ∧ ∀ c ∈ f.line, Text.isDecimal c = true
  column : f.column ≠ [] ∧ ∀ c ∈ f.column, Text.isDecimal c = true

theorem numbered_of_findingAfter? {t : Text} {f : Finding} (found : findingAfter? t = some f) :
    f.Numbered := by
  unfold findingAfter? at found
  split at found
  · cases found
  · next line r atLine =>
    split at found
    · cases found
    · next column r' atColumn =>
      dsimp only at found
      split at found
      · split at found
        · cases found
        · cases found
          exact ⟨digitsThenColon?_digits atLine, digitsThenColon?_digits atColumn⟩
      · cases found

theorem numbered_of_finding? {t : Text} {f : Finding} (found : finding? t = some f) :
    f.Numbered := by
  induction t with
  | nil => cases found
  | cons c r ih =>
    unfold finding? at found
    split at found
    · next here =>
      cases found
      split at here
      · exact numbered_of_findingAfter? here
      · cases here
    · exact ih found

/-- A finding whose numbers have no more digits than are read. -/
structure Finding.Readable (f : Finding) : Prop where
  line : f.line.length ≤ Text.maxDigits
  column : f.column.length ≤ Text.maxDigits

/-- A finding hinges on the lengths of its numbers. -/
theorem toEditor_hinges {f : Finding} (numbered : f.Numbered) : Hinges f.Readable f.toEditor := by
  have line := Text.readInt?_of_decimals numbered.line.1 numbered.line.2
  have column := Text.readInt?_of_decimals numbered.column.1 numbered.column.2
  unfold Finding.toEditor
  split
  · next found found' =>
      exact .value ⟨line.mp (by rw [found]; rfl), column.mp (by rw [found']; rfl)⟩
  · next missing =>
    refine .fault id fun readable => ?_
    obtain ⟨n, found⟩ := Option.isSome_iff_exists.mp (line.mpr readable.line)
    obtain ⟨m, found'⟩ := Option.isSome_iff_exists.mp (column.mpr readable.column)
    exact missing n m found found'

/-- A report of lines in which no number is too long. -/
def ReadableLines (output : Text) : Prop :=
  ∀ l ∈ Text.lines output, ∀ f, finding? (Text.trim l) = some f → f.Readable

/-- **A report of lines comes to diagnostics** exactly if its numbers are read; it never fails as
the linter's own. -/
theorem readFindings_proper_iff (output : Text) :
    Proper (readFindings output) ↔ ReadableLines output := by
  unfold readFindings
  have each : ∀ f ∈ (Text.lines output).filterMap (fun l => finding? (Text.trim l)),
      Hinges f.Readable f.toEditor := by
    intro f mem
    obtain ⟨l, -, found⟩ := List.mem_filterMap.mp mem
    exact toEditor_hinges (numbered_of_finding? found)
  refine (Hinges.mapM each).proper_iff.trans ?_
  simp only [List.mem_filterMap]
  exact ⟨fun all l mem f found => all f ⟨l, mem, found⟩,
    fun all f ⟨l, mem, found⟩ => all l mem f found⟩

end Lint

/-! ## Validations -/

namespace Linter

open Lint

variable {h h' : Host} (l : Linter)

/-- A report from which nothing but diagnostics or the linter's own failure comes. -/
def Accepts (output : Text) : Prop :=
  match l.name with
  | .solhint => UsableReport output
  | .solium => ReadableLines output

theorem readReport_proper_iff (output : Text) :
    Proper (l.readReport output) ↔ l.Accepts output := by
  unfold readReport Accepts
  cases l.name with
  | solhint => exact readEntries_proper_iff output
  | solium => exact readFindings_proper_iff output

/-- What a run of the program comes to. -/
def taken (path : Text) : Except FileError Finished → Except Fault (Text × Text)
  | .error e =>
    .error
      (if e.fromSystem then Lint.failure l.name ("Failed to run ".toList ++ l.name.label)
      else .file e path)
  | .ok finished =>
    match Utf8.read? finished.output, Utf8.read? finished.errors with
    | some out, some errors => .ok (Text.unifyBreaks out, Text.unifyBreaks errors)
    | _, _ => .error .notText

/-- How the program is run on a text. -/
def invocation (h : Host) (path text : Text) (ruleFile : Option Text) : Invocation :=
  { program := (l.command path ruleFile).headD []
    arguments := (l.command path ruleFile).drop 1
    directory := l.directoryFor h path
    input := Utf8.encode text }

/-- The program is run once, and what it wrote is taken. -/
theorem execute_runs (ready : h.LogReady) (path text : Text) (ruleFile : Option Text) :
    ∃ r h', (l.execute path text ruleFile).perform h = (l.taken path (h.outcome r), h') ∧
      h.Follows [r] h' ∧
      h'.files = h.filesAfter r := by
  obtain ⟨h₁, noted, logged⟩ := Log.debug_logged (ownerOf l.name)
    ("Running linter: ".toList ++ Text.join [' '] (l.command path ruleFile)) [] h ready
  have before := logged.shows.toFollows
  let r : ToolRun := { invocation := l.invocation h₁ path text ruleFile, files := h₁.files }
  have ran : (runTool r.invocation).perform h₁ =
      (.ok (h₁.outcome r), { h₁ with files := h₁.filesAfter r, runs := h₁.runs ++ [r] }) :=
      perform_runTool r.invocation h₁
  have after : h₁.Follows [r] { h₁ with files := h₁.filesAfter r, runs := h₁.runs ++ [r] } :=
    { cwd := rfl, environment := rfl, tools := rfl, ready := Host.ready_of_same rfl rfl,
      runs := rfl }
  refine ⟨r, _, ?_, before.trans after, congrFun before.filesAfter r⟩
  unfold execute
  rw [perform_bind_ok noted, perform_bind_ok (perform_get h₁)]
  refine (perform_bind_ok ran).trans ?_
  rw [← before.outcome]
  unfold taken
  cases h₁.outcome r with
  | error e =>
    dsimp only
    split <;> rfl
  | ok finished =>
    dsimp only
    cases Utf8.read? finished.output <;> cases Utf8.read? finished.errors <;> rfl

/-- The outcome of an activity is kept, unless its rule file cannot be removed. -/
theorem perform_withoutRuleFile {α : Type} {act : Action α} {outcome : Except Fault α}
    (done : act.perform h = (outcome, h'))
    (path : Text) :
    (withoutRuleFile (some path) act).perform h =
      match h'.files.remove h'.cwd path with
      | .ok fs => (outcome, { h' with files := fs })
      | .error e => (.error (.file e path), h') := by
  have caught : (tryCatch (Except.ok <$> act) fun e =>
      pure (.error e) : Action (Except Fault α)).perform h
      = (.ok outcome, h') := by
    rw [perform_tryCatch, perform_map, done]
    cases outcome <;> rfl
  unfold withoutRuleFile
  rw [perform_bind_ok caught]
  dsimp only
  rw [perform_bind, perform_change]
  cases h'.files.remove h'.cwd path with
  | error e => rfl
  | ok fs => cases outcome <;> rfl

theorem withoutRuleFile_none {α : Type} (act : Action α) (h : Host) :
    (withoutRuleFile none act).perform h = act.perform h := by
  unfold withoutRuleFile
  rw [perform_bind, perform_tryCatch, perform_map]
  rcases act.perform h with ⟨⟨e⟩ | ⟨a⟩, h'⟩ <;> rfl

/-- The rules are JSON and written to the rule file, if any are set. -/
def RulesWritten (h : Host) : Prop :=
  l.rules ≠ [] → ∃ document, Json.write? (.table l.ruleDocument) = some document ∧
    (h.files.write h.cwd (l.rulePath h) (Utf8.encode document)).isOk = true

/-- The path of the rule file, if rules are set. -/
def ruleFile (h : Host) : Option Text := if l.rules.isEmpty then none else some (l.rulePath h)

/-- The rule file is written, or what fails is not the linter. -/
theorem writeRules_cases (h : Host) :
    (l.RulesWritten h ∧ ∃ h', l.writeRules.perform h = (.ok (l.ruleFile h), h') ∧ h.Follows [] h') ∨
      (¬ l.RulesWritten h ∧ ∃ e h', l.writeRules.perform h = (.error e, h') ∧ ¬ e.IsLinting) := by
  unfold writeRules RulesWritten ruleFile
  cases none : l.rules.isEmpty with
  | true =>
    exact .inl ⟨fun given => absurd (List.isEmpty_iff.mp none) given, h, rfl,
      (Host.Shows.refl h).toFollows⟩
  | false =>
    have given : l.rules ≠ [] := fun nothing => by simp [nothing] at none
    simp only [Bool.false_eq_true, if_false]
    rw [perform_bind_ok (perform_get h)]
    have wrote (content : Bytes) :=
      perform_change (fun fs cwd p => fs.write cwd p content) (l.rulePath h) h
    cases json : Json.write? (.table l.ruleDocument) with
    | none =>
      have unwritten : ¬ (l.rules ≠ [] → ∃ document, (Option.none : Option Text) = some document ∧
          (h.files.write h.cwd (l.rulePath h) (Utf8.encode document)).isOk = true) := by
        intro written
        obtain ⟨document, found, -⟩ := written given
        cases found
      have emptied := wrote []
      refine .inr ⟨unwritten, ?_⟩
      cases outcome : h.files.write h.cwd (l.rulePath h) [] with
      | ok fs =>
        simp only [outcome] at emptied
        exact ⟨_, _, perform_bind_ok emptied, id⟩
      | error e =>
        simp only [outcome] at emptied
        exact ⟨_, _, perform_bind_error emptied, id⟩
    | some document =>
      have wrote := wrote (Utf8.encode document)
      cases outcome : h.files.write h.cwd (l.rulePath h) (Utf8.encode document) with
      | ok fs =>
        simp only [outcome] at wrote
        exact .inl ⟨fun _ => ⟨document, rfl, by rw [outcome]; rfl⟩, _, perform_bind_ok wrote,
          (Host.Shows.files h fs).toFollows⟩
      | error e =>
        simp only [outcome] at wrote
        refine .inr ⟨fun written => ?_, _, _, perform_bind_error wrote, id⟩
        obtain ⟨document', same, done⟩ := written given
        obtain rfl := Option.some.inj same
        rw [outcome] at done
        cases done

/-- The rule file is still there after a run and can be removed, if rules are set. -/
def RulesLeft (h : Host) (r : ToolRun) : Prop :=
  l.rules ≠ [] → ((h.filesAfter r).remove h.cwd (l.rulePath h)).isOk = true

/-- An end of a run from which nothing but diagnostics or the linter's own failure comes: the system
refused to start the program, or what it wrote is text and its report is taken. -/
def Answers : Except FileError Finished → Prop
  | .error e => e.fromSystem = true
  | .ok finished => ∃ out errors, Utf8.read? finished.output = some out ∧
      Utf8.read? finished.errors = some errors ∧
      l.Accepts (Text.unifyBreaks out)

/-- A run of the program from which nothing but diagnostics or the linter's own failure comes. -/
structure Orderly (h : Host) (r : ToolRun) : Prop where
  rules : l.RulesLeft h r
  answers : l.Answers (h.outcome r)

/-- A run whose rule file is removed. -/
theorem execute_cleared (ready : h.LogReady) (path text : Text) (rulePath : Option Text) :
    ∃ r h', h.Follows [r] h' ∧
      (((∀ p ∈ rulePath, ((h.filesAfter r).remove h.cwd p).isOk = true) ∧
          (withoutRuleFile rulePath (l.execute path text rulePath)).perform h =
            (l.taken path (h.outcome r), h')) ∨
        ∃ p ∈ rulePath, ((h.filesAfter r).remove h.cwd p).isOk = false ∧ ∃ e,
          (withoutRuleFile rulePath (l.execute path text rulePath)).perform h =
            (.error (.file e p), h')) := by
  obtain ⟨r, h', done, follows, files⟩ := l.execute_runs ready path text rulePath
  cases rulePath with
  | none => exact ⟨r, h', follows, .inl ⟨nofun, (withoutRuleFile_none _ h).trans done⟩⟩
  | some p =>
    have cleared := perform_withoutRuleFile done p
    have same : h'.files.remove h'.cwd p = (h.filesAfter r).remove h.cwd p := by
      rw [files, follows.cwd]
    rw [same] at cleared
    cases removed : (h.filesAfter r).remove h.cwd p with
    | ok fs =>
      rw [removed] at cleared
      refine ⟨r, _, ?_, .inl ⟨fun q same => ?_, cleared⟩⟩
      · exact follows.trans (Host.Shows.files h' fs).toFollows
      · obtain rfl := Option.some.inj same
        rw [removed]
        rfl
    | error e =>
      rw [removed] at cleared
      exact ⟨r, h', follows, .inr ⟨p, rfl, by rw [removed]; rfl, e, cleared⟩⟩

/-- What the program wrote to its standard error output is noted, and its report is read. -/
def readNoting (written : Text × Text) : Action (List EditorDiagnostic) := do
  if !written.2.isEmpty then
    Log.debug (ownerOf l.name) (l.name.label ++ " stderr: ".toList ++ Text.trim written.2)
  match l.readReport written.1 with
  | .ok ds => pure ds
  | .error e => throw e

theorem readNoting_done (ready : h.LogReady) (written : Text × Text) :
    ∃ h', (l.readNoting written).perform h = (l.readReport written.1, h') ∧ h.Follows [] h' := by
  have read (h' : Host) : (match l.readReport written.1 with
      | .ok ds => pure ds
      | .error e => throw e : Action (List EditorDiagnostic)).perform h' =
        (l.readReport written.1, h') := by
    cases l.readReport written.1 <;> rfl
  unfold readNoting
  dsimp only
  split
  · obtain ⟨h', noted, logged⟩ := Log.debug_logged (ownerOf l.name)
      (l.name.label ++ " stderr: ".toList ++ Text.trim written.2) [] h ready
    exact ⟨h', (perform_bind_ok noted).trans (read h'), logged.shows.toFollows⟩
  · exact ⟨h, read h, (Host.Shows.refl h).toFollows⟩

theorem validate_stages (path text : Text) : l.validate path text = (do
    let ruleFile ← l.writeRules
    let written ← withoutRuleFile ruleFile (l.execute path text ruleFile)
    l.readNoting written) := rfl

/-- What is read of a run is proper if the run answers. -/
theorem read_taken {h₀ : Host} {taking : Action (Text × Text)} {path : Text}
    {outcome : Except FileError Finished} (ready : h.LogReady)
    (taken : taking.perform h₀ = (l.taken path outcome, h)) :
    ∃ result h', (taking >>= l.readNoting).perform h₀ = (result, h') ∧
    h.Follows [] h' ∧ (Proper result ↔ l.Answers outcome) := by
  cases outcome with
  | error e =>
    refine ⟨_, h, perform_bind_error taken, (Host.Shows.refl h).toFollows, ?_⟩
    unfold Answers
    dsimp only
    split
    · next system => exact iff_of_true (isLinting_failure _ _) system
    · next foreign => exact iff_of_false id foreign
  | ok finished =>
    unfold Linter.taken at taken
    unfold Answers
    dsimp only at taken ⊢
    cases out : Utf8.read? finished.output with
    | none =>
      rw [out] at taken
      refine ⟨_, h, perform_bind_error taken, (Host.Shows.refl h).toFollows, iff_of_false id ?_⟩
      rintro ⟨_, _, found, -⟩
      cases found
    | some o =>
      cases errors : Utf8.read? finished.errors with
      | none =>
        rw [out, errors] at taken
        refine ⟨_, h, perform_bind_error taken, (Host.Shows.refl h).toFollows, iff_of_false id ?_⟩
        rintro ⟨_, _, -, found, -⟩
        cases found
      | some e =>
        rw [out, errors] at taken
        obtain ⟨h', read, follows⟩ :=
          l.readNoting_done ready (Text.unifyBreaks o, Text.unifyBreaks e)
        refine ⟨_, h', (perform_bind_ok taken).trans read, follows,
          (l.readReport_proper_iff _).trans ?_⟩
        constructor
        · exact fun accepts => ⟨o, e, rfl, rfl, accepts⟩
        · rintro ⟨o', e', found, -, accepts⟩
          obtain rfl := Option.some.inj found
          exact accepts

theorem ruleFile_of_rules (given : l.rules ≠ []) (h : Host) :
    l.ruleFile h = some (l.rulePath h) := by
  unfold ruleFile
  rw [if_neg fun nothing => given (List.isEmpty_iff.mp nothing)]

theorem rules_of_ruleFile {p : Text} (file : p ∈ l.ruleFile h) :
    l.rules ≠ [] ∧ p = l.rulePath h := by
  unfold ruleFile at file
  split at file
  · cases file
  · next given =>
      exact ⟨fun nothing => given (List.isEmpty_iff.mpr nothing), (Option.some.inj file).symm⟩

/-- **A validation comes to diagnostics or to the linter's own failure** exactly if its rule file
can be written and the program is then run in an orderly way. -/
theorem validate_proper_iff (path text : Text) (ready : h.LogReady) :
    Proper ((l.validate path text).perform h).1 ↔
      l.RulesWritten h ∧ ∃ r, ((l.validate path text).perform h).2.runs = h.runs ++ [r] ∧
      l.Orderly h r := by
  rw [validate_stages]
  obtain ⟨written, h₁, wrote, before⟩ | ⟨refused, e, h₁, failed, foreign⟩ := l.writeRules_cases h
  · rw [perform_bind_ok wrote, and_iff_right written]
    obtain ⟨r, h₂, follows, ⟨left, taken⟩ | ⟨p, file, lost, e, failed⟩⟩ :=
      l.execute_cleared (before.ready ready) path text (l.ruleFile h)
    · have after := before.trans follows
      rw [before.outcome] at taken
      obtain ⟨result, h₃, performed, follows', iff⟩ := l.read_taken (after.ready ready) taken
      rw [performed]
      refine iff.trans ⟨fun answers => ⟨r, (after.trans follows').runs, ⟨fun given => ?_, answers⟩⟩,
        ?_⟩
      · have removed := left _ (l.ruleFile_of_rules given h)
        rwa [before.filesAfter, before.cwd] at removed
      · rintro ⟨r', runs, orderly⟩
        obtain ⟨rfl⟩ := List.append_cancel_left ((after.trans follows').runs.symm.trans runs)
        exact orderly.answers
    · rw [perform_bind_error failed]
      refine iff_of_false id ?_
      rintro ⟨r', runs, orderly⟩
      obtain ⟨rfl⟩ := List.append_cancel_left ((before.trans follows).runs.symm.trans runs)
      obtain ⟨given, rfl⟩ := l.rules_of_ruleFile file
      rw [before.filesAfter, before.cwd] at lost
      exact Bool.false_ne_true (lost.symm.trans (orderly.rules given))
  · rw [perform_bind_error failed]
    exact iff_of_false foreign fun both => refused both.1

/-- A host on which every program prints a report and leaves all files as they are. -/
def printing (report : Text) : Host :=
  { files := { entries := [(["tmp".toList], .directory)] }
    tools := fun _ _ _ fs => (.ok { status := 1, output := Utf8.encode report, errors := [] }, fs) }

theorem printing_ready (report : Text) : (printing report).LogReady :=
  fun _ planned => nomatch planned

/-- A report with a line in words, a message that is no text behind a rule, and a number in place of
an entry. -/
def oddReport : Text :=
  ("[\x7b\"line\": \" 1_0 \", \"column\": null\x7d, " ++
    "\x7b\"line\": true, \"ruleId\": \"quotes\", \"message\": [1]\x7d, 5]").toList

/-- A linter with a rule. -/
def quoting : Linter := { name := .solhint, rules := [("quotes".toList, .text "error".toList)] }

/-- All of it is usable: the validation is proper, as its rule file was written and its run was
orderly. -/
theorem oddReport_proper :
    (printing oddReport).LogReady ∧
      Proper ((quoting.validate "/p/A.sol".toList "contract A".toList).perform
        (printing oddReport)).1 ∧
        quoting.RulesWritten (printing oddReport) ∧
          ∃ r, ((quoting.validate "/p/A.sol".toList "contract A".toList).perform
            (printing oddReport)).2.runs =
              (printing oddReport).runs ++ [r] ∧ quoting.Orderly (printing oddReport) r :=
  ⟨printing_ready oddReport, by decide +kernel,
    (quoting.validate_proper_iff "/p/A.sol".toList "contract A".toList
      (printing_ready oddReport)).mp (by decide +kernel)⟩

/-- An entry whose line is null is neither passed over nor a failure of the linter. -/
theorem null_line_improper :
    ¬ Proper
      (((({ name := .solhint } : Linter).validate "/p/A.sol".toList "contract A".toList).perform
        (printing "[\x7b\"line\": null\x7d]".toList)).1) := by decide +kernel

end Linter
end ContractCheck
