import ContractCheck.Host.Logging
import ContractCheck.Proofs.Host.Performing
import ContractCheck.Proofs.Text.Numerals
import Mathlib.Data.List.Nodup

/-! # Context fields in formatted messages

The context fields of a message become part of its format when it has arguments.  So their percent
signs are doubled, and the format reads as the message does, followed by the fields as they are
(`Log.Formats.append`, `Log.formats_escapePercent`).  A message without arguments is no format, and
nothing is doubled.  The fields stand in the order of their keys, whatever order they were given in
(`Log.renderContext_perm`).
-/
namespace ContractCheck.Log

open ContractCheck.Action

/-! ## Formats -/

/-- What a format of literal text, `%%`, `%s`, `%r` and `%d` says with arguments that match it.  No
argument holds an integer with too many digits, and a plain one is no string that is no text. -/
inductive Formats : Text → List Value → Text → Prop
  | done : Formats [] [] []
  | literal {c : Char} {format text : Text} {args : List Value} (other : c ≠ '%')
      (rest : Formats format args text) : Formats (c :: format) args (c :: text)
  | percent {format text : Text} {args : List Value} (rest : Formats format args text) :
      Formats ('%' :: '%' :: format) args ('%' :: text)
  | plain {format text : Text} {args : List Value} (v : Value)
      (small : v.anywhere Value.isOversized = false) (whole : v.isBroken = false)
      (rest : Formats format args text) :
        Formats ('%' :: 's' :: format) (v :: args) (v.plain ++ text)
  | shown {format text : Text} {args : List Value} (v : Value)
      (small : v.anywhere Value.isOversized = false) (rest : Formats format args text) :
      Formats ('%' :: 'r' :: format) (v :: args) (v.display ++ text)
  | whole {format text number : Text} {args : List Value} {v : Value}
      (is_number : wholeText? v = some number) (rest : Formats format args text) :
      Formats ('%' :: 'd' :: format) (v :: args) (number ++ text)

namespace Formats

variable {format format' text text' : Text} {args args' : List Value}

/-- **Formats behind one another say what each of them says.** -/
theorem append (first : Formats format args text) (second : Formats format' args' text') :
    Formats (format ++ format') (args ++ args') (text ++ text') := by
  induction first with
  | done => exact second
  | literal other _ ih => exact .literal other ih
  | percent _ ih => exact .percent ih
  | plain v small whole _ ih =>
    rw [List.append_assoc]
    exact .plain v small whole ih
  | shown v small _ ih =>
    rw [List.append_assoc]
    exact .shown v small ih
  | whole is_number _ ih =>
    rw [List.append_assoc]
    exact .whole is_number ih

/-- A conversion takes the next argument. -/
theorem next_filled {byName : Option Fields} {conversion : Char} {v : Value}
    {t : Text} (converted : convert? conversion v = some t)
    {pieces : List Directive} (filled : fill? byName pieces args = some text) :
    fill?.next byName conversion pieces (v :: args) = some (t ++ text) := by
  rw [fill?.next, converted]
  exact congrArg (Option.map (t ++ ·)) filled

/-- The format is read, and its pieces are filled in, whatever could be used by name. -/
theorem fills (formats : Formats format args text) :
    ∃ pieces, directives? format = some pieces ∧ ∀ byName,
      fill? byName pieces args = some text := by
  induction formats with
  | done =>
    refine ⟨[], rfl, fun byName => ?_⟩
    rw [fill?]
    rfl
  | @literal c format text args other _ ih =>
    obtain ⟨pieces, read, filled⟩ := ih
    refine ⟨.literal c :: pieces, ?_, fun byName => ?_⟩
    · rw [directives?]
      · rw [if_neg other, read, Option.map_some]
      all_goals
        intro r eq
        exact absurd eq other
    · rw [fill?, filled, Option.map_some]
  | percent _ ih =>
    obtain ⟨pieces, read, filled⟩ := ih
    refine ⟨.percent :: pieces, ?_, fun byName => ?_⟩
    · rw [directives?, read, Option.map_some]
    · rw [fill?, filled, Option.map_some]
  | plain v small whole _ ih =>
    obtain ⟨pieces, read, filled⟩ := ih
    have converted : convert? 's' v = some v.plain := by
      show plainText? v = _
      rw [plainText?, small, whole]
      rfl
    refine ⟨.plain :: pieces, ?_, fun byName => ?_⟩
    · rw [directives?, read, Option.map_some]
    · rw [fill?]
      exact next_filled converted (filled byName)
  | shown v small _ ih =>
    obtain ⟨pieces, read, filled⟩ := ih
    have converted : convert? 'r' v = some v.display := by
      show shownText? v = _
      rw [shownText?, small]
      rfl
    refine ⟨.shown :: pieces, ?_, fun byName => ?_⟩
    · rw [directives?, read, Option.map_some]
    · rw [fill?]
      exact next_filled converted (filled byName)
  | @whole format text number args v is_number _ ih =>
    obtain ⟨pieces, read, filled⟩ := ih
    have converted : convert? 'd' v = some number := is_number
    refine ⟨.whole :: pieces, ?_, fun byName => ?_⟩
    · rw [directives?, read, Option.map_some]
    · rw [fill?]
      exact next_filled converted (filled byName)

/-- **A format is filled in as it reads.** -/
theorem format?_eq (formats : Formats format args text) : format? format args = some text := by
  obtain ⟨pieces, read, filled⟩ := formats.fills
  unfold format?
  rw [read]
  exact filled _

end Formats

/-- Doubled percent signs are single ones in what a format says. -/
theorem formats_escapePercent (t : Text) : Formats (escapePercent t) [] t := by
  induction t with
  | nil => exact .done
  | cons c t ih =>
    rw [escapePercent, List.flatMap_cons]
    by_cases percent : c = '%'
    · rw [if_pos percent, percent]
      exact .percent ih
    · rw [if_neg percent]
      exact .literal percent ih

/-- With arguments the fields are part of the format. -/
theorem render?_formats {message text : Text} {args : List Value}
    (formats : Formats message args text) (given : args ≠ []) {context : Fields}
    (named : (context.any fun f => f.2.isMisnamed) = false) :
    render? message args context = some (text ++ renderContext context) := by
  have whole := formats.append (formats_escapePercent (renderContext context))
  rw [List.append_nil] at whole
  unfold render?
  dsimp only
  rw [named, if_neg Bool.false_ne_true, if_neg (by rwa [List.isEmpty_iff]), whole.format?_eq]

/-- Without arguments they are not, and the message is none. -/
theorem render?_verbatim (message : Text) {context : Fields}
    (named : (context.any fun f => f.2.isMisnamed) = false) :
    render? message [] context = some (message ++ renderContext context) := by
  unfold render?
  dsimp only
  rw [named, if_neg Bool.false_ne_true, if_pos List.isEmpty_nil]

/-! ## The order of fields -/

theorem before_iff {a b : Text} : before a b = true ↔ ¬ b < a := by
  rw [before, Bool.not_eq_true', decide_eq_false_iff_not]

theorem pairwise_mergeSort (fields : Fields) :
    (fields.mergeSort fun a b => before a.1 b.1).Pairwise fun a b => ¬ b.1 < a.1 := by
  refine (List.pairwise_mergeSort (fun a b c => ?_) (fun a b => ?_) fields).imp before_iff.mp
  · rw [before_iff, before_iff, before_iff]
    exact List.le_trans
  · rw [Bool.or_eq_true, before_iff, before_iff]
    exact List.le_total a.1 b.1

/-- **The fields are shown in the order of their keys.**  There is one such order, as no two of them
have the same key. -/
theorem renderContext_eq {fields sorted : Fields} (distinct : fields.keys.Nodup)
    (perm : sorted.Perm fields) (ordered : sorted.Pairwise fun a b => ¬ b.1 < a.1) :
    renderContext fields = Failure.renderFacts sorted := by
  have merged := List.mergeSort_perm fields fun a b => before a.1 b.1
  refine congrArg Failure.renderFacts
    (List.Perm.eq_of_pairwise (fun a b here there first second => ?_)
    (pairwise_mergeSort fields) ordered (merged.trans perm.symm))
  have same : a.1 = b.1 := List.le_antisymm first second
  exact List.inj_on_of_nodup_map distinct (merged.mem_iff.mp here) (perm.mem_iff.mp there) same

/-- The order in which the fields are given does not matter. -/
theorem renderContext_perm {fields fields' : Fields} (distinct : fields.keys.Nodup)
    (perm : fields'.Perm fields) :
    renderContext fields' = renderContext fields :=
  (renderContext_eq distinct ((List.mergeSort_perm fields' _).trans perm)
    (pairwise_mergeSort fields')).symm

/-! ## Records -/

/-- Writes a record with a text. -/
def note (level : LogLevel) (owners : List Text) (text : Text) : Action Unit := do
  open_
  modify (record { level, name := nameBelow owners, message := text })

/-- The keys that are left to the fields of a context: texts that name no part of a record, and not
the mark of a fault. -/
def FreeKeys (context : Fields) : Prop :=
  ∀ f ∈ context, f.2.isMisnamed = false ∧ f.1 ∉ recordParts ∧ f.1 ≠ faultMark

instance (context : Fields) : Decidable (FreeKeys context) :=
  inferInstanceAs (Decidable (∀ f ∈ context, f.2.isMisnamed = false ∧ f.1 ∉ recordParts ∧
    f.1 ≠ faultMark))

/-- What is written is what the message and the fields render to, unless there is a fault to
show. -/
theorem submit_eq {level : LogLevel} {owners : List Text} {message text : Text} {args : List Value}
    {context : Fields} (unnamed : ∀ f ∈ context, f.1 ∉ recordParts)
    (unmarked : (context.get? faultMark).any Value.given = false)
    (small : Value.anyField Value.isOversized (context.filter fun f => f.1 != faultMark) = false)
    (rendered : render? message args (context.filter fun f => f.1 != faultMark) = some text) :
    submit level owners message args context = note level owners text := by
  have accepted : (context.any fun f => recordParts.contains f.1) = false := by
    rw [List.any_eq_false]
    intro f mem named
    exact unnamed f mem (List.contains_iff_mem.mp named)
  unfold submit note
  dsimp only
  rw [accepted, small, rendered, unmarked]
  refine bind_congr fun _ => funext fun h => ?_
  show Action.perform (get >>= _) h = Action.perform (modify _) h
  rw [perform_bind_ok (perform_get h), perform_modify]
  -- A log that is nowhere is left as it is by both.
  cases log : h.log with
  | nowhere =>
    rw [record, log]
    rfl
  | memory records => rfl
  | planned settings => rfl
  | opened outputs => rfl

namespace FreeKeys

variable {level : LogLevel} {owners : List Text} {message text : Text} {args : List Value}
  {context : Fields}

/-- No field stands under a key that is no text. -/
theorem named (free : FreeKeys context) : (context.any fun f => f.2.isMisnamed) = false := by
  rw [List.any_eq_false]
  intro f mem
  rw [(free f mem).1]
  exact Bool.false_ne_true

/-- All fields with free keys are written. -/
theorem submit_eq (free : FreeKeys context)
    (small : Value.anyField Value.isOversized context = false)
    (rendered : render? message args context = some text) :
    submit level owners message args context = note level owners text := by
  have kept : (context.filter fun f => f.1 != faultMark) = context := by
    rw [List.filter_eq_self]
    intro f mem
    exact bne_iff_ne.mpr (free f mem).2.2
  have unmarked : context.get? faultMark = none := by
    rw [Fields.get?, List.lookup_eq_none_iff]
    intro f mem
    exact bne_iff_ne.mpr (free f mem).2.2.symm
  refine Log.submit_eq (fun f mem => (free f mem).2.1) ?_ ?_ ?_
  · rw [unmarked]
    rfl
  · rw [kept, small]
  · rw [kept, rendered]

end FreeKeys

/-- **Context fields survive formatting.**  What a format says with arguments that match it is
followed by the fields as they are, whatever percent signs are in them, and so is a message without
arguments, which is no format.  The fields stand in the order of their keys, and the order in which
they were given does not matter.  No field may hold an integer with too many digits: it cannot be
shown, and nothing is written then. -/
theorem submit_keeps_context (level : LogLevel) (owners : List Text) (message : Text)
    (context : Fields) (free : FreeKeys context) (distinct : context.keys.Nodup)
    (small : Value.anyField Value.isOversized context = false) :
    (∀ args text, args ≠ [] → Formats message args text → format? message args = some text ∧
        submit level owners message args context =
          note level owners (text ++ renderContext context)) ∧
      submit level owners message [] context =
        note level owners (message ++ renderContext context) ∧
      (∀ sorted : Fields, sorted.Perm context → sorted.Pairwise (fun a b => ¬ b.1 < a.1) →
        renderContext context = Failure.renderFacts sorted) ∧
      ∀ given : Fields, given.Perm context → renderContext given = renderContext context := by
  refine ⟨fun args text given formats => ⟨formats.format?_eq, ?_⟩,
    free.submit_eq small (render?_verbatim message free.named),
    fun sorted perm ordered => renderContext_eq distinct perm ordered,
    fun given perm => renderContext_perm distinct perm⟩
  exact free.submit_eq small (render?_formats formats given free.named)

/-- A format with each of the directives. -/
def progress : Text := "%d of %s at 100%%: %r".toList

/-- Arguments that match it. -/
def progressArgs : List Value := [.int 2, .text "3%".toList, .text "a%s".toList]

/-- Fields with percent signs in their keys and values. -/
def percentFields : Fields :=
  [("uri".toList, .text "/p/100%/%d.sol".toList), ("%".toList, .list [.text "%%".toList])]

theorem formats_progress : Formats progress progressArgs "2 of 3% at 100%: 'a%s'".toList := by
  have two : wholeText? (.int 2) = some "2".toList := by
    have small : Int.natAbs 2 < Nat.pow 10 Text.maxDigits := Text.small_number (by decide)
    rw [wholeText?, Value.isOversized, decide_eq_false (Nat.not_le.mpr small)]
    rfl
  refine .whole two <| .literal (by decide) <| .literal (by decide) <| .literal (by decide) <|
    .literal (by decide) ?_
  refine .plain (.text "3%".toList) rfl rfl <| .literal (by decide) <| .literal (by decide) <|
    .literal (by decide) ?_
  refine .literal (by decide) <| .literal (by decide) <| .literal (by decide) <|
    .literal (by decide) <| .percent ?_
  exact .literal (by decide) <| .literal (by decide) <| .shown (.text "a%s".toList) rfl .done

/-- The percent signs of the fields, and those of the arguments, stay what they are. -/
theorem progress_kept :
    FreeKeys percentFields ∧ percentFields.keys.Nodup ∧
      Value.anyField Value.isOversized percentFields = false ∧ progressArgs ≠ [] ∧
      Formats progress progressArgs "2 of 3% at 100%: 'a%s'".toList ∧
      (submit .info ["Staging".toList] progress progressArgs percentFields).perform
        { log := .memory [] } =
        (.ok ⟨⟩, { log := .memory [⟨.info, "solcheck.Staging".toList,
          "2 of 3% at 100%: 'a%s' (%=['%%'], uri='/p/100%/%d.sol')".toList⟩] }) ∧
      (submit .info [] "100% %s".toList [] percentFields).perform { log := .memory [] } =
        (.ok ⟨⟩, { log := .memory [⟨.info, "solcheck".toList,
          "100% %s (%=['%%'], uri='/p/100%/%d.sol')".toList⟩] }) := by
  have free : FreeKeys percentFields := by decide
  have distinct : percentFields.keys.Nodup := by decide
  have given : progressArgs ≠ [] := List.cons_ne_nil _ _
  have small : Value.anyField Value.isOversized percentFields = false := rfl
  obtain ⟨formatted, -, sorts, -⟩ :=
    submit_keeps_context .info ["Staging".toList] progress percentFields free distinct small
  obtain ⟨-, verbatim, -⟩ :=
    submit_keeps_context .info [] "100% %s".toList percentFields free distinct small
  have fields := sorts percentFields.reverse (List.reverse_perm _) (by decide)
  refine ⟨free, distinct, small, given, formats_progress, ?_, ?_⟩
  · rw [(formatted _ _ given formats_progress).2, fields]
    rfl
  · rw [verbatim, fields]
    rfl

/-- A field that is named like a part of the record is refused, and one that is named like the mark
of a fault is no field. -/
theorem reserved_keys_lost :
    (submit .info [] "hi".toList [] [("level".toList, .text "x".toList)]).perform
      { log := .memory [] } =
        (.error (.wrongShape "a context field has the name of a part of the record".toList),
          { log := .memory [] }) ∧
      (submit .info [] "hi".toList [] [("exc_info".toList, .bool false)]).perform
        { log := .memory [] } =
        (.ok ⟨⟩, { log := .memory [⟨.info, "solcheck".toList, "hi".toList⟩] }) := by
  refine ⟨rfl, ?_⟩
  have rendered : render? "hi".toList [] [] = some "hi".toList := by
    show some ("hi".toList ++ renderContext []) = _
    rw [renderContext, List.mergeSort_nil]
    rfl
  rw [submit_eq (by decide) rfl rfl rendered]
  rfl

end ContractCheck.Log
