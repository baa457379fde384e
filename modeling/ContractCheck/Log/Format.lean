import ContractCheck.Failure

/-! # Log messages

A message is a format with directives and a list of arguments, followed by context fields.  The
directives are `%s` for plain text, `%r` for text as messages show it, `%d` for a whole number, `%%`
for a percent sign, and `%(key)s` for an entry of a single table that was given as argument.

A message without arguments is not formatted at all.  With arguments the fields are escaped before
they become part of the format, so a percent sign in them stays what it is.
-/
namespace ContractCheck.Log

/-- A piece of a format. -/
inductive Directive where
  | literal (c : Char)
  | percent
  | plain
  | shown
  | whole
  | named (key : Text) (conversion : Char)
deriving DecidableEq

/-- The pieces of a format; `none` if a percent sign starts no directive. -/
def directives? : Text → Option (List Directive)
  | [] => some []
  | '%' :: '%' :: r => (directives? r).map (.percent :: ·)
  | '%' :: 's' :: r => (directives? r).map (.plain :: ·)
  | '%' :: 'r' :: r => (directives? r).map (.shown :: ·)
  | '%' :: 'd' :: r => (directives? r).map (.whole :: ·)
  | '%' :: '(' :: r => namedFrom [] r
  | c :: r => if c = '%' then none else (directives? r).map (.literal c :: ·)
where
  /-- A named directive whose key began with the characters already read. -/
  namedFrom (key : Text) : Text → Option (List Directive)
    | ')' :: c :: r =>
      if c = 's' ∨ c = 'r' ∨ c = 'd' then (directives? r).map (.named key.reverse c :: ·) else none
    | c :: r => if c = ')' then none else namedFrom (c :: key) r
    | [] => none

/-- The whole number of a value, fractions cut off, if it does not have too many digits. -/
def wholeText? : Value → Option Text
  | .int n => if (Value.int n).isOversized then none else some (Text.ofInt n)
  | .bool b => some (Text.ofInt (if b then 1 else 0))
  | .float x => if x.isFinite then some (Text.ofInt x.truncate) else none
  | _ => none

/-- A value as messages show it, if no integer in it has too many digits. -/
def shownText? (v : Value) : Option Text :=
  if v.anywhere Value.isOversized then none else some v.display

/-- A value as plain output shows it, if it can be shown and is no string that is no text: a record
with such a string cannot be written. -/
def plainText? (v : Value) : Option Text :=
  if v.anywhere Value.isOversized || v.isBroken then none else some v.plain

/-- A value under a conversion letter. -/
def convert? (conversion : Char) (v : Value) : Option Text :=
  if conversion = 's' then plainText? v
  else if conversion = 'r' then shownText? v
  else wholeText? v

/-- Fills in the pieces; `none` if the arguments do not fit them.  A single table may be used by
name and need not be used up; once it was used by name, it cannot be used as a whole any more. -/
def fill? (byName : Option Fields) : List Directive → List Value → Option Text
  | [], args => if args.isEmpty || byName.isSome then some [] else none
  | .literal c :: ds, args => (fill? byName ds args).map (c :: ·)
  | .percent :: ds, args => (fill? byName ds args).map ('%' :: ·)
  | .named key conversion :: ds, _ =>
    match byName with
    | none => none
    | some fs =>
      match (fs.get? key).bind (convert? conversion) with
      | none => none
      | some t => (fill? byName ds []).map (t ++ ·)
  | .plain :: ds, args => next 's' ds args
  | .shown :: ds, args => next 'r' ds args
  | .whole :: ds, args => next 'd' ds args
where
  /-- Fills in the next argument. -/
  next (conversion : Char) (ds : List Directive) : List Value → Option Text
    | [] => none
    | v :: vs =>
      match convert? conversion v with
      | none => none
      | some t => (fill? byName ds vs).map (t ++ ·)

/-- A format with its arguments filled in. -/
def format? (format : Text) (args : List Value) : Option Text :=
  let byName := match args with
    | [.table (f :: fs)] => some (f :: fs)
    | _ => none
  match directives? format with
  | none => none
  | some ds => fill? byName ds args

/-- Whether one text comes before another, by code points. -/
def before (a b : Text) : Bool := !(decide (b < a))

/-- The context fields in parentheses, by the order of their keys. -/
def renderContext (fs : Fields) : Text :=
  Failure.renderFacts (fs.mergeSort fun a b => before a.1 b.1)

/-- The text with every percent sign doubled. -/
def escapePercent (t : Text) : Text := t.flatMap fun c => if c = '%' then ['%', '%'] else [c]

/-- The text of a record; `none` if the arguments do not fit the format, or a field stands under a
key that is no text. -/
def render? (message : Text) (args : List Value) (context : Fields) : Option Text :=
  let suffix := renderContext context
  if context.any fun f => f.2.isMisnamed then none
  else if args.isEmpty then some (message ++ suffix)
  else format? (message ++ escapePercent suffix) args

end ContractCheck.Log
