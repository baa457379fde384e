import ContractCheck.Toml.Document
import ContractCheck.Json.Reader
import ContractCheck.Text.Utf8

/-! # Reading TOML

A reader for TOML 1.0 documents.  Statements are read from the top and applied one after another, so
of several flaws the first one counts.

Every reading function takes the text from where it stands and gives back what it read and the rest;
recursion is bounded by the length of the text.
-/
namespace ContractCheck.Toml

/-- A blank inside a line. -/
def isSpace (c : Char) : Bool := c == ' ' || c == '\t'

/-- The rest after blanks inside a line. -/
def skipSpace (t : Text) : Text := t.dropWhile isSpace

/-- The rest after blanks and line ends. -/
def skipSpaceAndLines (t : Text) : Text := t.dropWhile fun c => isSpace c || c == '\n'

/-- A control character that may stand neither in a string nor in a comment. -/
def isForbidden (c : Char) : Bool := (c.toNat < 32 && c != '\t') || c.toNat == 127

/-- The rest after a comment, if one starts here. -/
def skipComment : Text → Except Flaw Text
  | '#' :: r =>
    let (body, rest) := r.span (· != '\n')
    if body.any isForbidden then throw .malformed else pure rest
  | t => pure t

/-- The rest after blanks, line ends and comments inside an array. -/
def skipFiller : Nat → Text → Except Flaw Text
  | 0, t => pure t
  | fuel + 1, t => do
    let r ← skipComment (skipSpaceAndLines t)
    if r.length = t.length then pure r else skipFiller fuel r

/-! ## Strings -/

/-- The number of hexadecimal digits at the start, exactly `count` of them. -/
def readHex? : Nat → Nat → Text → Option (Nat × Text)
  | 0, acc, t => some (acc, t)
  | n + 1, acc, c :: r =>
    match Json.hexValue? c with
    | some d => readHex? n (16 * acc + d) r
    | none => none
  | _ + 1, _, [] => none

/-- The character of an escape after its backslash. -/
def readEscape : Text → Except Flaw (Char × Text)
  | 'u' :: r => fromHex 4 r
  | 'U' :: r => fromHex 8 r
  | c :: r =>
    if c == 'b' then pure ('\x08', r)
    else if c == 't' then pure ('\t', r)
    else if c == 'n' then pure ('\n', r)
    else if c == 'f' then pure ('\x0c', r)
    else if c == 'r' then pure ('\r', r)
    else if c == '"' || c == '\\' then pure (c, r)
    else throw .malformed
  | [] => throw .malformed
where
  /-- The character with a code point of `count` hexadecimal digits. -/
  fromHex (count : Nat) (r : Text) : Except Flaw (Char × Text) :=
    match readHex? count 0 r with
    | some (n, r) =>
      if n < 0xd800 || (0xe000 ≤ n && n < 0x110000) then pure (Char.ofNat n, r)
      else throw .malformed
    | none => throw .malformed

/-- Puts a character in front of the text read. -/
def consText (c : Char) (p : Text × Text) : Text × Text := (c :: p.1, p.2)

/-- The rest of a one-line string after its opening quote. -/
def readBasicRest : Nat → Text → Except Flaw (Text × Text)
  | 0, _ => throw .malformed
  | _ + 1, [] => throw .malformed
  | fuel + 1, c :: r =>
    if c == '"' then pure ([], r)
    else if c == '\\' then do
      let (d, r) ← readEscape r
      let p ← readBasicRest fuel r
      pure (consText d p)
    else if isForbidden c then throw .malformed
    else do
      let p ← readBasicRest fuel r
      pure (consText c p)

/-- The rest of a string of several lines after its opening quotes and a first line end. -/
def readLongBasicRest : Nat → Text → Except Flaw (Text × Text)
  | 0, _ => throw .malformed
  | _ + 1, [] => throw .malformed
  | fuel + 1, c :: r =>
    if c == '"' && Text.startsWith r ['"', '"'] then pure ([], r.drop 2)
    else if c == '\\' then
      if r.head?.any fun d => isSpace d || d == '\n' then
        -- a backslash at the end of a line joins it with the next text
        match skipSpace r with
        | [] => throw .malformed
        | d :: r' =>
          if d == '\n' then readLongBasicRest fuel (skipSpaceAndLines r') else throw .malformed
      else do
        let (d, r) ← readEscape r
        let p ← readLongBasicRest fuel r
        pure (consText d p)
    else if isForbidden c && c != '\n' then throw .malformed
    else do
      let p ← readLongBasicRest fuel r
      pure (consText c p)

/-- A literal string after its opening quote. -/
def readLiteralRest (t : Text) : Except Flaw (Text × Text) :=
  match Text.cutFirst '\'' t with
  | some (body, r) => if body.any isForbidden then throw .malformed else pure (body, r)
  | none => throw .malformed

/-- A literal string of several lines after its opening quotes and a first line end. -/
def readLongLiteralRest : Text → Except Flaw (Text × Text)
  | [] => throw .malformed
  | c :: r =>
    if Text.startsWith (c :: r) ['\'', '\'', '\''] then pure ([], r.drop 2)
    else if isForbidden c && c != '\n' then throw .malformed
    else do
      let p ← readLongLiteralRest r
      pure (consText c p)

/-- Up to two more quotes at the end of a string of several lines belong to it. -/
def readExtraQuotes (q : Char) (p : Text × Text) : Text × Text :=
  match p.2 with
  | a :: b :: r =>
    if a == q then (if b == q then (p.1 ++ [q, q], r) else (p.1 ++ [q], b :: r)) else p
  | [a] => if a == q then (p.1 ++ [q], []) else p
  | [] => p

/-- The text without a line end at its start. -/
def dropLineEnd : Text → Text
  | '\n' :: r => r
  | t => t

/-- A string of any kind. -/
def readString (t : Text) : Except Flaw (Text × Text) :=
  if Text.startsWith t ['"', '"', '"'] then do
    let r := dropLineEnd (t.drop 3)
    let p ← readLongBasicRest (r.length + 1) r
    pure (readExtraQuotes '"' p)
  else if Text.startsWith t ['\'', '\'', '\''] then do
    let p ← readLongLiteralRest (dropLineEnd (t.drop 3))
    pure (readExtraQuotes '\'' p)
  else match t with
    | '"' :: r => readBasicRest (r.length + 1) r
    | '\'' :: r => readLiteralRest r
    | _ => throw .malformed

/-! ## Keys -/

/-- A character of a key without quotes. -/
def isBare (c : Char) : Bool := c.isAlphanum || c == '-' || c == '_'

/-- One part of a key. -/
def readKeyPart (t : Text) : Except Flaw (Text × Text) :=
  match t with
  | '"' :: r => readBasicRest (r.length + 1) r
  | '\'' :: r => readLiteralRest r
  | _ =>
    let (k, r) := t.span isBare
    if k.isEmpty then throw .malformed else pure (k, r)

/-- A key with all its parts. -/
def readKey : Nat → Text → Except Flaw (List Text × Text)
  | 0, _ => throw .malformed
  | fuel + 1, t => do
    let (k, r) ← readKeyPart t
    match skipSpace r with
    | '.' :: r => do
      let (ks, r) ← readKey fuel (skipSpace r)
      pure (k :: ks, r)
    | r => pure ([k], r)

/-! ## Numbers, dates and times -/

/-- The digits at the start with single underscores between them, and the rest. -/
def spanGrouped (isDigit : Char → Bool) : Text → Text × Text
  | [] => ([], [])
  | c :: r =>
    if isDigit c then consText c (spanGroupedRest r) else ([], c :: r)
where
  /-- The digits after a first one. -/
  spanGroupedRest : Text → Text × Text
    | [] => ([], [])
    | '_' :: c :: r => if isDigit c then consText c (spanGroupedRest r) else ([], '_' :: c :: r)
    | c :: r => if isDigit c then consText c (spanGroupedRest r) else ([], c :: r)

/-- The value of digits in a base. -/
def natInBase (base : Nat) (ds : Text) : Nat :=
  ds.foldl (fun n c => base * n + (Json.hexValue? c).getD 0) 0

/-- An integer written with a base. -/
def readBased? (t : Text) : Option (Value × Text) :=
  let digits (base : Nat) (ok : Char → Bool) (r : Text) : Option (Value × Text) :=
    let (ds, r) := spanGrouped ok r
    if ds.isEmpty then none else some (.int (natInBase base ds), r)
  match t with
  | '0' :: 'x' :: r => digits 16 (fun c => (Json.hexValue? c).isSome) r
  | '0' :: 'b' :: r => digits 2 (fun c => c == '0' || c == '1') r
  | '0' :: 'o' :: r => digits 8 (fun c => '0' ≤ c && c ≤ '7') r
  | _ => none

/-- The sign at the start: whether it is a minus, and the rest. -/
def readSign : Text → Bool × Text
  | '-' :: r => (true, r)
  | '+' :: r => (false, r)
  | t => (false, t)

/-- The digits of a number before its point; a zero in front stands alone. -/
def wholeDigits : Text → Text × Text
  | '0' :: r => (['0'], r)
  | t => spanGrouped Char.isDigit t

/-- The digits behind a point, if one stands here. -/
def fraction? : Text → Option (Text × Text)
  | '.' :: r =>
    let (fs, r) := spanGrouped Char.isDigit r
    if fs.isEmpty then none else some (fs, r)
  | _ => none

/-- The exponent, if one stands here. -/
def exponent? : Text → Option (Int × Text)
  | e :: r =>
    if e == 'e' || e == 'E' then
      let (neg, r) := readSign r
      let (es, r) := spanGrouped Char.isDigit r
      let n : Int := Json.natOfDigits es
      if es.isEmpty then none else some (if neg then -n else n, r)
    else none
  | [] => none

/-- A decimal number, whole or not. -/
def readDecimal? (t : Text) : Option (Except Flaw Value × Text) :=
  let (neg, t) := readSign t
  let (ds, r) := wholeDigits t
  if ds.isEmpty then none
  else
    let frac := fraction? r
    let (fs, r) := frac.getD ([], r)
    let exponent := exponent? r
    let (e, r) := exponent.getD (0, r)
    if frac.isNone && exponent.isNone then
      let n : Int := Json.natOfDigits ds
      if ds.length ≤ Text.maxDigits then some (.ok (.int (if neg then -n else n)), r)
      else some (.error .tooManyDigits, r)
    else
      some (.ok (.float (Binary64.ofDecimal neg (Json.natOfDigits (ds ++ fs)) (e - fs.length))), r)

/-- One of the words for infinity and for what is no number. -/
def readWordNumber? (t : Text) : Option (Value × Text) :=
  let (neg, r) := readSign t
  if Text.startsWith r "inf" then some (.float (.infinity neg), r.drop 3)
  else if Text.startsWith r "nan" then some (.float .nan, r.drop 3)
  else none

/-- Exactly two digits with a value between the bounds. -/
def readPair? (low high : Nat) : Text → Option (Nat × Text)
  | a :: b :: r =>
    if a.isDigit && b.isDigit then
      let n := (a.toNat - 48) * 10 + (b.toNat - 48)
      if low ≤ n && n ≤ high then some (n, r) else none
    else none
  | _ => none

/-- The rest after a separator. -/
def after? (c : Char) : Text → Option Text
  | d :: r => if d == c then some r else none
  | [] => none

/-- A time of day at the start, and the rest.  Of the parts of a second six digits count. -/
def readTime? (t : Text) : Option (DayTime × Text) := do
  let (hour, r) ← readPair? 0 23 t
  let r ← after? ':' r
  let (minute, r) ← readPair? 0 59 r
  let r ← after? ':' r
  let (second, r) ← readPair? 0 59 r
  match r with
  | '.' :: d :: r' =>
    if d.isDigit then
      let ds := (d :: r').takeWhile Char.isDigit
      let micros := Json.natOfDigits ((ds ++ List.replicate 6 '0').take 6)
      some ({ hour, minute, second, micros }, r'.dropWhile Char.isDigit)
    else some ({ hour, minute, second }, r)
  | _ => some ({ hour, minute, second }, r)

/-- The offset from universal time in minutes, if one stands at the start, and the rest. -/
def readOffset (t : Text) : Option Int × Text :=
  match t with
  | c :: r =>
    if c == 'Z' || c == 'z' then (some 0, r)
    else if c == '+' || c == '-' then
      match readPair? 0 23 r with
      | some (hours, ':' :: r') =>
        match readPair? 0 59 r' with
        | some (minutes, r'') =>
          let offset : Int := 60 * hours + minutes
          (some (if c == '-' then -offset else offset), r'')
        | none => (none, t)
      | _ => (none, t)
    else (none, t)
  | [] => (none, t)

/-- The number of days of a month. -/
def daysIn (year month : Nat) : Nat :=
  if month = 2 then
    if year % 4 = 0 && (year % 100 != 0 || year % 400 = 0) then 29 else 28
  else if month = 4 || month = 6 || month = 9 || month = 11 then 30
  else 31

/-- Whether the calendar has a day. -/
def isDay (d : Day) : Bool := 1 ≤ d.year && d.day ≤ daysIn d.year d.month

/-- A day at the start, whether the calendar has it or not, and the rest. -/
def readDay? (t : Text) : Option (Day × Text) := do
  let (century, r) ← readPair? 0 99 t
  let (year, r) ← readPair? 0 99 r
  let r ← after? '-' r
  let (month, r) ← readPair? 1 12 r
  let r ← after? '-' r
  let (day, r) ← readPair? 1 31 r
  some ({ year := 100 * century + year, month, day }, r)

/-- A day, with a time of day and an offset if they follow, or a time of day alone, and the rest. -/
def readMoment? (t : Text) : Option (Except Flaw Moment × Text) :=
  match readDay? t with
  | some (d, r) =>
    let (m, r) := match r with
      | s :: r' =>
        if s == 'T' || s == 't' || s == ' ' then
          match readTime? r' with
          | some (time, r'') =>
            let (offset, r'') := readOffset r''
            (Moment.both d time offset, r'')
          | none => (.day d, r)
        else (.day d, r)
      | [] => (.day d, r)
    some (if isDay d then .ok m else .error .malformed, r)
  | none => (readTime? t).map fun p => (.ok (.time p.1), p.2)

/-- A date, a time, a number, or a word for one. -/
def readScalar (t : Text) : Except Flaw (Value × Text) :=
  match readMoment? t with
  | some (m, r) => m.map fun m => (.moment m, r)
  | none =>
    match readBased? t with
    | some p => pure p
    | none =>
      match readDecimal? t with
      | some (v, r) => v.map fun v => (v, r)
      | none =>
        match readWordNumber? t with
        | some p => pure p
        | none => throw .malformed

/-! ## Values -/

mutual
/-- The value at the start of the text. -/
def readValue : Nat → Text → Except Flaw (Value × Text)
  | 0, _ => throw .malformed
  | fuel + 1, t =>
    match t with
    | '"' :: _ => (readString t).map fun p => (.text p.1, p.2)
    | '\'' :: _ => (readString t).map fun p => (.text p.1, p.2)
    | '[' :: r => do
      let r ← skipFiller r.length r
      match r with
      | ']' :: r => pure (.list [], r)
      | _ => (readItems fuel r).map fun p => (.list p.1, p.2)
    | '\x7b' :: r =>
      match skipSpace r with
      | '\x7d' :: r => pure (.table [], r)
      | r => (readInline fuel [] r).map fun p => (.table p.1, p.2)
    | _ =>
      if Text.startsWith t "true" then pure (.bool true, t.drop 4)
      else if Text.startsWith t "false" then pure (.bool false, t.drop 5)
      else readScalar t

/-- The items of an array up to its closing bracket. -/
def readItems : Nat → Text → Except Flaw (List Value × Text)
  | 0, _ => throw .malformed
  | fuel + 1, t => do
    let (v, r) ← readValue fuel t
    let r ← skipFiller r.length r
    match r with
    | ']' :: r => pure ([v], r)
    | ',' :: r => do
      let r ← skipFiller r.length r
      match r with
      | ']' :: r => pure ([v], r)
      | _ => do
        let (vs, r) ← readItems fuel r
        pure (v :: vs, r)
    | _ => throw .malformed

/-- The entries of an inline table up to its closing brace, after the ones read before. -/
def readInline : Nat → Children → Text → Except Flaw (Fields × Text)
  | 0, _, _ => throw .malformed
  | fuel + 1, acc, t => do
    let (path, r) ← readKey (t.length + 1) t
    match r with
    | '=' :: r => do
      let (v, r) ← readValue fuel (skipSpace r)
      let acc ← insertDotted 0 v path acc
      match skipSpace r with
      | '\x7d' :: r => pure (childFields acc, r)
      | ',' :: r => readInline fuel acc (skipSpace r)
      | _ => throw .malformed
    | _ => throw .malformed
end

/-! ## Statements -/

/-- A statement and the draft after it. -/
def readStatement (d : Draft) (t : Text) : Except Flaw (Draft × Text) :=
  match t with
  | '[' :: '[' :: r => do
    let (path, r) ← readKey (r.length + 1) (skipSpace r)
    let d ← d.openTables path
    if Text.startsWith r "]]" then pure (d, r.drop 2) else throw .malformed
  | '[' :: r => do
    let (path, r) ← readKey (r.length + 1) (skipSpace r)
    let d ← d.openTable path
    if Text.startsWith r "]" then pure (d, r.drop 1) else throw .malformed
  | _ => do
    let (path, r) ← readKey (t.length + 1) t
    match r with
    | '=' :: r => do
      let (v, r) ← readValue (r.length + 1) (skipSpace r)
      let d ← d.insert path v
      pure (d, r)
    | _ => throw .malformed

/-- Reads all statements, one to a line. -/
def readStatements : Nat → Draft → Text → Except Flaw Draft
  | 0, d, _ => pure d
  | fuel + 1, d, t =>
    match skipSpace t with
    | [] => pure d
    | '\n' :: r => readStatements fuel d r
    | c :: r => do
      let (d, r) ← if c == '#' then pure (d, c :: r) else readStatement d (c :: r)
      let r ← skipComment (skipSpace r)
      match r with
      | [] => pure d
      | '\n' :: r => readStatements fuel d r
      | _ => throw .malformed

/-- The fields of a document. -/
def read (t : Text) : Except Flaw Fields := do
  let t := Text.replaceAll ['\r', '\n'] ['\n'] t
  let d ← readStatements (t.length + 1) {} t
  pure (childFields d.root)

/-- The fields of a document given by its bytes. -/
def readBytes (bs : Bytes) : Except Flaw Fields :=
  match Utf8.read? bs with
  | some t => read t
  | none => throw .notText

end ContractCheck.Toml
