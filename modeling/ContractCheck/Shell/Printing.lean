import ContractCheck.Text.Utf8
import ContractCheck.Text.Integer

/-! # Printing from scripts

The escapes and formats by which scripts print: a backslash with a letter or with octal digits
stands for a byte, and a format takes its arguments one after another, beginning anew while there
are any.
-/
namespace ContractCheck.Shell

/-- The value of octal digits at the start, at most `count` of them, and the rest. -/
def octal : Nat → Nat → Text → Nat × Text
  | 0, k, t => (k, t)
  | n + 1, k, c :: r =>
    if '0' ≤ c ∧ c ≤ '7' then octal n (8 * k + (c.toNat - 48)) r else (k, c :: r)
  | _ + 1, k, [] => (k, [])

/-- The byte of an escape's letter. -/
def escapeByte? (c : Char) : Option UInt8 :=
  match c with
  | 'a' => some 7
  | 'b' => some 8
  | 'f' => some 12
  | 'n' => some 10
  | 'r' => some 13
  | 't' => some 9
  | 'v' => some 11
  | '\\' => some 92
  | _ => none

/-- What an escape stands for, after its backslash: the bytes and the rest.  A zero may lead three
more digits if `lead` is set. -/
def escape (lead : Bool) (t : Text) : Bytes × Text :=
  match t with
  | [] => ([92], [])
  | c :: r =>
    if '0' ≤ c ∧ c ≤ '7' then
      let (k, r) := if lead && c == '0' then octal 3 0 r else octal 3 0 (c :: r)
      ([UInt8.ofNat k], r)
    else
      match escapeByte? c with
      | some b => ([b], r)
      | none => (92 :: Utf8.encode [c], r)

/-- The bytes of a text with escapes, and whether it ends all printing. -/
def unescape : Nat → Text → Bytes × Bool
  | 0, _ => ([], false)
  | _ + 1, [] => ([], false)
  | _ + 1, '\\' :: 'c' :: _ => ([], true)
  | n + 1, '\\' :: r =>
    let (bs, r) := escape true r
    let p := unescape n r
    (bs ++ p.1, p.2)
  | n + 1, c :: r =>
    let p := unescape n r
    (Utf8.encode [c] ++ p.1, p.2)

/-- What echo prints. -/
def echo (args : List Text) : Bytes :=
  let (silent, args) := match args with
    | ['-', 'n'] :: r => (true, r)
    | r => (false, r)
  let t := Text.join [' '] args
  let (bs, stopped) := unescape (t.length + 1) t
  if silent || stopped then bs else bs ++ [10]

/-- Digits of a number to a base. -/
def digits (base n : Nat) (upper : Bool) : Text :=
  let ds := Nat.toDigits base n
  if upper then ds.map Char.toUpper else ds

/-- The number that an argument gives; an empty one counts as zero. -/
def number? (t : Text) : Option Int :=
  match t with
  | [] => some 0
  | '\'' :: c :: _ => some c.toNat
  | '"' :: c :: _ => some c.toNat
  | t =>
    let (sign, u) : Int × Text := match t with
      | '-' :: r => (-1, r)
      | '+' :: r => (1, r)
      | r => (1, r)
    match u with
    | '0' :: c :: r =>
      if c = 'x' ∨ c = 'X' then
        (r.foldlM (fun (k : Nat) (d : Char) =>
          if d.isDigit then some (16 * k + (d.toNat - 48))
          else if 'a' ≤ d ∧ d ≤ 'f' then some (16 * k + (d.toNat - 87))
          else if 'A' ≤ d ∧ d ≤ 'F' then some (16 * k + (d.toNat - 55)) else none) 0).map
          fun k => sign * k
      else
        (((c :: r).foldlM fun (k : Nat) (d : Char) =>
          if '0' ≤ d ∧ d ≤ '7' then some (8 * k + (d.toNat - 48)) else none) 0).map fun k =>
            sign * k
    | u => if u.all Char.isDigit && !u.isEmpty then (Text.readInt? t) else none

/-- A directive of a format: flags, width, precision and letter. -/
structure Directive where
  flags : Text
  width : Nat
  precision : Option Nat
  letter : Char

/-- A directive after its percent sign. -/
def readDirective (t : Text) : Option (Directive × Text) :=
  let flags := t.takeWhile fun c => ['-', '+', ' ', '0', '#'].contains c
  let t := t.drop flags.length
  let width := t.takeWhile Char.isDigit
  let t := t.drop width.length
  let number (ds : Text) : Nat := ds.foldl (fun k d => 10 * k + (d.toNat - 48)) 0
  let (precision, t) := match t with
    | '.' :: r => (some (number (r.takeWhile Char.isDigit)), r.dropWhile Char.isDigit)
    | r => (none, r)
  match t with
  | c :: r => some ({ flags, width := number width, precision, letter := c }, r)
  | [] => none

/-- Bytes filled up to the width of a directive. -/
def fill (d : Directive) (bs : Bytes) : Bytes :=
  let missing := d.width - bs.length
  if d.flags.contains '-' then bs ++ List.replicate missing 32
  else List.replicate missing 32 ++ bs

/-- A number under a directive. -/
def formatNumber (d : Directive) (n : Int) : Bytes :=
  let body := match d.letter with
    | 'x' => digits 16 n.natAbs false
    | 'X' => digits 16 n.natAbs true
    | 'o' => digits 8 n.natAbs false
    | _ => digits 10 n.natAbs false
  let sign : Text := if n < 0 then ['-'] else if d.flags.contains '+' then ['+'] else []
  let least := match d.precision with
    | some p => p
    | none =>
      if d.flags.contains '0' && !d.flags.contains '-' then d.width - sign.length else 0
  fill d (Utf8.encode (sign ++ List.replicate (least - body.length) '0' ++ body))

/-- How far a format has been printed: what was printed, the arguments that are left, whether any
was taken, whether one was no number, and whether printing has ended. -/
structure Printed where
  bytes : Bytes := []
  left : List Text
  took : Bool := false
  bad : List Text := []
  ended : Bool := false

/-- One pass through a format. -/
def formatOnce : Nat → Text → Printed → Printed
  | 0, _, p => p
  | _ + 1, [], p => p
  | n + 1, '\\' :: r, p =>
    match r with
    | 'c' :: _ => { p with ended := true }
    | '"' :: r => formatOnce n r { p with bytes := p.bytes ++ [34] }
    | r =>
      let (bs, r) := escape false r
      formatOnce n r { p with bytes := p.bytes ++ bs }
  | n + 1, '%' :: '%' :: r, p => formatOnce n r { p with bytes := p.bytes ++ [37] }
  | n + 1, '%' :: r, p =>
    match readDirective r with
    | none => { p with bytes := p.bytes ++ [37], ended := true }
    | some (d, r) =>
      let argument := p.left.headD []
      let p := { p with left := p.left.drop 1, took := p.took || !p.left.isEmpty }
      match d.letter with
      | 's' =>
        let t := match d.precision with
          | some k => argument.take k
          | none => argument
        formatOnce n r { p with bytes := p.bytes ++ fill d (Utf8.encode t) }
      | 'c' => formatOnce n r { p with bytes := p.bytes ++ fill d (Utf8.encode (argument.take 1)) }
      | 'b' =>
        let (bs, stopped) := unescape (argument.length + 1) argument
        let p := { p with bytes := p.bytes ++ fill d bs, ended := stopped }
        if stopped then p else formatOnce n r p
      | _ =>
        match number? argument with
        | some k => formatOnce n r { p with bytes := p.bytes ++ formatNumber d k }
        | none =>
          formatOnce n r { p with bytes := p.bytes ++ formatNumber d 0, bad := p.bad ++ [argument] }
  | n + 1, c :: r, p => formatOnce n r { p with bytes := p.bytes ++ Utf8.encode [c] }

/-- A format printed over and over while there are arguments. -/
def formatAll (format : Text) : Nat → Printed → Printed
  | 0, p => p
  | n + 1, p =>
    let p := formatOnce (format.length + 1) format { p with took := false }
    if p.ended || p.left.isEmpty || !p.took then p else formatAll format n p

end ContractCheck.Shell
