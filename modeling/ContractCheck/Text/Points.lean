import ContractCheck.Text.Quoted
import ContractCheck.Text.Utf8

/-! # Strings that are no texts

A string may hold half of a pair of surrogates without the other half: an escape gives one, and so
does an encoding that lets them pass.  Such a string is no text.  It has no bytes in UTF-8, so no
file can hold it and few paths can, but it can be compared, sorted and shown.
-/
namespace ContractCheck

/-- What stands at one place of a string: a character, or half of a pair of surrogates. -/
inductive CodePoint where
  | char (c : Char)
  | half (n : Fin 0x800)
deriving DecidableEq

/-- A string as the list of what stands in it. -/
abbrev Points := List CodePoint

namespace CodePoint

/-- The half with a code point among the surrogates. -/
def ofSurrogate (code : Nat) : CodePoint := .half (Fin.ofNat 0x800 (code - 0xd800))

/-- The code point. -/
def code : CodePoint → Nat
  | .char c => c.toNat
  | .half n => 0xd800 + n

/-- The character, if it is one. -/
def char? : CodePoint → Option Char
  | .char c => some c
  | .half _ => none

/-- The character that it is shown as: a half as the replacement character. -/
def shown : CodePoint → Char
  | .char c => c
  | .half _ => '\ufffd'

/-- As it stands between two quotes `q`: a half is given by its code point. -/
def quoted (q : Char) : CodePoint → Text
  | .char c => Text.quoteChar q c
  | .half n => '\\' :: 'u' :: Text.hex 4 (0xd800 + n)

/-- Whether it is a half that stands for a byte which is no UTF-8, as the names of files have
them. -/
def isByte : CodePoint → Bool
  | .char _ => false
  | .half n => 0x480 ≤ n.val && n.val < 0x500

end CodePoint

namespace Points

/-- A text as a string. -/
def ofText (t : Text) : Points := t.map .char

/-- The text that a string is, if it is one. -/
def text? (s : Points) : Option Text := s.mapM CodePoint.char?

/-- The text that a string is shown as. -/
def shown (s : Points) : Text := s.map CodePoint.shown

/-- The string between quotes. -/
def quote (s : Points) : Text :=
  let q := Text.quoteOf s.shown
  q :: s.flatMap (CodePoint.quoted q) ++ [q]

/-- The string of bytes of UTF-8 in which halves of surrogates may stand as well; `front` are the
bytes since the last of them, the latest first. -/
def decodeFrom? (front : Bytes) : Bytes → Option Points
  | a :: b :: c :: r =>
    if a = 0xed ∧ 0xa0 ≤ b ∧ b ≤ 0xbf ∧ 0x80 ≤ c ∧ c ≤ 0xbf then do
      let t ← Utf8.read? front.reverse
      let rest ← decodeFrom? [] r
      some (ofText t ++ CodePoint.ofSurrogate
        (0xd000 + (b.toNat - 0x80) * 64 + (c.toNat - 0x80)) :: rest)
    else decodeFrom? (a :: front) (b :: c :: r)
  | [a, b] => (Utf8.read? (b :: a :: front).reverse).map ofText
  | [a] => (Utf8.read? (a :: front).reverse).map ofText
  | [] => (Utf8.read? front.reverse).map ofText

@[simp] theorem shown_ofText (t : Text) : (ofText t).shown = t := by
  simp [ofText, shown, CodePoint.shown, Function.comp_def]

@[simp] theorem text?_ofText (t : Text) : (ofText t).text? = some t := by
  induction t with
  | nil => rfl
  | cons c t ih => simp_all [ofText, text?, CodePoint.char?]

theorem text?_cons (c : Char) (s : Points) : text? (.char c :: s) = (text? s).map (c :: ·) := by
  unfold text?
  rw [List.mapM_cons]
  cases s.mapM CodePoint.char? <;> rfl

end Points

/-- A string that is no text. -/
structure Broken where
  points : Points
  halved : points.text? = none
deriving DecidableEq

/-- Such a string does not show what it is. -/
theorem Broken.replaced (s : Broken) : '\ufffd' ∈ s.points.shown := by
  obtain ⟨points, halved⟩ := s
  induction points with
  | nil => cases halved
  | cons p s ih =>
    cases p with
    | half n => exact List.mem_cons_self
    | char c =>
      rw [Points.text?_cons, Option.map_eq_none_iff] at halved
      exact List.mem_cons_of_mem c (ih halved)

end ContractCheck
