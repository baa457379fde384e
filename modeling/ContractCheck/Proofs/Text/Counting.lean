import ContractCheck.Text.Utf8
import Mathlib.Data.Fintype.Option
import Mathlib.Data.Fintype.BigOperators

/-! # There are only so many short texts

A text of bounded length is what it has at each position, so texts that differ are not more than the
ways to fill the positions.
-/
namespace ContractCheck.Text

/-- The number of a character. -/
def number (c : Char) : Fin 0x110000 :=
  ⟨c.toNat, c.valid.elim (fun low => Nat.lt_trans low (by decide)) And.right⟩

theorem number_injective : Function.Injective number :=
  fun _ _ same => Char.toNat_inj.mp (Fin.mk.inj same)

/-- What a text has at each of the first positions. -/
def positions (bound : Nat) (t : Text) : Fin bound → Option (Fin 0x110000) :=
  fun i => t[i.val]?.map number

theorem positions_inj {bound : Nat} {t u : Text} (short : t.length ≤ bound)
    (short' : u.length ≤ bound)
    (same : positions bound t = positions bound u) : t = u := by
  refine List.ext_getElem? fun i => ?_
  by_cases inside : i < bound
  · exact Option.map_injective number_injective (congrFun same ⟨i, inside⟩)
  · have outside := Nat.not_lt.mp inside
    rw [List.getElem?_eq_none (Nat.le_trans short outside),
      List.getElem?_eq_none (Nat.le_trans short' outside)]

/-- **Texts of bounded length that all differ are bounded in number.** -/
theorem length_le_of_nodup {texts : List Text} {bound : Nat} (once : texts.Nodup)
    (short : ∀ t ∈ texts, t.length ≤ bound) : texts.length ≤ (0x110000 + 1) ^ bound := by
  have apart : (texts.map (positions bound)).Nodup :=
    once.map_on fun t mem u mem' same => positions_inj (short t mem) (short u mem') same
  have few := apart.length_le_card
  rwa [List.length_map, Fintype.card_fun, Fintype.card_option, Fintype.card_fin,
    Fintype.card_fin] at few

/-- A text is not longer than its bytes. -/
theorem length_le_encode (t : Text) : t.length ≤ (Utf8.encode t).length := by
  induction t with
  | nil => exact Nat.le_refl 0
  | cons c r ih =>
    rw [Utf8.encode, List.flatMap_cons, List.length_append, String.length_utf8EncodeChar,
      List.length_cons,
      Nat.add_comm]
    exact Nat.add_le_add c.utf8Size_pos ih

end ContractCheck.Text
