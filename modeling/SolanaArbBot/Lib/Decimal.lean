import Mathlib.Data.List.Basic
import Mathlib.Tactic.Common

/-! Bounded unsigned integers in decimal text: the reader accepts an optional
plus sign and any leading zeros, and reads back whatever the writer writes. -/
namespace SolanaArbBot.Lib

/-- The value of a nonempty run of digits below the bound. -/
def parseDigits (bound : Nat) (digits : List Char) : Option Nat :=
  if digits ≠ [] ∧ digits.all Char.isDigit then
    let n := Nat.ofDigitChars 10 digits 0
    if n < bound then some n else none
  else none

def parseUnsigned (bound : Nat) (s : String) : Option Nat :=
  match s.toList with
  | '+' :: digits => parseDigits bound digits
  | digits => parseDigits bound digits

private theorem parseDigits_toDigits {bound n : Nat} (h : n < bound) :
    parseDigits bound (Nat.toDigits 10 n) = some n := by
  have hd : (Nat.toDigits 10 n).all Char.isDigit = true := by
    rw [List.all_eq_true]
    intro c hc
    exact Nat.isDigit_of_mem_toDigits (by decide) (by decide) hc
  simp [parseDigits, Nat.toDigits_ne_nil, hd, Nat.ofDigitChars_ten_toDigits, h]

/-- Every value below the bound is read back from its decimal text. -/
theorem parseUnsigned_repr {bound n : Nat} (h : n < bound) :
    parseUnsigned bound (Nat.repr n) = some n := by
  unfold parseUnsigned
  rw [Nat.toList_repr]
  split
  · next digits he =>
    have hp : '+' ∈ Nat.toDigits 10 n := by rw [he]; exact List.mem_cons_self
    have hdig := Nat.isDigit_of_mem_toDigits (by decide) (by decide) hp
    exact absurd hdig (by decide)
  · exact parseDigits_toDigits h

theorem natRepr_injective {m n : Nat} (h : Nat.repr m = Nat.repr n) : m = n := by
  have hm : parseUnsigned (m + n + 1) (Nat.repr m) = some m := parseUnsigned_repr (by omega)
  rw [h, parseUnsigned_repr (by omega)] at hm
  exact (Option.some.inj hm).symm

theorem isDigit_of_mem_natRepr {n : Nat} {c : Char} (h : c ∈ (Nat.repr n).toList) :
    c.isDigit = true := by
  rw [Nat.toList_repr] at h
  exact Nat.isDigit_of_mem_toDigits (by decide) (by decide) h

/-- The decimal text of an integer consists of digits and a minus sign. -/
theorem mem_intRepr {a : Int} {c : Char} (h : c ∈ (Int.repr a).toList) :
    c.isDigit = true ∨ c = '-' := by
  rw [Int.repr_eq_if] at h
  split at h
  · exact Or.inl (isDigit_of_mem_natRepr h)
  · rw [String.toList_append, List.mem_append] at h
    rcases h with h | h
    · exact Or.inr (List.mem_singleton.mp h)
    · exact Or.inl (isDigit_of_mem_natRepr h)

private theorem natRepr_ne_minus (m n : Nat) : Nat.repr m ≠ "-" ++ Nat.repr n := by
  intro h
  have hm : '-' ∈ (Nat.repr m).toList := by
    rw [h, String.toList_append]
    exact List.mem_append_left _ (List.mem_singleton.mpr rfl)
  exact absurd (isDigit_of_mem_natRepr hm) (by decide)

theorem intRepr_injective {a b : Int} (h : Int.repr a = Int.repr b) : a = b := by
  rw [Int.repr_eq_if, Int.repr_eq_if] at h
  split at h
  · split at h
    · have := natRepr_injective h
      omega
    · exact absurd h (natRepr_ne_minus _ _)
  · split at h
    · exact absurd h.symm (natRepr_ne_minus _ _)
    · have htail := congrArg String.toList h
      rw [String.toList_append, String.toList_append] at htail
      have := natRepr_injective (String.toList_injective (List.append_cancel_left htail))
      omega

end SolanaArbBot.Lib
