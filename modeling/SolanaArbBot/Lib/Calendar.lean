import Mathlib.Algebra.BigOperators.Intervals
import Mathlib.Algebra.Order.BigOperators.Group.Finset
import Mathlib.Order.Interval.Finset.Nat
import Mathlib.Tactic.Common

/-! The Gregorian calendar, carried back before its introduction. Days are numbered
from the first of January of the year one. -/
namespace SolanaArbBot.Lib

def LeapYear (year : Nat) : Prop := 4 ∣ year ∧ (100 ∣ year → 400 ∣ year)

instance (year : Nat) : Decidable (LeapYear year) := inferInstanceAs (Decidable (_ ∧ _))

def yearLength (year : Nat) : Nat := if LeapYear year then 366 else 365

def monthLength (year month : Nat) : Nat :=
  match month with
  | 2 => if LeapYear year then 29 else 28
  | 4 | 6 | 9 | 11 => 30
  | _ => 31

/-- A day of the calendar. -/
@[ext] structure Date where
  year : Nat
  month : Nat
  day : Nat
  year_pos : 1 ≤ year
  month_mem : 1 ≤ month ∧ month ≤ 12
  day_mem : 1 ≤ day ∧ day ≤ monthLength year month
  deriving DecidableEq

def daysBeforeYear (year : Nat) : Nat :=
  365 * (year - 1) + (year - 1) / 4 - (year - 1) / 100 + (year - 1) / 400

def daysBeforeMonth (year month : Nat) : Nat := ∑ i ∈ Finset.Ico 1 month, monthLength year i

namespace Date

/-- The number of a day; the first day has number one. -/
def ordinal (d : Date) : Nat := daysBeforeYear d.year + daysBeforeMonth d.year d.month + d.day

def Before (a b : Date) : Prop :=
  a.year < b.year ∨ a.year = b.year ∧ (a.month < b.month ∨ a.month = b.month ∧ a.day < b.day)

end Date

theorem yearLength_pos (year : Nat) : 0 < yearLength year := by
  unfold yearLength
  split <;> decide

theorem daysBeforeYear_succ {year : Nat} (h : 1 ≤ year) :
    daysBeforeYear (year + 1) = daysBeforeYear year + yearLength year := by
  rw [daysBeforeYear, daysBeforeYear, yearLength]
  by_cases hl : LeapYear year
  · rw [if_pos hl]
    rw [LeapYear] at hl
    omega
  · rw [if_neg hl]
    rw [LeapYear] at hl
    omega

theorem daysBeforeYear_add_le {year year' : Nat} (h : 1 ≤ year) (hlt : year < year') :
    daysBeforeYear year + yearLength year ≤ daysBeforeYear year' := by
  induction year', hlt using Nat.le_induction with
  | base => rw [daysBeforeYear_succ h]
  | succ n hn ih =>
    rw [daysBeforeYear_succ (h.trans (Nat.le_of_succ_le hn))]
    exact ih.trans (Nat.le_add_right _ _)

theorem daysBeforeMonth_succ (year : Nat) {month : Nat} (h : 1 ≤ month) :
    daysBeforeMonth year (month + 1) = daysBeforeMonth year month + monthLength year month :=
  Finset.sum_Ico_succ_top h _

theorem daysBeforeMonth_mono (year : Nat) {month month' : Nat} (h : month ≤ month') :
    daysBeforeMonth year month ≤ daysBeforeMonth year month' :=
  Finset.sum_le_sum_of_subset (Finset.Ico_subset_Ico le_rfl h)

/-- The twelve months make up the year. -/
theorem daysBeforeMonth_thirteen (year : Nat) : daysBeforeMonth year 13 = yearLength year := by
  simp only [daysBeforeMonth, yearLength, Finset.sum_Ico_eq_sum_range, Finset.sum_range_succ,
    Finset.sum_range_zero, monthLength]
  split <;> rfl

namespace Date
variable {a b : Date}

private theorem dayOfYear_le (d : Date) : daysBeforeMonth d.year d.month + d.day ≤ yearLength d.year := by
  have hmonth := daysBeforeMonth_succ d.year d.month_mem.1
  have hrest := daysBeforeMonth_mono d.year (Nat.succ_le_succ d.month_mem.2)
  rw [daysBeforeMonth_thirteen, hmonth] at hrest
  exact (Nat.add_le_add_left d.day_mem.2 _).trans hrest

/-- Later days have larger numbers. -/
theorem Before.ordinal_lt (h : a.Before b) : a.ordinal < b.ordinal := by
  have hpos := b.day_mem.1
  rw [ordinal, ordinal]
  rcases h with hyear | ⟨hyear, hmonth | ⟨hmonth, hday⟩⟩
  · have := daysBeforeYear_add_le a.year_pos hyear
    have := a.dayOfYear_le
    omega
  · have hm := daysBeforeMonth_mono a.year (Nat.succ_le_of_lt hmonth)
    rw [Nat.succ_eq_add_one, daysBeforeMonth_succ a.year a.month_mem.1] at hm
    have := a.day_mem.2
    rw [← hyear]
    omega
  · rw [← hyear, ← hmonth]
    omega

theorem before_trichotomy (a b : Date) : a.Before b ∨ a = b ∨ b.Before a := by
  rcases Nat.lt_trichotomy a.year b.year with hy | hy | hy
  · exact Or.inl (Or.inl hy)
  · rcases Nat.lt_trichotomy a.month b.month with hm | hm | hm
    · exact Or.inl (Or.inr ⟨hy, Or.inl hm⟩)
    · rcases Nat.lt_trichotomy a.day b.day with hd | hd | hd
      · exact Or.inl (Or.inr ⟨hy, Or.inr ⟨hm, hd⟩⟩)
      · exact Or.inr (Or.inl (Date.ext hy hm hd))
      · exact Or.inr (Or.inr (Or.inr ⟨hy.symm, Or.inr ⟨hm.symm, hd⟩⟩))
    · exact Or.inr (Or.inr (Or.inr ⟨hy.symm, Or.inl hm⟩))
  · exact Or.inr (Or.inr (Or.inl hy))

theorem ordinal_lt_iff : a.ordinal < b.ordinal ↔ a.Before b := by
  constructor
  · intro h
    rcases before_trichotomy a b with hab | rfl | hba
    · exact hab
    · exact absurd h (Nat.lt_irrefl _)
    · exact absurd (h.trans hba.ordinal_lt) (Nat.lt_irrefl _)
  · exact Before.ordinal_lt

end Date
end SolanaArbBot.Lib
