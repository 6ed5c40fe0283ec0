import SolanaArbBot.Lib.Calendar
import SolanaArbBot.Lib.Loop

/-! The date in a report's time stamp, counted off from the days since 1970. -/
namespace SolanaArbBot.Arbitrage
open Lib

def isLeap (y : Nat) : Bool := (y % 4 == 0 && y % 100 != 0) || y % 400 == 0

/-- Count off a whole year while there is one. -/
def yearRemains (s : Nat × Nat) : Bool :=
  let (year, days) := s
  let dy := if isLeap year then 366 else 365
  !decide (days < dy)

def countYear (s : Nat × Nat) : Nat × Nat :=
  let (year, days) := s
  let dy := if isLeap year then 366 else 365
  (year + 1, days - dy)

def monthDays (year : Nat) : List Nat :=
  if isLeap year then [31, 29, 31, 30, 31, 30, 31, 31, 30, 31, 30, 31]
  else [31, 28, 31, 30, 31, 30, 31, 31, 30, 31, 30, 31]

/-- Count off whole months, at most as many as are listed. -/
def countMonths : List Nat → Nat × Nat → Nat × Nat
  | [], s => s
  | dm :: rest, (month, days) =>
    if days < dm then (month, days) else countMonths rest (month + 1, days - dm)

structure Ymd where
  year : Nat
  month : Nat
  day : Nat
  deriving DecidableEq

/-- The date so many days after the first of January 1970, unless the years take
more tests than allowed. -/
def epochDaysToYmd (fuel days : Nat) : Option Ymd :=
  (runWhile yearRemains countYear fuel (1970, days)).map fun (year, days) =>
    let (month, days) := countMonths (monthDays year) (1, days)
    ⟨year, month, days + 1⟩

def Converts (days : Nat) (ymd : Ymd) : Prop := ∃ fuel, epochDaysToYmd fuel days = some ymd

def ymd (date : Date) : Ymd := ⟨date.year, date.month, date.day⟩

def epoch : Date := ⟨1970, 1, 1, by decide, by decide, by decide⟩

theorem isLeap_iff (y : Nat) : isLeap y = true ↔ LeapYear y := by
  simp only [isLeap, LeapYear, Bool.or_eq_true, Bool.and_eq_true, beq_iff_eq, bne_iff_ne]
  omega

private theorem yearLength_eq (y : Nat) : (if isLeap y then 366 else 365) = yearLength y := by
  simp only [isLeap_iff, yearLength]

private theorem monthDays_eq (y : Nat) : monthDays y = (List.range' 1 12).map (monthLength y) := by
  have hrange : List.range' 1 12 = [1, 2, 3, 4, 5, 6, 7, 8, 9, 10, 11, 12] := by decide
  simp only [monthDays, isLeap_iff, hrange, List.map_cons, List.map_nil, monthLength]
  split <;> rfl

private theorem countMonths_spec {year month days n : Nat} (hm : 1 ≤ month)
    (h : daysBeforeMonth year month + days < daysBeforeMonth year (month + n)) :
    ∃ m r, countMonths ((List.range' month n).map (monthLength year)) (month, days) = (m, r) ∧
      month ≤ m ∧ m < month + n ∧ r < monthLength year m ∧
      daysBeforeMonth year m + r = daysBeforeMonth year month + days := by
  induction n generalizing month days with
  | zero => exact absurd h (Nat.not_lt.mpr (Nat.le_add_right _ _))
  | succ n ih =>
    have hsucc := daysBeforeMonth_succ year hm
    rw [List.range'_succ, List.map_cons, countMonths]
    by_cases hd : days < monthLength year month
    · rw [if_pos hd]
      exact ⟨month, days, rfl, le_rfl, by omega, hd, rfl⟩
    · rw [if_neg hd]
      rw [← Nat.add_assoc, Nat.add_right_comm] at h
      have hrest : daysBeforeMonth year (month + 1) + (days - monthLength year month) <
          daysBeforeMonth year (month + 1 + n) := by omega
      obtain ⟨m, r, he, hle, hlt, hr, hsum⟩ := ih (by omega) hrest
      exact ⟨m, r, he, by omega, by omega, hr, by omega⟩

private theorem countYears_spec (days : Nat) :
    ∃ year r, EndsIn yearRemains countYear (1970, days) (year, r) ∧ 1970 ≤ year ∧
      r < yearLength year ∧ daysBeforeYear year + r = daysBeforeYear 1970 + days := by
  have hpass : ∀ s : Nat × Nat,
      (1970 ≤ s.1 ∧ daysBeforeYear s.1 + s.2 = daysBeforeYear 1970 + days) → yearRemains s →
      (1970 ≤ (countYear s).1 ∧
        daysBeforeYear (countYear s).1 + (countYear s).2 = daysBeforeYear 1970 + days) ∧
      (countYear s).2 < s.2 := by
    rintro ⟨year, r⟩ ⟨hyear, hsum⟩ htest
    simp only [yearRemains, yearLength_eq, Bool.not_eq_true', decide_eq_false_iff_not] at htest
    have hpos := yearLength_pos year
    have hone : 1 ≤ year := by omega
    have hsucc := daysBeforeYear_succ hone
    simp only [countYear, yearLength_eq] at hyear hsum ⊢
    exact ⟨⟨by omega, by omega⟩, by omega⟩
  obtain ⟨⟨year, r⟩, hends, ⟨hyear, hsum⟩, htest⟩ :=
    endsIn_of_variant (s := (1970, days)) Prod.snd ⟨le_rfl, rfl⟩ hpass
  simp only [yearRemains, yearLength_eq, Bool.not_eq_false', decide_eq_true_eq] at htest
  exact ⟨year, r, hends, hyear, htest, hsum⟩

private theorem exists_converts (days : Nat) :
    ∃ date : Date, Converts days (ymd date) ∧ date.ordinal = epoch.ordinal + days := by
  obtain ⟨year, r, ⟨fuel, hfuel⟩, hyear, hr, hsum⟩ := countYears_spec days
  have hwhole : daysBeforeMonth year 1 + r < daysBeforeMonth year (1 + 12) := by
    rw [daysBeforeMonth_thirteen, daysBeforeMonth, Finset.Ico_self, Finset.sum_empty]
    omega
  obtain ⟨month, day, he, hle, hlt, hday, hdays⟩ := countMonths_spec le_rfl hwhole
  refine ⟨⟨year, month, day + 1, by omega, ⟨hle, by omega⟩, ⟨by omega, hday⟩⟩, ⟨fuel, ?_⟩, ?_⟩
  · rw [epochDaysToYmd, hfuel, Option.map_some]
    dsimp only
    rw [monthDays_eq, he]
    rfl
  · have hone : daysBeforeMonth year 1 = 0 := by rw [daysBeforeMonth, Finset.Ico_self, Finset.sum_empty]
    have hepoch : epoch.ordinal = daysBeforeYear 1970 + 1 := rfl
    rw [hepoch, Date.ordinal]
    dsimp only
    omega

private theorem Converts.unique {days : Nat} {d d' : Ymd} (h : Converts days d) (h' : Converts days d') :
    d = d' := by
  obtain ⟨fuel, h⟩ := h
  obtain ⟨fuel', h'⟩ := h'
  obtain ⟨s, hs, rfl⟩ := Option.map_eq_some_iff.mp h
  obtain ⟨s', hs', rfl⟩ := Option.map_eq_some_iff.mp h'
  rw [EndsIn.unique ⟨fuel, hs⟩ ⟨fuel', hs'⟩]

/-- The conversion ends for every day count, with the one date that lies so many days
after the epoch, and it keeps the order of time. -/
theorem epochDaysToYmd_exact :
    ∃ dateOf : Nat → Date, (∀ days d, Converts days d ↔ d = ymd (dateOf days)) ∧
      (∀ days, (dateOf days).ordinal = epoch.ordinal + days) ∧ Function.Injective dateOf ∧
      ∀ days days', days < days' ↔ (dateOf days).Before (dateOf days') := by
  choose dateOf hconverts hordinal using exists_converts
  refine ⟨dateOf, ?_, hordinal, ?_, ?_⟩
  · intro days d
    constructor
    · exact fun h => h.unique (hconverts days)
    · rintro rfl
      exact hconverts days
  · intro days days' he
    have h := hordinal days
    rw [he, hordinal days'] at h
    exact (Nat.add_left_cancel h).symm
  · intro days days'
    rw [← Date.ordinal_lt_iff, hordinal, hordinal]
    exact Nat.add_lt_add_iff_left.symm

/-- The counters of a 64-bit day count fit in 64 bits. -/
theorem Converts.year_lt {days : Nat} {d : Ymd} (h : Converts days d) (hd : days < 2 ^ 64) :
    d.year < 2 ^ 64 := by
  obtain ⟨date, h', ho⟩ := exists_converts days
  have hepoch : epoch.ordinal = 719163 := by decide
  rw [h.unique h']
  rw [hepoch, Date.ordinal, daysBeforeYear] at ho
  dsimp only [ymd]
  omega

/-- The last day of a leap February. -/
example : epochDaysToYmd 60 19782 = some ⟨2024, 2, 29⟩ := by decide

end SolanaArbBot.Arbitrage
