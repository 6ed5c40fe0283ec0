import Mathlib.Logic.Function.Iterate
import Mathlib.Tactic.Common

/-! While loops that may run for ever. A loop ends with the first iterate of its
body that fails the test. -/
namespace SolanaArbBot.Lib
variable {S : Type} (test : S → Bool) (body : S → S)

def runWhile : Nat → S → Option S
  | 0, _ => none
  | n + 1, s => if test s then runWhile n (body s) else some s

def EndsIn (s t : S) : Prop := ∃ n, runWhile test body n s = some t

variable {test body} {s t : S}

theorem runWhile_eq_some {n : Nat} :
    runWhile test body n s = some t ↔
      ∃ k < n, (∀ i < k, test (body^[i] s)) ∧ test (body^[k] s) = false ∧ body^[k] s = t := by
  induction n generalizing s with
  | zero => simp [runWhile]
  | succ n ih =>
    rw [runWhile]
    cases ht : test s with
    | false =>
      simp only [Bool.false_eq_true, if_false, Option.some.injEq]
      constructor
      · rintro rfl
        exact ⟨0, n.succ_pos, fun i hi => absurd hi i.not_lt_zero, ht, rfl⟩
      · rintro ⟨k, _, hall, _, he⟩
        cases k with
        | zero => exact he
        | succ k => exact absurd (hall 0 k.succ_pos) (by simp [ht])
    | true =>
      rw [if_pos rfl, ih]
      constructor
      · rintro ⟨k, hk, hall, hend, he⟩
        refine ⟨k + 1, Nat.succ_lt_succ hk, ?_, hend, he⟩
        intro i hi
        cases i with
        | zero => exact ht
        | succ i => exact hall i (Nat.lt_of_succ_lt_succ hi)
      · rintro ⟨k, hk, hall, hend, he⟩
        cases k with
        | zero => exact absurd hend (by simp [ht])
        | succ k =>
          exact ⟨k, Nat.lt_of_succ_lt_succ hk, fun i hi => hall (i + 1) (Nat.succ_lt_succ hi), hend, he⟩

/-- A loop ends after the first number of passes that leads out of its test. -/
theorem endsIn_iff :
    EndsIn test body s t ↔
      ∃ n, (∀ i < n, test (body^[i] s)) ∧ test (body^[n] s) = false ∧ body^[n] s = t := by
  constructor
  · rintro ⟨_, h⟩
    obtain ⟨n, _, h⟩ := runWhile_eq_some.mp h
    exact ⟨n, h⟩
  · rintro ⟨n, h⟩
    exact ⟨n + 1, runWhile_eq_some.mpr ⟨n, n.lt_succ_self, h⟩⟩

/-- A loop ends in one state at most. -/
theorem EndsIn.unique {u : S} (h : EndsIn test body s t) (h' : EndsIn test body s u) : t = u := by
  obtain ⟨n, hall, hend, rfl⟩ := endsIn_iff.mp h
  obtain ⟨m, hall', hend', rfl⟩ := endsIn_iff.mp h'
  rcases Nat.lt_trichotomy n m with hlt | rfl | hlt
  · exact absurd (hall' n hlt) (by simp [hend])
  · rfl
  · exact absurd (hall m hlt) (by simp [hend'])

/-- The rule for total correctness: every pass keeps the invariant and lowers the variant. -/
theorem endsIn_of_variant {I : S → Prop} (v : S → Nat) (h0 : I s)
    (hpass : ∀ s, I s → test s → I (body s) ∧ v (body s) < v s) :
    ∃ t, EndsIn test body s t ∧ I t ∧ test t = false := by
  induction hv : v s using Nat.strongRecOn generalizing s with
  | ind n ih =>
    cases ht : test s with
    | false => exact ⟨s, ⟨1, by rw [runWhile, ht]; rfl⟩, h0, ht⟩
    | true =>
      obtain ⟨hi, hlt⟩ := hpass s h0 ht
      obtain ⟨t, ⟨k, hk⟩, hend⟩ := ih _ (hv ▸ hlt) hi rfl
      exact ⟨t, ⟨k + 1, by rw [runWhile, ht, if_pos rfl, hk]⟩, hend⟩

end SolanaArbBot.Lib
