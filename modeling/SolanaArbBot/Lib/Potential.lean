import Mathlib
import SolanaArbBot.Lib.Runs

/-! Runs that are paid for. When every step costs no more than what the state loses and
what the step brings, so does a whole run. -/
namespace SolanaArbBot.Lib
variable {S L : Type} {C : S → L → S → Prop}

/-- What the steps of a trace come to. -/
def charge (price : S → L → Nat) (s : S) : List (L × S) → Nat
  | [] => 0
  | e :: tr => price s e.1 + charge price e.2 tr

/-- What a run costs is paid from the state it starts in and from what its steps bring. -/
theorem AllSteps.paid {rank : S → Nat} {cost gain : S → L → Nat} {s : S} {tr : List (L × S)}
    (h : AllSteps C s tr) (hs : ∀ s l t, C s l t → cost s l + rank t ≤ rank s + gain s l) :
    charge cost s tr + rank (lastState s tr) ≤ rank s + charge gain s tr := by
  induction tr generalizing s with
  | nil => exact Nat.le_of_eq (Nat.zero_add _)
  | cons e tr ih =>
    have hstep := hs _ _ _ h.1
    have hrest := ih h.2
    simp only [charge, lastState]
    omega

/-- Labels that cost the same are counted. -/
theorem charge_countP (price : Nat) (q : L → Bool) (s : S) (tr : List (L × S)) :
    charge (fun _ l => if q l then price else 0) s tr = price * (labels tr).countP q := by
  induction tr generalizing s with
  | nil => rfl
  | cons e tr ih =>
    rw [charge, labels_cons, List.countP_cons, ih]
    split
    · rw [Nat.mul_succ, Nat.add_comm]
    · rw [Nat.zero_add, Nat.add_zero]

theorem charge_zero (s : S) (tr : List (L × S)) : charge (fun _ _ => 0) s tr = 0 := by
  induction tr generalizing s with
  | nil => rfl
  | cons e tr ih => exact (Nat.zero_add _).trans (ih e.2)

end SolanaArbBot.Lib
