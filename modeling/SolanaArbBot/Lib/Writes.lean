import Mathlib.Data.List.Nodup
import Mathlib.Tactic.Common

/-! Visiting distinct keys one after the other, where each visit concerns its own key. -/
namespace SolanaArbBot.Lib
variable {S K A : Type} {get : S → K → A} {visit : S → K → S}
  (hframe : ∀ s k x, x ≠ k → get (visit s k) x = get s x)
include hframe

/-- A key that is not visited keeps what it has. -/
theorem foldl_visit_other {keys : List K} {x : K} (h : x ∉ keys) (s : S) :
    get (keys.foldl visit s) x = get s x := by
  induction keys generalizing s with
  | nil => rfl
  | cons k keys ih =>
    rw [List.mem_cons, not_or] at h
    exact (ih h.2 (visit s k)).trans (hframe s k x h.1)

/-- A key that is visited has what its visit leaves, which starts from what it had. -/
theorem foldl_visit {keys : List K} (hn : keys.Nodup) {x : K} (h : x ∈ keys) (s : S) :
    ∃ t, get t x = get s x ∧ get (keys.foldl visit s) x = get (visit t x) x := by
  induction keys generalizing s with
  | nil => cases h
  | cons k keys ih =>
    obtain ⟨hk, hn⟩ := List.nodup_cons.mp hn
    rcases List.mem_cons.mp h with rfl | h
    · exact ⟨s, rfl, foldl_visit_other hframe hk (visit s x)⟩
    · obtain ⟨t, ht, hx⟩ := ih hn h (visit s k)
      have hne : x ≠ k := fun e => hk (e ▸ h)
      exact ⟨t, ht.trans (hframe s k x hne), hx⟩

end SolanaArbBot.Lib
