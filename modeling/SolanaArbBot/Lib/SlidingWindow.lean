import Mathlib.Data.List.Basic
import Mathlib.Data.List.Sort
import Mathlib.Algebra.Order.Group.Int
import Mathlib.Algebra.Order.Group.Abs
import Mathlib.Tactic.Common

/-! Logs of instants with at most m of them in every half-open window of one
span, and what becomes of the bound when every logged event takes effect later. -/
namespace SolanaArbBot.Lib

/-- The instant lies in the window of the span that starts at t. -/
def InWindow (span t x : Int) : Prop := t ≤ x ∧ x < t + span

instance (span t x : Int) : Decidable (InWindow span t x) := inferInstanceAs (Decidable (_ ∧ _))

/-- Every window of the span holds at most m entries of the log. -/
def Spaced (m : Nat) (span : Int) (log : List Int) : Prop :=
  ∀ t, log.countP (fun x => decide (InWindow span t x)) ≤ m

theorem Spaced.nil (m : Nat) (span : Int) : Spaced m span [] := fun _ => Nat.zero_le m

/-- An entry may follow when fewer than m entries are more recent than one span. -/
theorem Spaced.concat {m : Nat} {span : Int} {log : List Int} {now : Int} (h : Spaced m span log)
    (hlt : (log.filter fun x => decide (now - span < x)).length < m) :
    Spaced m span (log ++ [now]) := by
  intro t
  rw [List.countP_append, List.countP_singleton]
  split
  · next hw =>
    have hw : InWindow span t now := of_decide_eq_true hw
    have hle : log.countP (fun x => decide (InWindow span t x)) ≤
        log.countP fun x => decide (now - span < x) := by
      apply List.countP_mono_left
      intro x _ hx
      have hx : InWindow span t x := of_decide_eq_true hx
      have := hw.2
      have := hx.1
      exact decide_eq_true (by omega)
    rw [List.countP_eq_length_filter (p := fun x => decide (now - span < x))] at hle
    omega
  · exact h t

private theorem exists_earliest {α : Type} (f : α → Int) (e : α) (es : List α) :
    ∃ a ∈ e :: es, ∀ x ∈ e :: es, f a ≤ f x := by
  induction es generalizing e with
  | nil =>
    refine ⟨e, List.mem_cons_self, ?_⟩
    intro x hx
    rw [List.mem_singleton.mp hx]
  | cons e' es ih =>
    obtain ⟨a, ha, hmin⟩ := ih e'
    by_cases he : f e ≤ f a
    · refine ⟨e, List.mem_cons_self, ?_⟩
      intro x hx
      rcases List.mem_cons.mp hx with rfl | hx
      · exact le_rfl
      · exact he.trans (hmin x hx)
    · refine ⟨a, List.mem_cons_of_mem _ ha, ?_⟩
      intro x hx
      rcases List.mem_cons.mp hx with rfl | hx
      · omega
      · exact hmin x hx

/-- Two logs of the same events: when the first is spaced, and events a span
apart there are a span apart in the second, the second is spaced too. -/
theorem spaced_of_separated {α : Type} {m : Nat} {span : Int} {events : List α} (f g : α → Int)
    (h : Spaced m span (events.map f))
    (hs : ∀ e ∈ events, ∀ e' ∈ events, f e + span ≤ f e' → span ≤ |g e' - g e|) :
    Spaced m span (events.map g) := by
  intro t
  cases hf : events.filter (fun e => decide (InWindow span t (g e))) with
  | nil =>
    rw [List.countP_map, List.countP_eq_length_filter]
    exact (congrArg List.length hf).trans_le (Nat.zero_le m)
  | cons e es =>
    have hmem (x : α) : x ∈ e :: es ↔ x ∈ events ∧ InWindow span t (g x) := by
      rw [← hf, List.mem_filter, decide_eq_true_iff]
    obtain ⟨a, ha, hmin⟩ := exists_earliest f e es
    obtain ⟨ham, haw⟩ := (hmem a).mp ha
    refine le_trans ?_ (h (f a))
    rw [List.countP_map, List.countP_map]
    apply List.countP_mono_left
    intro x hx hxw
    have hxw : InWindow span t (g x) := of_decide_eq_true hxw
    refine decide_eq_true ⟨hmin x ((hmem x).mpr ⟨hx, hxw⟩), ?_⟩
    by_contra hfar
    have hsep := hs a ham x hx (by omega)
    obtain ⟨h1, h2⟩ := haw
    obtain ⟨h3, h4⟩ := hxw
    rcases le_abs.mp hsep with hd | hd <;> omega

end SolanaArbBot.Lib
