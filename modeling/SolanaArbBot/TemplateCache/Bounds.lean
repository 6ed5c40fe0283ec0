import SolanaArbBot.TemplateCache.Filling

/-! The size of the route store. Insertions and promotions respect the segment
bound; a restart loads both segments into the hot one and does not look at it. -/
namespace SolanaArbBot.TemplateCache
open Lib

def Bounded (g : StoreInner) : Prop :=
  g.routesHot.len ≤ routeSegCap ∧ g.routesCold.len ≤ routeSegCap ∧ routeCount g ≤ 2 * routeSegCap

theorem bounded_iff {g : StoreInner} :
    Bounded g ↔ g.routesHot.len ≤ routeSegCap ∧ g.routesCold.len ≤ routeSegCap := by
  unfold Bounded routeCount
  constructor
  · rintro ⟨hh, hc, _⟩
    exact ⟨hh, hc⟩
  · rintro ⟨hh, hc⟩
    exact ⟨hh, hc, by omega⟩

private theorem Bounded.of_len {g g' : StoreInner} (hb : Bounded g)
    (hh : g'.routesHot.len = g.routesHot.len) (hc : g'.routesCold.len ≤ g.routesCold.len) :
    Bounded g' := by
  obtain ⟨h1, h2⟩ := bounded_iff.mp hb
  exact bounded_iff.mpr ⟨by omega, by omega⟩

theorem Bounded.pushHotRoute {g : StoreInner} (hb : Bounded g) (sig : Sig) (t : RouteTemplate) :
    Bounded (pushHotRoute g sig t) := by
  obtain ⟨hh, hc⟩ := bounded_iff.mp hb
  rw [bounded_iff]
  unfold TemplateCache.pushHotRoute
  by_cases hf : g.routesHot.len ≥ routeSegCap
  · rw [if_pos hf]
    refine ⟨?_, hh⟩
    have h1 := HashMap.len_insert_le (HashMap.empty : HashMap Sig RouteTemplate) sig t
    rw [HashMap.len_empty] at h1
    exact h1.trans (by decide)
  · rw [if_neg hf]
    refine ⟨?_, hc⟩
    have h1 := HashMap.len_insert_le g.routesHot sig t
    dsimp only
    omega

theorem Bounded.insertRoute {g : StoreInner} (hb : Bounded g) (sig : Sig)
    (ix : SwapInstructionsResponse) (a q : UInt64) (plan : Value) :
    Bounded (insertRoute g sig ix a q plan) := by
  rcases insertRoute_cases g sig ix a q plan with ⟨_, he⟩ | ⟨_, he⟩ | ⟨_, _, he⟩
  · rw [he]
    have hp := hb.pushHotRoute sig (firstTemplate sig ix a q)
    refine hp.of_len ?_ ?_
    · rw [indexHopPair_hot]
    · rw [indexHopPair_cold]
  · rw [he]
    exact hb.of_len (HashMap.len_modify _ _ _) le_rfl
  · rw [he]
    exact hb.of_len rfl (HashMap.len_modify _ _ _).le

theorem Bounded.getRouteWrite {g : StoreInner} (hb : Bounded g) (sig : Sig) :
    Bounded (getRouteWrite g sig).1 := by
  rcases getRouteWrite_cases g sig with ⟨_, he⟩ | ⟨t, _, he⟩
  · rw [he]
    exact hb
  · rw [he]
    have hr : Bounded { g with routesCold := g.routesCold.remove sig } :=
      hb.of_len rfl (HashMap.len_remove_le _ _)
    exact hr.pushHotRoute sig t.hit

theorem Bounded.recordRouteHit {g : StoreInner} (hb : Bounded g) (sig : Sig) :
    Bounded (recordRouteHit g sig) := by
  unfold TemplateCache.recordRouteHit
  split
  · exact hb.of_len (HashMap.len_modify _ _ _) le_rfl
  · split
    · exact hb.of_len rfl (HashMap.len_modify _ _ _).le
    · exact hb

/-- A step keeps the bound, a restart exactly when everything fits one segment. -/
theorem Step.bounded_iff {g g' : StoreInner} {op : Op} (hi : g.Inv) (hb : Bounded g)
    (h : Step g op g') : Bounded g' ↔ (op = .restart → routeCount g ≤ routeSegCap) := by
  cases h with
  | restart h =>
    obtain ⟨hcold, _, _, hlen⟩ := h.spec hi
    have hc : g'.routesCold.len = 0 := by rw [hcold]; rfl
    rw [TemplateCache.bounded_iff, hlen]
    constructor
    · rintro ⟨hh, _⟩ _
      exact hh
    · intro hh
      exact ⟨hh rfl, by omega⟩
  | insertRoute sig ix a q plan =>
    exact iff_of_true (hb.insertRoute sig ix a q plan) Op.noConfusion
  | getRouteRead sig => exact iff_of_true hb Op.noConfusion
  | getRouteWrite sig => exact iff_of_true (hb.getRouteWrite sig) Op.noConfusion
  | getRoute sig =>
    refine iff_of_true ?_ Op.noConfusion
    rcases getRoute_cases g sig with h | h
    · rw [h]; exact hb
    · rw [h]; exact hb.getRouteWrite sig
  | getRouteForHops plan =>
    refine iff_of_true ?_ Op.noConfusion
    rcases getRouteForHops_store g plan with h | ⟨sig, h⟩
    · rw [h]; exact hb
    · rw [h]; exact hb.getRouteWrite sig
  | recordRouteHit sig => exact iff_of_true (hb.recordRouteHit sig) Op.noConfusion
  | recordHops plan slot =>
    obtain ⟨h1, h2, _⟩ := recordHops_routes g plan slot
    exact iff_of_true (hb.of_len (by rw [h1]) (by rw [h2])) Op.noConfusion

theorem Bounded.new : Bounded .new := bounded_iff.mpr ⟨Nat.zero_le _, Nat.zero_le _⟩

/-- A run stays bounded exactly when every restart finds no more routes than fit
one segment. -/
theorem segments_bounded_iff {tr : List (Op × StoreInner)} (h : IsRun tr) :
    (∀ e ∈ tr, Bounded e.2) ↔
      AllSteps (fun g op _ => op = .restart → routeCount g ≤ routeSegCap) .new tr := by
  have hinv := h.withInvariant StoreInner.new_inv fun _ _ _ hi hs => hi.step hs
  apply forall_states_iff hinv Bounded.new
  intro g op g' hb hs
  exact hs.2.1.bounded_iff hs.1 hb

/-- An insertion and a restart. -/
theorem segments_bounded_two : ∃ g, Restarted (insertRoute .new 7 default 0 0 .null) g ∧
    ∀ e ∈ [(plainInsert 7, insertRoute .new 7 default 0 0 .null), (.restart, g)], Bounded e.2 := by
  obtain ⟨g, hg⟩ := exists_restarted (insertRoute .new 7 default 0 0 .null)
  have hrun : IsRun [(plainInsert 7, insertRoute .new 7 default 0 0 .null), (.restart, g)] :=
    ⟨.insertRoute 7 default 0 0 .null, .restart hg, trivial⟩
  refine ⟨g, hg, (segments_bounded_iff hrun).mpr ⟨nofun, fun _ => ?_, trivial⟩⟩
  decide

/-- One route more than fits a segment, then a restart. -/
def overfullOps : List Op := (sigsFrom 0 (routeSegCap + 1)).map plainInsert ++ [.restart]

/-- The restart loads one route too many into the hot segment. -/
theorem overfull_run : ∃ tr, IsRun tr ∧ labels tr = overfullOps ∧ ¬ Bounded (finalStore tr) := by
  have hb : 0 + routeSegCap < 2 ^ 128 := by rw [routeSegCap]; omega
  have hfill := refill_spec (g := .new) hb (fun _ _ _ => rfl) (Nat.zero_add _)
  have hrun : IsRun (fillTrace .new (sigsFrom 0 (routeSegCap + 1))) := allSteps_fillTrace _ _
  have hlast := lastState_fillTrace .new (sigsFrom 0 (routeSegCap + 1))
  obtain ⟨g, hg⟩ := exists_restarted (fill .new (sigsFrom 0 (routeSegCap + 1)))
  refine ⟨fillTrace .new (sigsFrom 0 (routeSegCap + 1)) ++ [(.restart, g)],
    allSteps_append.mpr ⟨hrun, ?_, trivial⟩, ?_, ?_⟩
  · rw [hlast]
    exact .restart hg
  · rw [labels_append, labels_fillTrace]
    rfl
  · have hi := hrun.inv
    rw [finalStore, hlast] at hi
    have hlen := (hg.spec hi).len
    rw [routeCount, hfill.hotLen, hfill.coldLen] at hlen
    rw [finalStore, lastState_append]
    intro hbound
    have hle : g.routesHot.len ≤ routeSegCap := hbound.1
    omega

end SolanaArbBot.TemplateCache
