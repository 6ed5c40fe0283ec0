import SolanaArbBot.TemplateCache.Store

/-! What each store operation does to the two segments. Everything later is
derived from these descriptions, not from the operations themselves. -/
namespace SolanaArbBot.TemplateCache
open Lib

/-- The next push rotates the segments. -/
def StoreInner.Full (g : StoreInner) : Prop := routeSegCap ≤ g.routesHot.len

instance (g : StoreInner) : Decidable g.Full := inferInstanceAs (Decidable (_ ≤ _))

/-- No signature is in both segments, and a template repeats its own key. -/
structure StoreInner.Inv (g : StoreInner) : Prop where
  disjoint : ∀ sig, g.routesHot.get sig = none ∨ g.routesCold.get sig = none
  hotKey : ∀ sig t, g.routesHot.get sig = some t → t.routeSignature = sig
  coldKey : ∀ sig t, g.routesCold.get sig = some t → t.routeSignature = sig

theorem StoreInner.new_inv : StoreInner.new.Inv where
  disjoint _ := Or.inl rfl
  hotKey _ _ h := by cases h
  coldKey _ _ h := by cases h

namespace StoreInner.Inv
variable {g : StoreInner} {sig : Sig} {t : RouteTemplate}

theorem find_hot (h : g.routesHot.get sig = some t) : g.find sig = some t := by
  rw [StoreInner.find, h, Option.some_or]

theorem find_cold (hi : g.Inv) (h : g.routesCold.get sig = some t) : g.find sig = some t := by
  rcases hi.disjoint sig with hd | hd
  · rw [StoreInner.find, hd, h, Option.none_or]
  · rw [hd] at h; cases h

theorem key (hi : g.Inv) (h : g.find sig = some t) : t.routeSignature = sig := by
  rcases Option.or_eq_some_iff.mp h with h | ⟨_, h⟩
  · exact hi.hotKey sig t h
  · exact hi.coldKey sig t h

end StoreInner.Inv

theorem StoreInner.find_eq_none {g : StoreInner} {sig : Sig} :
    g.find sig = none ↔ g.routesHot.get sig = none ∧ g.routesCold.get sig = none :=
  Option.or_eq_none_iff

theorem StoreInner.live_iff {g : StoreInner} {x : Sig} :
    g.Live x ↔ (g.routesHot.get x).isSome ∨ (g.routesCold.get x).isSome := by
  rw [StoreInner.Live, StoreInner.find, Option.isSome_or, Bool.or_eq_true]

theorem StoreInner.not_live {g : StoreInner} {sig : Sig} : ¬ g.Live sig ↔ g.find sig = none := by
  rw [StoreInner.Live, Bool.not_eq_true, Option.isSome_eq_false_iff, Option.isNone_iff_eq_none]

section Push
variable (g : StoreInner) (sig : Sig) (t : RouteTemplate)

theorem pushHotRoute_hot (x : Sig) :
    (pushHotRoute g sig t).routesHot.get x =
      if x = sig then some t else if g.Full then none else g.routesHot.get x := by
  unfold pushHotRoute
  by_cases hf : g.Full
  · have hc : g.routesHot.len ≥ routeSegCap := hf
    simp only [if_pos hf, if_pos hc, HashMap.get_insert, HashMap.get_empty]
  · have hc : ¬ g.routesHot.len ≥ routeSegCap := hf
    simp only [if_neg hf, if_neg hc, HashMap.get_insert]

theorem pushHotRoute_cold :
    (pushHotRoute g sig t).routesCold = if g.Full then g.routesHot else g.routesCold := by
  unfold pushHotRoute
  by_cases hf : g.Full
  · have hc : g.routesHot.len ≥ routeSegCap := hf
    simp only [if_pos hf, if_pos hc]
  · have hc : ¬ g.routesHot.len ≥ routeSegCap := hf
    simp only [if_neg hf, if_neg hc]

@[simp] theorem pushHotRoute_index : (pushHotRoute g sig t).hopPairIndex = g.hopPairIndex := by
  unfold pushHotRoute; split <;> rfl

/-- After a rotation only the pushed route and the former hot ones are left. -/
theorem find_pushHotRoute (x : Sig) :
    (pushHotRoute g sig t).find x =
      if x = sig then some t else if g.Full then g.routesHot.get x else g.find x := by
  rw [StoreInner.find, pushHotRoute_hot, pushHotRoute_cold]
  split
  · rfl
  · split
    · rw [Option.none_or]
    · rfl

variable {g sig t}

theorem StoreInner.Inv.pushHotRoute (hi : g.Inv) (ht : t.routeSignature = sig)
    (hh : g.routesHot.get sig = none) (hc : g.routesCold.get sig = none) :
    (pushHotRoute g sig t).Inv where
  disjoint x := by
    rw [pushHotRoute_hot, pushHotRoute_cold]
    by_cases hx : x = sig
    · right
      rw [hx]
      split
      · exact hh
      · exact hc
    · rw [if_neg hx]
      split
      · left; rfl
      · exact hi.disjoint x
  hotKey x t' h := by
    rw [pushHotRoute_hot] at h
    split at h
    · next hx => cases h; rw [ht, hx]
    · split at h
      · cases h
      · exact hi.hotKey x t' h
  coldKey x t' h := by
    rw [pushHotRoute_cold] at h
    split at h
    · exact hi.hotKey x t' h
    · exact hi.coldKey x t' h

end Push

/-! The operations, one description each. -/

/-- A first look that settles the lookup answers what is stored. -/
theorem getRouteRead_answer {g : StoreInner} {sig : Sig} {r : Option RouteTemplate}
    (h : getRouteRead g sig = .answer r) : r = g.find sig ∧ (r = none ∨ r = g.routesHot.get sig) := by
  unfold getRouteRead at h
  cases hh : g.routesHot.get sig with
  | some t =>
    rw [hh] at h
    cases h
    exact ⟨(StoreInner.Inv.find_hot hh).symm, Or.inr rfl⟩
  | none =>
    rw [hh] at h
    dsimp only at h
    split at h
    · next hc =>
      cases h
      have hn : g.routesCold.get sig = none := by
        rw [← HashMap.containsKey_eq_false]
        simpa using hc
      exact ⟨(StoreInner.find_eq_none.mpr ⟨hh, hn⟩).symm, Or.inl rfl⟩
    · cases h

/-- What the second critical section does: nothing, or it promotes a cold route. -/
theorem getRouteWrite_cases (g : StoreInner) (sig : Sig) :
    (g.routesCold.get sig = none ∧ getRouteWrite g sig = (g, g.routesHot.get sig)) ∨
    ∃ t, g.routesCold.get sig = some t ∧
      getRouteWrite g sig =
        (pushHotRoute { g with routesCold := g.routesCold.remove sig } sig t.hit, some t.hit) := by
  unfold getRouteWrite
  cases hc : g.routesCold.get sig with
  | none => exact Or.inl ⟨rfl, rfl⟩
  | some t => exact Or.inr ⟨t, rfl, rfl⟩

/-- What a hit record does to the stored templates. -/
theorem find_recordRouteHit (g : StoreInner) (sig x : Sig) :
    (recordRouteHit g sig).find x =
      if x = sig then (g.find x).map RouteTemplate.hit else g.find x := by
  unfold recordRouteHit StoreInner.find
  split
  · next hh =>
    obtain ⟨t, ht⟩ := HashMap.containsKey_iff.mp hh
    simp only [HashMap.get_modify]
    split
    · next hx => subst hx; simp [ht]
    · rfl
  · next hh =>
    have hn := HashMap.containsKey_eq_false.mp (by simpa using hh)
    split
    · simp only [HashMap.get_modify]
      split
      · next hx => subst hx; simp [hn]
      · rfl
    · next hc =>
      have hcn := HashMap.containsKey_eq_false.mp (by simpa using hc)
      split
      · next hx => subst hx; simp [hn, hcn]
      · rfl

/-- What an insertion does: the first one of a signature pushes a template and
indexes its hop pair, a later one teaches the stored template. -/
theorem insertRoute_cases (g : StoreInner) (sig : Sig) (ix : SwapInstructionsResponse)
    (a q : UInt64) (plan : Value) :
    (g.find sig = none ∧ insertRoute g sig ix a q plan =
      indexHopPair (pushHotRoute g sig (firstTemplate sig ix a q)) plan sig) ∨
    (g.routesHot.containsKey sig = true ∧ insertRoute g sig ix a q plan =
      { g with routesHot := g.routesHot.modify sig (RouteTemplate.learn a ix) }) ∨
    (g.routesHot.get sig = none ∧ g.routesCold.containsKey sig = true ∧
      insertRoute g sig ix a q plan =
        { g with routesCold := g.routesCold.modify sig (RouteTemplate.learn a ix) }) := by
  unfold insertRoute
  split
  · next hh => exact Or.inr (Or.inl ⟨hh, rfl⟩)
  · next hh =>
    have hn := HashMap.containsKey_eq_false.mp (by simpa using hh)
    split
    · next hc => exact Or.inr (Or.inr ⟨hn, hc, rfl⟩)
    · next hc =>
      have hcn := HashMap.containsKey_eq_false.mp (by simpa using hc)
      exact Or.inl ⟨StoreInner.find_eq_none.mpr ⟨hn, hcn⟩, rfl⟩

/-- The first insertion of a route is a push and an index entry. -/
theorem insertRoute_new {g : StoreInner} {sig : Sig} (hn : g.find sig = none)
    (ix : SwapInstructionsResponse) (a q : UInt64) (plan : Value) :
    insertRoute g sig ix a q plan =
      indexHopPair (pushHotRoute g sig (firstTemplate sig ix a q)) plan sig := by
  obtain ⟨hh, hc⟩ := StoreInner.find_eq_none.mp hn
  rcases insertRoute_cases g sig ix a q plan with ⟨_, he⟩ | ⟨hk, _⟩ | ⟨_, hk, _⟩
  · exact he
  · rw [HashMap.containsKey, hh] at hk; cases hk
  · rw [HashMap.containsKey, hc] at hk; cases hk

@[simp] theorem indexHopPair_hot (g : StoreInner) (plan : Value) (sig : Sig) :
    (indexHopPair g plan sig).routesHot = g.routesHot := by
  unfold indexHopPair; split <;> rfl

@[simp] theorem indexHopPair_cold (g : StoreInner) (plan : Value) (sig : Sig) :
    (indexHopPair g plan sig).routesCold = g.routesCold := by
  unfold indexHopPair; split <;> rfl

@[simp] theorem find_indexHopPair (g : StoreInner) (plan : Value) (sig x : Sig) :
    (indexHopPair g plan sig).find x = g.find x := by
  rw [StoreInner.find, indexHopPair_hot, indexHopPair_cold, StoreInner.find]

theorem StoreInner.Inv.indexHopPair {g : StoreInner} (hi : g.Inv) (plan : Value) (sig : Sig) :
    (indexHopPair g plan sig).Inv where
  disjoint x := by rw [indexHopPair_hot, indexHopPair_cold]; exact hi.disjoint x
  hotKey x t h := hi.hotKey x t (by rwa [indexHopPair_hot] at h)
  coldKey x t h := hi.coldKey x t (by rwa [indexHopPair_cold] at h)

section Keep
variable {g : StoreInner} {sig : Sig}

private theorem get_modify_none {m : HashMap Sig RouteTemplate} {x : Sig}
    (f : RouteTemplate → RouteTemplate) (h : m.get x = none) : (m.modify sig f).get x = none := by
  rw [HashMap.get_modify, h]
  split <;> rfl

private theorem key_modify {m : HashMap Sig RouteTemplate} {f : RouteTemplate → RouteTemplate}
    (hm : ∀ x t, m.get x = some t → t.routeSignature = x)
    (hf : ∀ t, (f t).routeSignature = t.routeSignature) (x : Sig) (t : RouteTemplate)
    (h : (m.modify sig f).get x = some t) : t.routeSignature = x := by
  rw [HashMap.get_modify] at h
  split at h
  · obtain ⟨t', ht', rfl⟩ := Option.map_eq_some_iff.mp h
    rw [hf]
    exact hm x t' ht'
  · exact hm x t h

/-- Rewriting a stored template in place keeps the invariant when it keeps the key. -/
theorem StoreInner.Inv.modifyHot (hi : g.Inv) {f : RouteTemplate → RouteTemplate}
    (hf : ∀ t, (f t).routeSignature = t.routeSignature) :
    StoreInner.Inv { g with routesHot := g.routesHot.modify sig f } where
  disjoint x := (hi.disjoint x).imp_left (get_modify_none f)
  hotKey := key_modify hi.hotKey hf
  coldKey := hi.coldKey

theorem StoreInner.Inv.modifyCold (hi : g.Inv) {f : RouteTemplate → RouteTemplate}
    (hf : ∀ t, (f t).routeSignature = t.routeSignature) :
    StoreInner.Inv { g with routesCold := g.routesCold.modify sig f } where
  disjoint x := (hi.disjoint x).imp_right (get_modify_none f)
  hotKey := hi.hotKey
  coldKey := key_modify hi.coldKey hf

theorem StoreInner.Inv.removeCold (hi : g.Inv) :
    StoreInner.Inv { g with routesCold := g.routesCold.remove sig } where
  disjoint x := by
    rcases hi.disjoint x with h | h
    · exact Or.inl h
    · right
      dsimp only
      rw [HashMap.get_remove, h]
      split <;> rfl
  hotKey := hi.hotKey
  coldKey x t h := by
    dsimp only at h
    rw [HashMap.get_remove] at h
    split at h
    · cases h
    · exact hi.coldKey x t h

theorem StoreInner.Inv.recordRouteHit (hi : g.Inv) : (recordRouteHit g sig).Inv := by
  unfold TemplateCache.recordRouteHit
  split
  · exact hi.modifyHot fun _ => rfl
  · split
    · exact hi.modifyCold fun _ => rfl
    · exact hi

theorem StoreInner.Inv.insertRoute (hi : g.Inv) (ix : SwapInstructionsResponse) (a q : UInt64)
    (plan : Value) : (insertRoute g sig ix a q plan).Inv := by
  rcases insertRoute_cases g sig ix a q plan with ⟨hn, he⟩ | ⟨_, he⟩ | ⟨_, _, he⟩
  · rw [he]
    obtain ⟨hh, hc⟩ := StoreInner.find_eq_none.mp hn
    have hs : (firstTemplate sig ix a q).routeSignature = sig := rfl
    exact (hi.pushHotRoute hs hh hc).indexHopPair plan sig
  · rw [he]
    exact hi.modifyHot fun _ => rfl
  · rw [he]
    exact hi.modifyCold fun _ => rfl

theorem StoreInner.Inv.getRouteWrite (hi : g.Inv) : (getRouteWrite g sig).1.Inv := by
  rcases getRouteWrite_cases g sig with ⟨_, he⟩ | ⟨t, hc, he⟩
  · rw [he]
    exact hi
  · rw [he]
    have hh : g.routesHot.get sig = none := by
      rcases hi.disjoint sig with h | h
      · exact h
      · rw [hc] at h; cases h
    refine hi.removeCold.pushHotRoute (hi.coldKey sig t hc) hh ?_
    rw [HashMap.get_remove, if_pos rfl]

theorem StoreInner.Inv.getRoute (hi : g.Inv) : (getRoute g sig).1.Inv := by
  unfold TemplateCache.getRoute
  split
  · exact hi
  · exact hi.getRouteWrite

end Keep
end SolanaArbBot.TemplateCache
