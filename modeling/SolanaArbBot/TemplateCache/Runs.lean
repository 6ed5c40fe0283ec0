import SolanaArbBot.Lib.Runs
import SolanaArbBot.TemplateCache.Disk

/-! Runs of the route store: operations and restarts in any order. A lookup is
one operation, or its two critical sections with other operations in between. -/
namespace SolanaArbBot.TemplateCache
open Lib

inductive Op where
  | insertRoute (sig : Sig) (swapIxs : SwapInstructionsResponse) (inAmount quotedOut : UInt64)
      (routePlan : Value)
  | getRouteRead (sig : Sig)
  | getRouteWrite (sig : Sig)
  | getRoute (sig : Sig)
  | getRouteForHops (routePlan : Value)
  | recordRouteHit (sig : Sig)
  | recordHops (routePlan : Value) (contextSlot : Option UInt64)
  | restart

inductive Step : StoreInner → Op → StoreInner → Prop
  | insertRoute {g} (sig ix a q plan) :
      Step g (.insertRoute sig ix a q plan) (insertRoute g sig ix a q plan)
  | getRouteRead {g} (sig) : Step g (.getRouteRead sig) g
  | getRouteWrite {g} (sig) : Step g (.getRouteWrite sig) (getRouteWrite g sig).1
  | getRoute {g} (sig) : Step g (.getRoute sig) (getRoute g sig).1
  | getRouteForHops {g} (plan) : Step g (.getRouteForHops plan) (getRouteForHops g plan).1
  | recordRouteHit {g} (sig) : Step g (.recordRouteHit sig) (recordRouteHit g sig)
  | recordHops {g} (plan slot) : Step g (.recordHops plan slot) (recordHops g plan slot)
  | restart {g g'} (h : Restarted g g') : Step g .restart g'

abbrev IsRun (tr : List (Op × StoreInner)) : Prop := AllSteps Step .new tr

abbrev finalStore (tr : List (Op × StoreInner)) : StoreInner := lastState .new tr

/-! Lookups and hop records reduce to the second critical section or to nothing. -/

theorem getRoute_cases (g : StoreInner) (sig : Sig) :
    getRoute g sig = (g, g.find sig) ∨ getRoute g sig = getRouteWrite g sig := by
  unfold getRoute
  cases hr : getRouteRead g sig with
  | answer r =>
    left
    rw [(getRouteRead_answer hr).1]
  | inCold => right; rfl

theorem getRouteForHops_cases (g : StoreInner) (plan : Value) :
    (hopPairSig g plan = none ∧ getRouteForHops g plan = (g, none)) ∨
    ∃ sig, hopPairSig g plan = some sig ∧ getRouteForHops g plan = getRoute g sig := by
  unfold getRouteForHops
  cases hopPairSig g plan with
  | none => exact Or.inl ⟨rfl, rfl⟩
  | some sig => exact Or.inr ⟨sig, rfl, rfl⟩

/-- What a lookup returns is stored, up to one hit. -/
theorem getRoute_found {g : StoreInner} (hi : g.Inv) {sig : Sig} {t : RouteTemplate}
    (h : (getRoute g sig).2 = some t) :
    g.find sig = some t ∨ ∃ u, g.find sig = some u ∧ t = u.hit := by
  rcases getRoute_cases g sig with hg | hg
  · rw [hg] at h
    exact Or.inl h
  · rw [hg] at h
    rcases getRouteWrite_cases g sig with ⟨hc, hw⟩ | ⟨u, hc, hw⟩
    · rw [hw] at h
      exact Or.inl (StoreInner.Inv.find_hot h)
    · rw [hw] at h
      cases h
      exact Or.inr ⟨u, hi.find_cold hc, rfl⟩

/-- The store a lookup by hops leaves is one that a lookup by signature leaves. -/
theorem getRouteForHops_store (g : StoreInner) (plan : Value) :
    (getRouteForHops g plan).1 = g ∨ ∃ sig, (getRouteForHops g plan).1 = (getRouteWrite g sig).1 := by
  rcases getRouteForHops_cases g plan with ⟨_, h⟩ | ⟨sig, _, h⟩
  · left; rw [h]
  · rcases getRoute_cases g sig with hg | hg
    · left; rw [h, hg]
    · right; exact ⟨sig, by rw [h, hg]⟩

private theorem recordHop_routes (slot : Option UInt64) (g : StoreInner) (hop : Value) :
    (recordHop slot g hop).routesHot = g.routesHot ∧ (recordHop slot g hop).routesCold = g.routesCold ∧
      (recordHop slot g hop).hopPairIndex = g.hopPairIndex := by
  unfold recordHop
  split <;> exact ⟨rfl, rfl, rfl⟩

/-- Recording hops leaves the routes and the index alone. -/
theorem recordHops_routes (g : StoreInner) (plan : Value) (slot : Option UInt64) :
    (recordHops g plan slot).routesHot = g.routesHot ∧
      (recordHops g plan slot).routesCold = g.routesCold ∧
      (recordHops g plan slot).hopPairIndex = g.hopPairIndex := by
  unfold recordHops
  induction plan.asArray.getD [] generalizing g with
  | nil => exact ⟨rfl, rfl, rfl⟩
  | cons hop hops ih =>
    obtain ⟨h1, h2, h3⟩ := ih (recordHop slot g hop)
    obtain ⟨r1, r2, r3⟩ := recordHop_routes slot g hop
    exact ⟨h1.trans r1, h2.trans r2, h3.trans r3⟩

theorem StoreInner.Inv.recordHops {g : StoreInner} (hi : g.Inv) (plan : Value)
    (slot : Option UInt64) : (recordHops g plan slot).Inv := by
  obtain ⟨h1, h2, _⟩ := recordHops_routes g plan slot
  refine ⟨fun sig => ?_, fun sig t h => ?_, fun sig t h => ?_⟩
  · rw [h1, h2]; exact hi.disjoint sig
  · rw [h1] at h; exact hi.hotKey sig t h
  · rw [h2] at h; exact hi.coldKey sig t h

theorem find_recordHops (g : StoreInner) (plan : Value) (slot : Option UInt64) (x : Sig) :
    (recordHops g plan slot).find x = g.find x := by
  obtain ⟨h1, h2, _⟩ := recordHops_routes g plan slot
  rw [StoreInner.find, h1, h2, StoreInner.find]

theorem StoreInner.Inv.step {g g' : StoreInner} {op : Op} (hi : g.Inv) (h : Step g op g') :
    g'.Inv := by
  cases h with
  | insertRoute sig ix a q plan => exact hi.insertRoute ix a q plan
  | getRouteRead sig => exact hi
  | getRouteWrite sig => exact hi.getRouteWrite
  | getRoute sig => exact hi.getRoute
  | getRouteForHops plan =>
    rcases getRouteForHops_store g plan with h | ⟨sig, h⟩
    · rw [h]; exact hi
    · rw [h]; exact hi.getRouteWrite
  | recordRouteHit sig => exact hi.recordRouteHit
  | recordHops plan slot => exact hi.recordHops plan slot
  | restart h => exact (h.spec hi).inv hi

/-- The segments keep their invariant over every run. -/
theorem IsRun.inv {tr : List (Op × StoreInner)} (h : IsRun tr) : (finalStore tr).Inv :=
  h.invariant StoreInner.new_inv fun _ _ _ hi hs => hi.step hs

def Op.InsertsAt (sig : Sig) (op : Op) : Prop := ∃ ix a q plan, op = .insertRoute sig ix a q plan

inductive Origin (g : StoreInner) (op : Op) (sig : Sig) : RouteTemplate → Prop
  | kept (t) (hf : g.find sig = some t) (ho : ¬ op.InsertsAt sig) (hr : op ≠ .restart) :
      Origin g op sig t
  | hit (t) (hf : g.find sig = some t) (ho : ¬ op.InsertsAt sig) (hr : op ≠ .restart) :
      Origin g op sig t.hit
  | learned (ix a q plan t) (hf : g.find sig = some t) (ho : op = .insertRoute sig ix a q plan) :
      Origin g op sig (t.learn a ix)
  | created (ix a q plan) (hf : g.find sig = none) (ho : op = .insertRoute sig ix a q plan) :
      Origin g op sig (firstTemplate sig ix a q)
  | reloaded (t) (hf : g.find sig = some t) (ho : op = .restart) : Origin g op sig t.reload

section Origins
variable {g g' : StoreInner} {op : Op} {sig : Sig} {t : RouteTemplate}

private theorem find_push_ne {s : Sig} {u : RouteTemplate} (hne : sig ≠ s)
    (h : (pushHotRoute g s u).find sig = some t) : g.find sig = some t := by
  rw [find_pushHotRoute, if_neg hne] at h
  split at h
  · exact StoreInner.Inv.find_hot h
  · exact h

private theorem find_getRouteWrite (hi : g.Inv) {s : Sig}
    (h : (getRouteWrite g s).1.find sig = some t) :
    g.find sig = some t ∨ ∃ u, g.find sig = some u ∧ t = u.hit := by
  rcases getRouteWrite_cases g s with ⟨_, he⟩ | ⟨u, hc, he⟩
  · rw [he] at h
    exact Or.inl h
  · rw [he] at h
    by_cases hs : sig = s
    · subst hs
      rw [find_pushHotRoute, if_pos rfl] at h
      cases h
      exact Or.inr ⟨u, hi.find_cold hc, rfl⟩
    · left
      have hf := find_push_ne hs h
      rwa [StoreInner.find, HashMap.get_remove, if_neg hs] at hf

private theorem find_insertRoute (hi : g.Inv) {s : Sig} {ix : SwapInstructionsResponse}
    {a q : UInt64} {plan : Value} (h : (insertRoute g s ix a q plan).find sig = some t) :
    (sig ≠ s ∧ g.find sig = some t) ∨ (sig = s ∧
      ((g.find sig = none ∧ t = firstTemplate s ix a q) ∨
        ∃ u, g.find sig = some u ∧ t = u.learn a ix)) := by
  rcases insertRoute_cases g s ix a q plan with ⟨hn, he⟩ | ⟨hk, he⟩ | ⟨hh, hk, he⟩
  · rw [he, find_indexHopPair] at h
    by_cases hs : sig = s
    · subst hs
      rw [find_pushHotRoute, if_pos rfl] at h
      cases h
      exact Or.inr ⟨rfl, Or.inl ⟨hn, rfl⟩⟩
    · exact Or.inl ⟨hs, find_push_ne hs h⟩
  · obtain ⟨u, hu⟩ := HashMap.containsKey_iff.mp hk
    rw [he, StoreInner.find, HashMap.get_modify] at h
    by_cases hs : sig = s
    · subst hs
      rw [if_pos rfl, hu, Option.map_some, Option.some_or] at h
      cases h
      exact Or.inr ⟨rfl, Or.inr ⟨u, StoreInner.Inv.find_hot hu, rfl⟩⟩
    · rw [if_neg hs] at h
      exact Or.inl ⟨hs, h⟩
  · obtain ⟨u, hu⟩ := HashMap.containsKey_iff.mp hk
    rw [he, StoreInner.find, HashMap.get_modify] at h
    by_cases hs : sig = s
    · subst hs
      rw [if_pos rfl, hh, hu, Option.map_some, Option.none_or] at h
      cases h
      exact Or.inr ⟨rfl, Or.inr ⟨u, hi.find_cold hu, rfl⟩⟩
    · rw [if_neg hs] at h
      exact Or.inl ⟨hs, h⟩

private theorem not_insertsAt (h : ∀ s ix a q plan, op ≠ .insertRoute s ix a q plan) :
    ¬ op.InsertsAt sig := by
  rintro ⟨ix, a, q, plan, rfl⟩
  exact h sig ix a q plan rfl

private theorem origin_lookup (ho : ¬ op.InsertsAt sig) (hr : op ≠ .restart)
    (h : g.find sig = some t ∨ ∃ u, g.find sig = some u ∧ t = u.hit) : Origin g op sig t := by
  rcases h with h | ⟨u, h, rfl⟩
  · exact .kept t h ho hr
  · exact .hit u h ho hr

/-- Every template found after a step is one found before, changed in one of
four ways at most, or the one this very step creates. -/
theorem Step.origin (hi : g.Inv) (h : Step g op g') (hf : g'.find sig = some t) :
    Origin g op sig t := by
  cases h with
  | insertRoute s ix a q plan =>
    rcases find_insertRoute hi hf with ⟨hs, hf⟩ | ⟨rfl, ⟨hn, rfl⟩ | ⟨u, hu, rfl⟩⟩
    · refine .kept t hf ?_ Op.noConfusion
      rintro ⟨ix', a', q', plan', he⟩
      cases he
      exact hs rfl
    · exact .created ix a q plan hn rfl
    · exact .learned ix a q plan u hu rfl
  | getRouteRead s =>
    exact .kept t hf (not_insertsAt fun _ _ _ _ _ => Op.noConfusion) Op.noConfusion
  | getRouteWrite s =>
    exact origin_lookup (not_insertsAt fun _ _ _ _ _ => Op.noConfusion) Op.noConfusion
      (find_getRouteWrite hi hf)
  | getRoute s =>
    refine origin_lookup (not_insertsAt fun _ _ _ _ _ => Op.noConfusion) Op.noConfusion ?_
    rcases getRoute_cases g s with h | h
    · rw [h] at hf
      exact Or.inl hf
    · rw [h] at hf
      exact find_getRouteWrite hi hf
  | getRouteForHops plan =>
    refine origin_lookup (not_insertsAt fun _ _ _ _ _ => Op.noConfusion) Op.noConfusion ?_
    rcases getRouteForHops_store g plan with h | ⟨s, h⟩
    · rw [h] at hf
      exact Or.inl hf
    · rw [h] at hf
      exact find_getRouteWrite hi hf
  | recordRouteHit s =>
    rw [find_recordRouteHit] at hf
    refine origin_lookup (not_insertsAt fun _ _ _ _ _ => Op.noConfusion) Op.noConfusion ?_
    split at hf
    · obtain ⟨u, hu, rfl⟩ := Option.map_eq_some_iff.mp hf
      exact Or.inr ⟨u, hu, rfl⟩
    · exact Or.inl hf
  | recordHops plan slot =>
    rw [find_recordHops] at hf
    exact .kept t hf (not_insertsAt fun _ _ _ _ _ => Op.noConfusion) Op.noConfusion
  | restart h =>
    rw [(h.spec hi).find] at hf
    obtain ⟨u, hu, rfl⟩ := Option.map_eq_some_iff.mp hf
    exact .reloaded u hu rfl

end Origins
end SolanaArbBot.TemplateCache
