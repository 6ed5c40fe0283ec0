import SolanaArbBot.TemplateCache.Filling
import SolanaArbBot.TemplateCache.Provenance

/-! Lookups by many threads at once. Each takes the lock twice, and any other
operation may run between its two critical sections. -/
namespace SolanaArbBot.TemplateCache
open Lib

/-- The store and the lookups that are between their two critical sections. -/
structure Threads where
  store : StoreInner
  between : List Sig

/-- One critical section of some thread. A first look carries what the lookup
returns, unless it goes on to its second section. -/
inductive Event where
  | insertRoute (sig : Sig) (swapIxs : SwapInstructionsResponse) (inAmount quotedOut : UInt64)
      (routePlan : Value)
  | recordRouteHit (sig : Sig)
  | firstSection (sig : Sig) (returned : Option (Option RouteTemplate))
  | secondSection (sig : Sig) (returned : Option RouteTemplate)

namespace Threads

def new : Threads := ⟨.new, []⟩

inductive Step : Threads → Event → Threads → Prop
  | insertRoute {g ls} (sig ix a q plan) :
      Step ⟨g, ls⟩ (.insertRoute sig ix a q plan) ⟨insertRoute g sig ix a q plan, ls⟩
  | recordRouteHit {g ls} (sig) : Step ⟨g, ls⟩ (.recordRouteHit sig) ⟨recordRouteHit g sig, ls⟩
  | answered {g ls sig r} (h : getRouteRead g sig = .answer r) :
      Step ⟨g, ls⟩ (.firstSection sig (some r)) ⟨g, ls⟩
  | goesOn {g ls sig} (h : getRouteRead g sig = .inCold) :
      Step ⟨g, ls⟩ (.firstSection sig none) ⟨g, sig :: ls⟩
  | secondSection {g} (pre sig post) :
      Step ⟨g, pre ++ sig :: post⟩ (.secondSection sig (getRouteWrite g sig).2)
        ⟨(getRouteWrite g sig).1, pre ++ post⟩

end Threads

def Event.op : Event → Op
  | .insertRoute sig ix a q plan => .insertRoute sig ix a q plan
  | .recordRouteHit sig => .recordRouteHit sig
  | .firstSection sig _ => .getRouteRead sig
  | .secondSection sig _ => .getRouteWrite sig

/-- Whatever the event returns from a lookup, an uninterrupted lookup on this
store returns as well. -/
def Event.AnswersLike (g : StoreInner) : Event → Prop
  | .firstSection sig (some r) => r = (getRoute g sig).2
  | .secondSection sig r => r = (getRoute g sig).2
  | _ => True

def storeTrace (tr : List (Event × Threads)) : List (Op × StoreInner) :=
  tr.map fun e => (e.1.op, e.2.store)

theorem Threads.Step.store {m m' : Threads} {e : Event} (h : Threads.Step m e m') :
    TemplateCache.Step m.store e.op m'.store := by
  cases h with
  | insertRoute sig ix a q plan => exact .insertRoute sig ix a q plan
  | recordRouteHit sig => exact .recordRouteHit sig
  | answered h => exact .getRouteRead _
  | goesOn h => exact .getRouteRead _
  | secondSection pre sig post => exact .getRouteWrite sig

/-- The threads refine the sequential store. -/
theorem isRun_storeTrace {tr : List (Event × Threads)} (h : AllSteps Threads.Step .new tr) :
    IsRun (storeTrace tr) ∧ finalStore (storeTrace tr) = (lastState Threads.new tr).store :=
  ⟨h.simulate Threads.store Event.op fun _ _ _ hs => hs.store,
    lastState_map Threads.store Event.op Threads.new tr⟩

private theorem restart_notMem (tr : List (Event × Threads)) : .restart ∉ labels (storeTrace tr) := by
  rw [labels, storeTrace, List.map_map]
  intro hm
  obtain ⟨⟨e, m⟩, _, he⟩ := List.mem_map.mp hm
  cases e <;> cases he

/-- With the segments disjoint, the second critical section answers as a whole
lookup started there would. -/
theorem getRouteWrite_answer {g : StoreInner} (hi : g.Inv) (sig : Sig) :
    (getRouteWrite g sig).2 = (getRoute g sig).2 := by
  unfold getRoute
  cases hr : getRouteRead g sig with
  | inCold => rfl
  | answer r =>
    obtain ⟨hf, hor⟩ := getRouteRead_answer hr
    rcases getRouteWrite_cases g sig with ⟨hc, hw⟩ | ⟨t, hc, _⟩
    · rw [hw, hf, StoreInner.find, hc, Option.or_none]
    · exfalso
      have hh : g.routesHot.get sig = none := by
        rcases hi.disjoint sig with hd | hd
        · exact hd
        · rw [hc] at hd; cases hd
      rw [hi.find_cold hc] at hf
      rcases hor with h | h
      · rw [hf] at h; cases h
      · rw [hf, hh] at h; cases h

private theorem answersLike_step {m m' : Threads} {e : Event} (hi : m.store.Inv)
    (h : Threads.Step m e m') : e.AnswersLike m.store := by
  cases h with
  | answered h =>
    rw [Event.AnswersLike, getRoute, h]
  | secondSection pre sig post => exact getRouteWrite_answer hi sig
  | _ => trivial

/-- In every state of every interleaving the segments are disjoint and keyed by
the templates' own signatures, each template stems from the insertion that
created it and from the earliest response per amount since then, and each lookup
returns what an uninterrupted one would at one of its critical sections. -/
theorem interleaved_store {tr : List (Event × Threads)} (h : AllSteps Threads.Step .new tr) :
    let g := (lastState Threads.new tr).store
    (∀ sig, g.routesHot.get sig = none ∨ g.routesCold.get sig = none) ∧
    (∀ sig t, g.routesHot.get sig = some t ∨ g.routesCold.get sig = some t →
      t.routeSignature = sig ∧
      (∃ plan since,
        LiveSince sig (.insertRoute sig t.swapIxs t.templateInAmount t.templateQuotedOut plan)
          (storeTrace tr) since ∧
        ∀ amount, t.amountVariants.get amount = earliestResponse sig amount (labels since)) ∧
      t.inAmountOffset =
        (responseOffsets t.swapIxs t.templateInAmount t.templateQuotedOut).map Prod.fst ∧
      t.quotedOutOffset =
        (responseOffsets t.swapIxs t.templateInAmount t.templateQuotedOut).map Prod.snd) ∧
    AllSteps (fun m e _ => e.AnswersLike m.store) Threads.new tr := by
  obtain ⟨hrun, hlast⟩ := isRun_storeTrace h
  have hi := hrun.inv
  rw [hlast] at hi
  refine ⟨hi.disjoint, ?_, ?_⟩
  · intro sig t ht
    have hf : (lastState Threads.new tr).store.find sig = some t := by
      rcases ht with ht | ht
      · exact StoreInner.Inv.find_hot ht
      · exact hi.find_cold ht
    obtain ⟨⟨plan, since, hl, hv⟩, h1, h2⟩ := hrun.provenance (by rw [hlast]; exact hf)
    refine ⟨hi.key hf, ⟨plan, since, hl, ?_⟩, h1, h2⟩
    intro amount
    rw [hv, sinceRestart_eq_self fun hm => restart_notMem tr (hl.mem.2 hm)]
  · have hinv := h.withInvariant (I := fun m => m.store.Inv) StoreInner.new_inv
      fun _ _ _ hi hs => hi.step hs.store
    exact hinv.mono fun _ _ _ hs => answersLike_step hs.1 hs.2.1

def fillEvents (g : StoreInner) : List Sig → List (Event × Threads)
  | [] => []
  | sig :: sigs =>
    let g' := insertRoute g sig default 0 0 .null
    (.insertRoute sig default 0 0 .null, ⟨g', []⟩) :: fillEvents g' sigs

private theorem allSteps_fillEvents (g : StoreInner) (sigs : List Sig) :
    AllSteps Threads.Step ⟨g, []⟩ (fillEvents g sigs) := by
  induction sigs generalizing g with
  | nil => trivial
  | cons sig sigs ih => exact ⟨.insertRoute _ _ _ _ _, ih _⟩

private theorem lastState_fillEvents (g : StoreInner) (sigs : List Sig) :
    lastState ⟨g, []⟩ (fillEvents g sigs) = ⟨fill g sigs, []⟩ := by
  induction sigs generalizing g with
  | nil => rfl
  | cons sig sigs ih => exact ih _

/-- The events that leave a route with a hop pair in the cold segment. -/
def coolingEvents : List (Event × Threads) :=
  (.insertRoute 0 default 0 0 samplePlan, ⟨taught, []⟩) :: fillEvents taught (sigsFrom 1 2000)

/-- A lookup finds the route cold, another thread inserts it for a second amount,
and the second section returns the template with both. -/
def cutLookup : List (Event × Threads) :=
  let g := insertRoute rotated 0 default 9 6609 samplePlan
  [(.firstSection 0 none, ⟨rotated, [0]⟩), (.insertRoute 0 default 9 6609 samplePlan, ⟨g, [0]⟩),
    (.secondSection 0 (getRouteWrite g 0).2, ⟨(getRouteWrite g 0).1, []⟩)]

private theorem cutLookup_steps : AllSteps Threads.Step .new (coolingEvents ++ cutLookup) := by
  refine allSteps_append.mpr ⟨⟨.insertRoute _ _ _ _ _, allSteps_fillEvents _ _⟩, ?_⟩
  have hlast : lastState Threads.new coolingEvents = ⟨rotated, []⟩ := by
    rw [coolingEvents, lastState, lastState_fillEvents, rotated]
  have hcold : getRouteRead rotated 0 = .inCold := by
    rw [getRouteRead, rotated_cold.2, HashMap.containsKey, rotated_cold.1]
    rfl
  rw [hlast]
  exact ⟨.goesOn hcold, .insertRoute _ _ _ _ _, .secondSection [] 0 [], trivial⟩

private theorem learned_promoted {g : StoreInner} {sig : Sig} {u : RouteTemplate}
    (hh : g.routesHot.get sig = none) (hc : g.routesCold.get sig = some u)
    (ix : SwapInstructionsResponse) (a q : UInt64) (plan : Value) :
    (getRouteWrite (insertRoute g sig ix a q plan) sig).2 = some (u.learn a ix).hit := by
  simp [insertRoute, getRouteWrite, HashMap.containsKey, hh, hc, HashMap.get_modify]

theorem interleaved_cut_lookup :
    AllSteps (fun m e _ => e.AnswersLike m.store) Threads.new (coolingEvents ++ cutLookup) ∧
    ∃ t, .secondSection 0 (some t) ∈ labels cutLookup ∧ (t.amountVariants.get 9).isSome := by
  refine ⟨(interleaved_store cutLookup_steps).2.2, ?_⟩
  obtain ⟨u, hu⟩ := Option.isSome_iff_exists.mp rotated_cold.1
  refine ⟨(u.learn 9 default).hit, ?_, ?_⟩
  · rw [cutLookup, learned_promoted rotated_cold.2 hu]
    exact List.mem_cons_of_mem _ (List.mem_cons_of_mem _ List.mem_cons_self)
  · have hget := HashMap.get_orInsert u.amountVariants 9 9 (default : SwapInstructionsResponse)
    rw [if_pos rfl] at hget
    rw [RouteTemplate.hit, RouteTemplate.learn]
    dsimp only
    rw [hget]
    cases u.amountVariants.get 9 <;> rfl

end SolanaArbBot.TemplateCache
