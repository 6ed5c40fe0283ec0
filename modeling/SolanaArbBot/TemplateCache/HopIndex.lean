import SolanaArbBot.TemplateCache.Filling
import SolanaArbBot.TemplateCache.RoundTrip

/-! The hop-pair index against evictions. An index entry is written once and
never follows its route out of the store. -/
namespace SolanaArbBot.TemplateCache
open Lib

/-- The route and the plan that an operation creates a template for. -/
def created (g : StoreInner) : Op → Option (Sig × Value)
  | .insertRoute sig _ _ _ plan => if (g.find sig).isSome then none else some (sig, plan)
  | _ => none

def promoted (g : StoreInner) (sig : Sig) : Option Sig :=
  if (g.routesCold.get sig).isSome then some sig else none

def pushed (g : StoreInner) : Op → Option Sig
  | .insertRoute sig _ _ _ _ => if (g.find sig).isSome then none else some sig
  | .getRouteWrite sig => promoted g sig
  | .getRoute sig => promoted g sig
  | .getRouteForHops plan => (hopPairSig g plan).bind (promoted g)
  | _ => none

/-- A push into a full hot segment drops every other route that is not hot. -/
def Drops (g : StoreInner) (op : Op) (sig : Sig) : Prop :=
  ∃ s, pushed g op = some s ∧ g.Full ∧ sig ≠ s ∧ g.routesHot.get sig = none

section Live
variable {g g' : StoreInner} {op : Op} {x : Sig}

/-- A push puts one route into the hot segment, and rotates the segments if the hot
one is full. -/
structure Pushes (g : StoreInner) (s : Sig) (g' : StoreInner) : Prop where
  hot : ∀ x, (g'.routesHot.get x).isSome ↔ x = s ∨ (¬ g.Full ∧ (g.routesHot.get x).isSome)
  cold : ∀ x, x ≠ s → ((g'.routesCold.get x).isSome ↔
    if g.Full then (g.routesHot.get x).isSome else (g.routesCold.get x).isSome)
  len : g'.routesHot.len ≤ if g.Full then 1 else g.routesHot.len + 1

/-- Both segments hold the routes that they held. -/
structure Keeps (g g' : StoreInner) : Prop where
  hot : ∀ x, (g'.routesHot.get x).isSome ↔ (g.routesHot.get x).isSome
  cold : ∀ x, (g'.routesCold.get x).isSome ↔ (g.routesCold.get x).isSome
  len : g'.routesHot.len = g.routesHot.len

theorem Keeps.refl (g : StoreInner) : Keeps g g := ⟨fun _ => Iff.rfl, fun _ => Iff.rfl, rfl⟩

theorem Keeps.of_routes (hh : g'.routesHot = g.routesHot) (hc : g'.routesCold = g.routesCold) :
    Keeps g g' := by
  constructor
  · intro x
    rw [hh]
  · intro x
    rw [hc]
  · rw [hh]

private theorem isSome_modify (m : HashMap Sig RouteTemplate) (s x : Sig)
    (f : RouteTemplate → RouteTemplate) : ((m.modify s f).get x).isSome ↔ (m.get x).isSome := by
  rw [HashMap.get_modify]
  split
  · rw [Option.isSome_map]
  · exact Iff.rfl

theorem Keeps.modifyHot (g : StoreInner) (s : Sig) (f : RouteTemplate → RouteTemplate) :
    Keeps g { g with routesHot := g.routesHot.modify s f } :=
  ⟨fun x => isSome_modify _ s x f, fun _ => Iff.rfl, HashMap.len_modify _ _ _⟩

theorem Keeps.modifyCold (g : StoreInner) (s : Sig) (f : RouteTemplate → RouteTemplate) :
    Keeps g { g with routesCold := g.routesCold.modify s f } :=
  ⟨fun _ => Iff.rfl, fun x => isSome_modify _ s x f, rfl⟩

theorem Pushes.of_pushHotRoute (base : StoreInner) {s : Sig} {t : RouteTemplate}
    (hh : base.routesHot = g.routesHot)
    (hc : ∀ x, x ≠ s → base.routesCold.get x = g.routesCold.get x)
    (hh' : g'.routesHot = (pushHotRoute base s t).routesHot)
    (hc' : g'.routesCold = (pushHotRoute base s t).routesCold) : Pushes g s g' := by
  have hfull : base.Full ↔ g.Full := by rw [StoreInner.Full, hh, StoreInner.Full]
  refine ⟨?_, ?_, ?_⟩
  · intro x
    rw [hh', pushHotRoute_hot, hh]
    by_cases hx : x = s
    · simp [hx]
    · by_cases hf : g.Full <;> simp [hx, hfull, hf]
  · intro x hx
    rw [hc', pushHotRoute_cold]
    by_cases hf : g.Full
    · rw [if_pos (hfull.mpr hf), if_pos hf, hh]
    · rw [if_neg fun h => hf (hfull.mp h), if_neg hf, hc x hx]
  · rw [hh']
    unfold pushHotRoute
    by_cases hf : g.Full
    · have hge : base.routesHot.len ≥ routeSegCap := hfull.mpr hf
      rw [if_pos hf, if_pos hge]
      exact HashMap.len_insert_le _ _ _
    · have hge : ¬ base.routesHot.len ≥ routeSegCap := fun h => hf (hfull.mp h)
      rw [if_neg hf, if_neg hge, ← hh]
      exact HashMap.len_insert_le _ _ _

private theorem promote_shape {s : Sig} (hp : pushed g op = promoted g s) :
    (∃ s', pushed g op = some s' ∧ Pushes g s' (getRouteWrite g s).1) ∨
      (pushed g op = none ∧ Keeps g (getRouteWrite g s).1) := by
  rcases getRouteWrite_cases g s with ⟨hc, he⟩ | ⟨t, hc, he⟩
  · refine Or.inr ⟨?_, ?_⟩
    · rw [hp, promoted, hc]
      rfl
    · rw [he]
      exact Keeps.refl g
  · refine Or.inl ⟨s, ?_, ?_⟩
    · rw [hp, promoted, hc]
      rfl
    · rw [he]
      exact Pushes.of_pushHotRoute { g with routesCold := g.routesCold.remove s } rfl
        (fun x hx => by rw [HashMap.get_remove, if_neg hx]) rfl rfl

private theorem getRoute_shape (hi : g.Inv) {s : Sig} (hp : pushed g op = promoted g s) :
    (∃ s', pushed g op = some s' ∧ Pushes g s' (getRoute g s).1) ∨
      (pushed g op = none ∧ Keeps g (getRoute g s).1) := by
  unfold getRoute
  cases hr : getRouteRead g s with
  | inCold => exact promote_shape hp
  | answer r =>
    refine Or.inr ⟨?_, Keeps.refl g⟩
    obtain ⟨hf, hor⟩ := getRouteRead_answer hr
    rw [hp, promoted, if_neg]
    intro hc
    obtain ⟨t, ht⟩ := Option.isSome_iff_exists.mp hc
    rw [hi.find_cold ht] at hf
    rcases hor with h | h
    · rw [h] at hf; cases hf
    · rcases hi.disjoint s with hd | hd
      · rw [hf, hd] at h; cases h
      · rw [hd] at ht; cases ht

/-- Apart from a restart a step pushes a route or keeps both segments. -/
theorem Step.pushes_or_keeps (hi : g.Inv) (h : Step g op g') (hr : op ≠ .restart) :
    (∃ s, pushed g op = some s ∧ Pushes g s g') ∨ (pushed g op = none ∧ Keeps g g') := by
  cases h with
  | insertRoute sig ix a q plan =>
    rcases insertRoute_cases g sig ix a q plan with ⟨hn, he⟩ | ⟨hk, he⟩ | ⟨hh, hk, he⟩
    · refine Or.inl ⟨sig, ?_, ?_⟩
      · rw [pushed, hn]
        rfl
      · rw [he]
        exact Pushes.of_pushHotRoute g rfl (fun _ _ => rfl) (indexHopPair_hot _ _ _)
          (indexHopPair_cold _ _ _)
    · obtain ⟨t, ht⟩ := HashMap.containsKey_iff.mp hk
      refine Or.inr ⟨?_, ?_⟩
      · rw [pushed, StoreInner.Inv.find_hot ht]
        rfl
      · rw [he]
        exact Keeps.modifyHot g sig _
    · obtain ⟨t, ht⟩ := HashMap.containsKey_iff.mp hk
      refine Or.inr ⟨?_, ?_⟩
      · rw [pushed, hi.find_cold ht]
        rfl
      · rw [he]
        exact Keeps.modifyCold g sig _
  | getRouteRead sig => exact Or.inr ⟨rfl, Keeps.refl g⟩
  | getRouteWrite sig => exact promote_shape rfl
  | getRoute sig => exact getRoute_shape hi rfl
  | getRouteForHops plan =>
    rcases getRouteForHops_cases g plan with ⟨hn, he⟩ | ⟨sig, hs, he⟩
    · rw [he]
      refine Or.inr ⟨?_, Keeps.refl g⟩
      rw [pushed, hn]
      rfl
    · rw [he]
      refine getRoute_shape hi (s := sig) ?_
      rw [pushed, hs]
      rfl
  | recordRouteHit sig =>
    refine Or.inr ⟨rfl, ?_⟩
    unfold TemplateCache.recordRouteHit
    split
    · exact Keeps.modifyHot g sig _
    · split
      · exact Keeps.modifyCold g sig _
      · exact Keeps.refl g
  | recordHops plan slot =>
    obtain ⟨hh, hc, _⟩ := recordHops_routes g plan slot
    exact Or.inr ⟨rfl, Keeps.of_routes hh hc⟩
  | restart => exact absurd rfl hr

/-- After a step the live routes are the pushed one and those not dropped. -/
theorem Step.live_iff (hi : g.Inv) (h : Step g op g') (x : Sig) :
    g'.Live x ↔ pushed g op = some x ∨ (g.Live x ∧ ¬ Drops g op x) := by
  by_cases hr : op = .restart
  · subst hr
    cases h with
    | restart h =>
      have hkept : ¬ Drops g .restart x := by
        rintro ⟨_, he, _⟩
        cases he
      rw [(h.spec hi).live x, and_iff_left hkept]
      exact (or_iff_right (by simp [pushed])).symm
  rw [StoreInner.live_iff, StoreInner.live_iff]
  rcases h.pushes_or_keeps hi hr with ⟨s, hp, hpush⟩ | ⟨hp, hkeep⟩
  · have hdrops : Drops g op x ↔ g.Full ∧ x ≠ s ∧ g.routesHot.get x = none := by
      simp only [Drops, hp, Option.some.injEq, exists_eq_left']
    rw [hpush.hot, hdrops, hp]
    by_cases hx : x = s
    · simp [hx]
    · rw [hpush.cold x hx]
      by_cases hf : g.Full <;> cases hg : g.routesHot.get x <;> simp [hx, Ne.symm hx, hf]
  · have hdrops : ¬ Drops g op x := by
      rintro ⟨_, he, _⟩
      rw [hp] at he
      cases he
    rw [hkeep.hot, hkeep.cold, and_iff_left hdrops, hp]
    exact (or_iff_right (by simp)).symm

end Live

section Index
variable {g g' : StoreInner} {op : Op}

def offered (g : StoreInner) (op : Op) (pairKey : String) : Option Sig :=
  (created g op).bind fun (sig, plan) => if hopPairKey plan = some pairKey then some sig else none

/-- A template is created by the insertion of a route that the store does not hold. -/
theorem created_eq_some {s : Sig} {plan : Value} :
    created g op = some (s, plan) ↔ (∃ ix a q, op = .insertRoute s ix a q plan) ∧ ¬ g.Live s := by
  constructor
  · intro h
    cases op with
    | insertRoute sig ix a q p =>
      rw [created] at h
      split at h
      · cases h
      · next hn =>
        cases h
        exact ⟨⟨ix, a, q, rfl⟩, hn⟩
    | _ => cases h
  · rintro ⟨⟨ix, a, q, rfl⟩, hn⟩
    exact if_neg hn

/-- An entry is offered by the creation of a template for a plan of the pair. -/
theorem offered_eq_some {k : String} {s : Sig} :
    offered g op k = some s ↔
      ∃ plan, created g op = some (s, plan) ∧ hopPairKey plan = some k := by
  rw [offered, Option.bind_eq_some_iff]
  constructor
  · rintro ⟨⟨s', plan⟩, hc, he⟩
    dsimp only at he
    split at he
    · next hk => cases he; exact ⟨plan, hc, hk⟩
    · cases he
  · rintro ⟨plan, hc, hk⟩
    exact ⟨(s, plan), hc, if_pos hk⟩

private theorem pushHotRoute_getRoute_index (g : StoreInner) (sig : Sig) :
    (getRouteWrite g sig).1.hopPairIndex = g.hopPairIndex := by
  rcases getRouteWrite_cases g sig with ⟨_, he⟩ | ⟨_, _, he⟩ <;> rw [he]
  rw [pushHotRoute_index]

private theorem index_insertRoute (hi : g.Inv) (sig : Sig) (ix : SwapInstructionsResponse)
    (a q : UInt64) (plan : Value) (k : String) :
    (insertRoute g sig ix a q plan).hopPairIndex.get k =
      (g.hopPairIndex.get k).or (offered g (.insertRoute sig ix a q plan) k) := by
  rcases insertRoute_cases g sig ix a q plan with ⟨hn, he⟩ | ⟨hk, he⟩ | ⟨hh, hk, he⟩
  · rw [he, offered, created, hn, indexHopPair]
    cases hp : hopPairKey plan with
    | none => simp [hp]
    | some pk =>
      dsimp only
      rw [HashMap.get_orInsert, pushHotRoute_index]
      simp [hp, eq_comm]
  · obtain ⟨t, ht⟩ := HashMap.containsKey_iff.mp hk
    rw [he, offered, created, StoreInner.Inv.find_hot ht]
    exact (Option.or_none).symm
  · obtain ⟨t, ht⟩ := HashMap.containsKey_iff.mp hk
    rw [he, offered, created, hi.find_cold ht]
    exact (Option.or_none).symm

/-- An index entry is written by the creation of a route and never changed. -/
theorem Step.index_get (hi : g.Inv) (h : Step g op g') (k : String) :
    g'.hopPairIndex.get k = (g.hopPairIndex.get k).or (offered g op k) := by
  have hsame (he : g'.hopPairIndex = g.hopPairIndex) (hn : created g op = none) :
      g'.hopPairIndex.get k = (g.hopPairIndex.get k).or (offered g op k) := by
    rw [he, offered, hn]
    exact (Option.or_none).symm
  cases h with
  | insertRoute sig ix a q plan => exact index_insertRoute hi sig ix a q plan k
  | getRouteRead sig => exact hsame rfl rfl
  | getRouteWrite sig => exact hsame (pushHotRoute_getRoute_index g sig) rfl
  | getRoute sig =>
    refine hsame ?_ rfl
    rcases getRoute_cases g sig with h | h
    · rw [h]
    · rw [h, pushHotRoute_getRoute_index]
  | getRouteForHops plan =>
    refine hsame ?_ rfl
    rcases getRouteForHops_store g plan with h | ⟨sig, h⟩
    · rw [h]
    · rw [h, pushHotRoute_getRoute_index]
  | recordRouteHit sig =>
    refine hsame ?_ rfl
    unfold TemplateCache.recordRouteHit
    split
    · rfl
    · split <;> rfl
  | recordHops plan slot => exact hsame (recordHops_routes g plan slot).2.2 rfl
  | restart h => exact hsame (h.spec hi).index rfl

end Index

/-- The store together with the plan each live route was created with. -/
structure Tracked where
  store : StoreInner
  createdBy : Sig → Option Value

namespace Tracked

def new : Tracked := ⟨.new, fun _ => none⟩

/-- A creation notes its plan; every other operation keeps the notes. -/
def note (m : Tracked) (op : Op) : Sig → Option Value :=
  match created m.store op with
  | some (sig, plan) => Function.update m.createdBy sig (some plan)
  | none => m.createdBy

def Step (m : Tracked) (op : Op) (m' : Tracked) : Prop :=
  TemplateCache.Step m.store op m'.store ∧ m'.createdBy = m.note op

/-- The route is live and was created with a plan of this hop pair. -/
def Has (m : Tracked) (pairKey : String) (sig : Sig) : Prop :=
  m.store.Live sig ∧ (m.createdBy sig).bind hopPairKey = some pairKey

/-- A plan whose hop pair has a live route is served a template. -/
def Complete (m : Tracked) : Prop :=
  ∀ plan pairKey sig, hopPairKey plan = some pairKey → m.Has pairKey sig →
    (getRouteForHops m.store plan).2.isSome

/-- A step is harmless when it does not drop the route indexed for a hop pair and
keep another one of that pair, nor create a route of a pair whose indexed route
is another one and gone. -/
structure Harmless (m : Tracked) (op : Op) : Prop where
  drop : ∀ pairKey s sig, m.store.hopPairIndex.get pairKey = some s → Drops m.store op s →
    m.Has pairKey sig → Drops m.store op sig
  create : ∀ pairKey s sig plan, created m.store op = some (sig, plan) →
    hopPairKey plan = some pairKey → m.store.hopPairIndex.get pairKey = some s → s ≠ sig →
    m.store.Live s ∧ ¬ Drops m.store op s

section Steps
variable {m m' : Tracked} {op : Op}

/-- A plan is served exactly when the route indexed for its pair is live. -/
theorem served_iff (hi : m.store.Inv) {plan : Value} {k : String} (hk : hopPairKey plan = some k) :
    (getRouteForHops m.store plan).2.isSome ↔
      ∃ s, m.store.hopPairIndex.get k = some s ∧ m.store.Live s := by
  rw [getRouteForHops, hopPairSig, hk, Option.bind_some]
  cases m.store.hopPairIndex.get k with
  | none => simp
  | some s => simpa using getRoute_isSome hi s

theorem complete_iff (hi : m.store.Inv) :
    m.Complete ↔ ∀ k sig, (∃ plan, hopPairKey plan = some k) → m.Has k sig →
      ∃ s, m.store.hopPairIndex.get k = some s ∧ m.store.Live s := by
  constructor
  · rintro hc k sig ⟨plan, hk⟩ hh
    exact (served_iff hi hk).mp (hc plan k sig hk hh)
  · intro hc plan k sig hk hh
    exact (served_iff hi hk).mpr (hc k sig ⟨plan, hk⟩ hh)

private theorem pushed_cases {g : StoreInner} {s : Sig} (hi : g.Inv) (h : pushed g op = some s) :
    g.Live s ∨ ∃ plan, created g op = some (s, plan) := by
  have hprom (x : Sig) (hx : promoted g x = some s) : g.Live s := by
    rw [promoted] at hx
    split at hx
    · next hc =>
      cases hx
      obtain ⟨t, ht⟩ := Option.isSome_iff_exists.mp hc
      rw [StoreInner.Live, hi.find_cold ht]
      rfl
    · cases hx
  cases op with
  | insertRoute sig ix a q plan =>
    rw [pushed] at h
    split at h
    · cases h
    · next hn =>
      cases h
      refine Or.inr ⟨plan, ?_⟩
      rw [created, if_neg hn]
  | getRouteWrite sig => exact Or.inl (hprom sig h)
  | getRoute sig => exact Or.inl (hprom sig h)
  | getRouteForHops plan =>
    rw [pushed, Option.bind_eq_some_iff] at h
    obtain ⟨x, _, hx⟩ := h
    exact Or.inl (hprom x hx)
  | _ => cases h

private theorem created_pushed {g : StoreInner} {s : Sig} {plan : Value}
    (h : created g op = some (s, plan)) : pushed g op = some s ∧ ¬ g.Live s := by
  obtain ⟨⟨ix, a, q, rfl⟩, hn⟩ := created_eq_some.mp h
  exact ⟨if_neg hn, hn⟩

private theorem note_of_live {sig : Sig} (hl : m.store.Live sig) : m.note op sig = m.createdBy sig := by
  unfold note
  cases hc : created m.store op with
  | none => rfl
  | some p =>
    have hne : sig ≠ p.1 := fun he => (created_pushed hc).2 (he ▸ hl)
    exact Function.update_of_ne hne _ _

private theorem note_of_created {sig : Sig} {plan : Value}
    (hc : created m.store op = some (sig, plan)) : m.note op sig = some plan := by
  unfold note
  rw [hc]
  exact Function.update_self _ _ _

private theorem has_step (hi : m.store.Inv) (h : Step m op m') (k : String) (sig : Sig) :
    m'.Has k sig ↔ (m.Has k sig ∧ ¬ Drops m.store op sig) ∨
      ∃ plan, created m.store op = some (sig, plan) ∧ hopPairKey plan = some k := by
  rw [Has, h.1.live_iff hi, h.2]
  constructor
  · rintro ⟨hp | ⟨hl, hd⟩, hk⟩
    · rcases pushed_cases hi hp with hl | ⟨plan, hc⟩
      · rw [note_of_live hl] at hk
        refine Or.inl ⟨⟨hl, hk⟩, ?_⟩
        rintro ⟨s, hs, _, hne, _⟩
        rw [hp] at hs
        exact hne (Option.some.inj hs)
      · rw [note_of_created hc] at hk
        exact Or.inr ⟨plan, hc, hk⟩
    · rw [note_of_live hl] at hk
      exact Or.inl ⟨⟨hl, hk⟩, hd⟩
  · rintro (⟨⟨hl, hk⟩, hd⟩ | ⟨plan, hc, hk⟩)
    · rw [note_of_live hl]
      exact ⟨Or.inr ⟨hl, hd⟩, hk⟩
    · rw [note_of_created hc]
      exact ⟨Or.inl (created_pushed hc).1, hk⟩

private theorem index_step (hi : m.store.Inv) (h : Step m op m') {k : String} {s : Sig}
    (hs : m.store.hopPairIndex.get k = some s) : m'.store.hopPairIndex.get k = some s := by
  rw [h.1.index_get hi, hs, Option.some_or]

private theorem Step.harmless (hi : m.store.Inv) (h : Step m op m')
    (hc' : ∀ k sig, (∃ plan, hopPairKey plan = some k) → m'.Has k sig →
      ∃ s, m'.store.hopPairIndex.get k = some s ∧ m'.store.Live s) : m.Harmless op := by
  constructor
  · intro k s sig hidx hdrop hhas
    by_contra hnd
    obtain ⟨plan, _, hk⟩ := Option.bind_eq_some_iff.mp hhas.2
    obtain ⟨s', hidx', hl⟩ := hc' k sig ⟨plan, hk⟩ ((has_step hi h k sig).mpr (Or.inl ⟨hhas, hnd⟩))
    rw [index_step hi h hidx] at hidx'
    cases hidx'
    rcases (h.1.live_iff hi s).mp hl with hp | ⟨_, hd⟩
    · obtain ⟨x, hx, _, hne, _⟩ := hdrop
      rw [hp] at hx
      exact hne (Option.some.inj hx)
    · exact hd hdrop
  · intro k s sig plan hcr hk hidx hne
    obtain ⟨s', hidx', hl⟩ := hc' k sig ⟨plan, hk⟩
      ((has_step hi h k sig).mpr (Or.inr ⟨plan, hcr, hk⟩))
    rw [index_step hi h hidx] at hidx'
    cases hidx'
    rcases (h.1.live_iff hi s).mp hl with hp | hkeep
    · rw [(created_pushed hcr).1] at hp
      exact absurd (Option.some.inj hp).symm hne
    · exact hkeep

/-- From a complete state a step leads to a complete one exactly if it is harmless. -/
theorem Step.complete_iff (hi : m.store.Inv) (hc : m.Complete) (h : Step m op m') :
    m'.Complete ↔ m.Harmless op := by
  rw [Tracked.complete_iff (hi.step h.1)]
  rw [Tracked.complete_iff hi] at hc
  constructor
  · exact h.harmless hi
  · intro hh k sig hkey hhas
    rcases (has_step hi h k sig).mp hhas with ⟨hhas, hnd⟩ | ⟨plan, hcr, hk⟩
    · obtain ⟨s, hidx, hl⟩ := hc k sig hkey hhas
      refine ⟨s, index_step hi h hidx, (h.1.live_iff hi s).mpr (Or.inr ⟨hl, ?_⟩)⟩
      exact fun hd => hnd (hh.drop k s sig hidx hd hhas)
    · cases hidx : m.store.hopPairIndex.get k with
      | none =>
        refine ⟨sig, ?_, hhas.1⟩
        rw [h.1.index_get hi, hidx, Option.none_or, offered_eq_some]
        exact ⟨plan, hcr, hk⟩
      | some s =>
        refine ⟨s, index_step hi h hidx, ?_⟩
        by_cases hs : s = sig
        · rw [hs]
          exact hhas.1
        · exact (h.1.live_iff hi s).mpr (Or.inr (hh.create k s sig plan hcr hk hidx hs))

end Steps

theorem new_complete : new.Complete := by
  rintro plan k sig _ ⟨hl, _⟩
  cases hl

end Tracked

/-- In a run every plan whose hop pair has a live route is served in every state
exactly when all steps of the run are harmless to the index. -/
theorem hopLookup_complete_iff {tr : List (Op × Tracked)} (h : AllSteps Tracked.Step .new tr) :
    (∀ e ∈ tr, e.2.Complete) ↔ AllSteps (fun m op _ => m.Harmless op) .new tr := by
  have hinv := h.withInvariant (I := fun m => m.store.Inv) StoreInner.new_inv
    fun _ _ _ hi hs => hi.step hs.1
  apply forall_states_iff hinv Tracked.new_complete
  intro m op m' hc hs
  exact hs.2.1.complete_iff hs.1 hc

section Relearn

def Tracked.track (m : Tracked) : List (Op × StoreInner) → List (Op × Tracked)
  | [] => []
  | e :: tr => (e.1, ⟨e.2, m.note e.1⟩) :: Tracked.track ⟨e.2, m.note e.1⟩ tr

theorem Tracked.allSteps_track {m : Tracked} {tr : List (Op × StoreInner)}
    (h : AllSteps TemplateCache.Step m.store tr) : AllSteps Tracked.Step m (m.track tr) := by
  induction tr generalizing m with
  | nil => trivial
  | cons e tr ih => exact ⟨⟨h.1, rfl⟩, ih h.2⟩

theorem Tracked.labels_track (m : Tracked) (tr : List (Op × StoreInner)) :
    labels (m.track tr) = labels tr := by
  induction tr generalizing m with
  | nil => rfl
  | cons e tr ih => exact congrArg _ (ih _)

theorem Tracked.store_track (m : Tracked) (tr : List (Op × StoreInner)) :
    (lastState m (m.track tr)).store = lastState m.store tr := by
  induction tr generalizing m with
  | nil => rfl
  | cons e tr ih => exact ih _

/-- A route, enough others to evict it, and its hop pair again as a new route. -/
def relearnOps : List Op :=
  .insertRoute 0 default 0 0 samplePlan :: (sigsFrom 1 2000).map plainInsert ++
    (sigsFrom 2001 2000).map plainInsert ++ [.insertRoute 4001 default 0 0 samplePlan]

private theorem evicted_spec : RefillSpec rotated (fill rotated (sigsFrom 2001 2000)) 2001 1999 := by
  refine refill_spec (by omega) ?_ (by rw [rotated_spec.hotLen, routeSegCap])
  intro x hlo _
  rw [StoreInner.find_eq_none, ← Option.not_isSome_iff_eq_none, ← Option.not_isSome_iff_eq_none,
    rotated_spec.hot, rotated_spec.cold, taught_hot]
  constructor
  · rintro rfl
    exact absurd hlo (by decide)
  · rintro (⟨_, h⟩ | rfl)
    · omega
    · exact absurd hlo (by decide)

private theorem evicted_find {x : Sig} (hx : x = 0 ∨ x = 4001) :
    (fill rotated (sigsFrom 2001 2000)).find x = none := by
  rw [StoreInner.find_eq_none, ← Option.not_isSome_iff_eq_none, ← Option.not_isSome_iff_eq_none,
    evicted_spec.hot, evicted_spec.cold, rotated_spec.hot]
  rcases hx with rfl | rfl <;> decide

private theorem relearn_prefix : ∃ tr k, IsRun tr ∧
    labels tr = .insertRoute 0 default 0 0 samplePlan :: (sigsFrom 1 2000).map plainInsert ++
      (sigsFrom 2001 2000).map plainInsert ∧
    hopPairKey samplePlan = some k ∧ (finalStore tr).hopPairIndex.get k = some 0 ∧
    ¬ (finalStore tr).Live 0 ∧ (finalStore tr).find 4001 = none := by
  obtain ⟨k, hk⟩ := Option.isSome_iff_exists.mp (by decide : (hopPairKey samplePlan).isSome = true)
  refine ⟨rotatedTrace ++ fillTrace rotated (sigsFrom 2001 2000), k, ?_, ?_, hk, ?_, ?_, ?_⟩
  · refine allSteps_append.mpr ⟨isRun_rotatedTrace, ?_⟩
    rw [lastState_rotatedTrace]
    exact allSteps_fillTrace _ _
  · rw [labels_append, labels_fillTrace, rotatedTrace, labels_cons, labels_fillTrace]
  all_goals
    rw [finalStore, lastState_append, lastState_rotatedTrace, lastState_fillTrace]
  · rw [evicted_spec.index, rotated_spec.index, taught_index hk]
  · rw [StoreInner.not_live]
    exact evicted_find (Or.inl rfl)
  · exact evicted_find (Or.inr rfl)

/-- The new route is live and its pair is not served. -/
theorem relearned_pair_unserved : ∃ tr, AllSteps Tracked.Step .new tr ∧ labels tr = relearnOps ∧
    ¬ (lastState .new tr).Complete := by
  obtain ⟨tr, k, hrun, hops, hk, hidx, hdead, hfresh⟩ := relearn_prefix
  obtain ⟨m, hm⟩ : ∃ m, m = lastState Tracked.new (Tracked.new.track tr) := ⟨_, rfl⟩
  have hstore : m.store = finalStore tr := by rw [hm]; exact Tracked.store_track _ _
  rw [← hstore] at hidx hdead hfresh
  have hi : m.store.Inv := by rw [hstore]; exact hrun.inv
  let op : Op := .insertRoute 4001 default 0 0 samplePlan
  have hstep : Tracked.Step m op ⟨insertRoute m.store 4001 default 0 0 samplePlan, m.note op⟩ :=
    ⟨.insertRoute 4001 default 0 0 samplePlan, rfl⟩
  have hcr : created m.store op = some (4001, samplePlan) := by
    rw [created, hfresh]
    rfl
  refine ⟨Tracked.new.track tr ++
    [(op, ⟨insertRoute m.store 4001 default 0 0 samplePlan, m.note op⟩)],
    allSteps_append.mpr ⟨Tracked.allSteps_track hrun, ?_, trivial⟩, ?_, ?_⟩
  · rw [← hm]
    exact hstep
  · rw [labels_append, Tracked.labels_track, hops]
    rfl
  · rw [lastState_append, ← hm]
    intro hc
    have hhas := (Tracked.has_step hi hstep k 4001).mpr (Or.inr ⟨samplePlan, hcr, hk⟩)
    obtain ⟨s, hs, hl⟩ := (Tracked.served_iff (hi.step hstep.1) hk).mp (hc samplePlan k 4001 hk hhas)
    rw [Tracked.index_step hi hstep hidx] at hs
    cases hs
    rcases (hstep.1.live_iff hi 0).mp hl with hp | ⟨hl, _⟩
    · rw [(Tracked.created_pushed hcr).1] at hp
      exact absurd (Option.some.inj hp) (by decide)
    · exact hdead hl

def twoInsertions : List (Op × StoreInner) :=
  let g := insertRoute .new 1 default 0 0 .null
  [(plainInsert 1, g), (.insertRoute 2 default 0 0 samplePlan, insertRoute g 2 default 0 0 samplePlan)]

theorem hopLookup_complete_two :
    (lastState Tracked.new (Tracked.new.track twoInsertions)).Complete := by
  have hrun : IsRun twoInsertions := ⟨.insertRoute _ _ _ _ _, .insertRoute _ _ _ _ _, trivial⟩
  have hall := (hopLookup_complete_iff (Tracked.allSteps_track hrun)).mpr (by
    refine ⟨⟨?_, ?_⟩, ⟨?_, ?_⟩, trivial⟩
    · intro _ _ _ hidx
      cases hidx
    · intro _ _ _ _ _ _ hidx
      cases hidx
    · intro _ _ _ hidx
      cases hidx
    · intro _ _ _ _ _ _ hidx
      cases hidx)
  exact hall _ (List.mem_cons_of_mem _ List.mem_cons_self)

end Relearn
end SolanaArbBot.TemplateCache
