import SolanaArbBot.TemplateCache.HopIndex
import SolanaArbBot.TemplateCache.LoadedService
import SolanaArbBot.TemplateCache.Provenance
import SolanaArbBot.TemplateCache.Structure

/-! How long a route that was just used stays in the store. It is hot after that,
and a hot route outlives the next rotation. -/
namespace SolanaArbBot.TemplateCache
open Lib

/-- The template that a lookup returns or an insertion creates under the signature. -/
def touched (g : StoreInner) (sig : Sig) : Op → Option RouteTemplate
  | .getRoute s => if s = sig then (getRoute g s).2 else none
  | .insertRoute s ix a q _ =>
    if s = sig ∧ (g.find s).isNone then some (firstTemplate s ix a q) else none
  | _ => none

def otherPushes (sig : Sig) (g : StoreInner) : List (Op × StoreInner) → Nat
  | [] => 0
  | e :: tr =>
    (if (pushed g e.1).any (fun s => decide (s ≠ sig)) then 1 else 0) + otherPushes sig e.2 tr

/-- The route is hot, or cold with no more hot routes than pushes since it was hot. -/
def Retained (sig : Sig) (n : Nat) (g : StoreInner) : Prop :=
  (g.routesHot.get sig).isSome ∨ ((g.routesCold.get sig).isSome ∧ g.routesHot.len ≤ n)

/-- The template still has its base, and a response for every amount that it had one
for or that was inserted since. -/
structure Carries (sig : Sig) (ops : List Op) (t₁ t : RouteTemplate) : Prop where
  swapIxs : t.swapIxs = t₁.swapIxs
  inAmount : t.templateInAmount = t₁.templateInAmount
  quotedOut : t.templateQuotedOut = t₁.templateQuotedOut
  inOffset : t.inAmountOffset = t₁.inAmountOffset
  outOffset : t.quotedOutOffset = t₁.quotedOutOffset
  variants : ∀ amount, t.amountVariants.get amount =
    (t₁.amountVariants.get amount).or (earliestResponse sig amount ops)

section Steps
variable {g g' : StoreInner} {op : Op} {sig : Sig} {n : Nat}

theorem otherPushes_append (tr tr' : List (Op × StoreInner)) :
    otherPushes sig g (tr ++ tr') = otherPushes sig g tr + otherPushes sig (lastState g tr) tr' := by
  induction tr generalizing g with
  | nil => exact (Nat.zero_add _).symm
  | cons e tr ih =>
    rw [List.cons_append, otherPushes, ih, otherPushes, Nat.add_assoc]
    rfl

theorem otherPushes_le_length (tr : List (Op × StoreInner)) : otherPushes sig g tr ≤ tr.length := by
  induction tr generalizing g with
  | nil => exact Nat.le_refl 0
  | cons e tr ih =>
    have hstep : (if (pushed g e.1).any (fun s => decide (s ≠ sig)) then 1 else 0) ≤ 1 := by
      split <;> decide
    rw [otherPushes, List.length_cons, Nat.add_comm tr.length]
    exact Nat.add_le_add hstep ih

/-- While fewer routes than a segment holds are pushed, the route is retained. -/
theorem Retained.step (h : Retained sig n g) (hi : g.Inv) (hs : Step g op g') (hr : op ≠ .restart)
    (hn : n + otherPushes sig g [(op, g')] ≤ routeSegCap) :
    Retained sig (n + otherPushes sig g [(op, g')]) g' := by
  rw [otherPushes, otherPushes, Nat.add_zero] at hn ⊢
  rcases hs.pushes_or_keeps hi hr with ⟨s, hp, hpush⟩ | ⟨hp, hkeep⟩
  · by_cases hsig : sig = s
    · exact Or.inl ((hpush.hot sig).mpr (Or.inl hsig))
    · have hone : (pushed g op).any (fun s => decide (s ≠ sig)) = true := by
        simp [hp, Ne.symm hsig]
      rw [if_pos hone] at hn ⊢
      have hlen := hpush.len
      by_cases hf : g.Full
      · rw [if_pos hf] at hlen
        have hge : routeSegCap ≤ g.routesHot.len := hf
        rcases h with hhot | ⟨_, hle⟩
        · refine Or.inr ⟨?_, by omega⟩
          rw [hpush.cold sig hsig, if_pos hf]
          exact hhot
        · -- the segment is full, so as many pushes as it holds came before this one
          omega
      · rw [if_neg hf] at hlen
        rcases h with hhot | ⟨hcold, hle⟩
        · exact Or.inl ((hpush.hot sig).mpr (Or.inr ⟨hf, hhot⟩))
        · refine Or.inr ⟨?_, by omega⟩
          rw [hpush.cold sig hsig, if_neg hf]
          exact hcold
  · have hnone : (pushed g op).any (fun s => decide (s ≠ sig)) = false := by
      rw [hp]
      rfl
    rw [hnone, if_neg Bool.false_ne_true, Nat.add_zero]
    rcases h with hhot | ⟨hcold, hle⟩
    · exact Or.inl ((hkeep.hot sig).mpr hhot)
    · exact Or.inr ⟨(hkeep.cold sig).mpr hcold, hkeep.len ▸ hle⟩

theorem Retained.live (h : Retained sig n g) : g.Live sig := by
  rw [StoreInner.live_iff]
  exact h.imp id And.left

theorem Carries.refl (t : RouteTemplate) : Carries sig [] t t :=
  ⟨rfl, rfl, rfl, rfl, rfl, fun _ => (Option.or_none).symm⟩

theorem Carries.hit {ops : List Op} {t₁ t : RouteTemplate} (h : Carries sig ops t₁ t) :
    Carries sig ops t₁ t.hit := ⟨h.1, h.2, h.3, h.4, h.5, h.6⟩

/-- A step other than a restart keeps what a live template carries. -/
theorem Carries.step {ops : List Op} {t₁ t t' : RouteTemplate} (h : Carries sig ops t₁ t)
    (hf : g.find sig = some t) (ho : Origin g op sig t') (hr : op ≠ .restart) :
    Carries sig (ops ++ [op]) t₁ t' := by
  have hsame (hno : ¬ op.InsertsAt sig) : Carries sig (ops ++ [op]) t₁ t := by
    refine ⟨h.1, h.2, h.3, h.4, h.5, ?_⟩
    intro amount
    rw [earliestResponse_concat, responseFor_of_not_insertsAt hno, Option.or_none]
    exact h.variants amount
  cases ho with
  | kept _ hf' hno _ =>
    cases hf.symm.trans hf'
    exact hsame hno
  | hit _ hf' hno _ =>
    cases hf.symm.trans hf'
    exact (hsame hno).hit
  | learned ix a q plan _ hf' hop =>
    cases hf.symm.trans hf'
    subst hop
    refine ⟨h.1, h.2, h.3, h.4, h.5, ?_⟩
    intro amount
    rw [earliestResponse_concat, ← Option.or_assoc, ← h.variants amount]
    refine (HashMap.get_orInsert _ _ _ _).trans ?_
    simp only [Op.responseFor, true_and, eq_comm]
  | created _ _ _ _ hn _ => rw [hf] at hn; cases hn
  | reloaded _ _ hop => exact absurd hop hr

/-- A route that was just used is hot. -/
theorem touched_hot {t : RouteTemplate} (hs : Step g op g') (ht : touched g sig op = some t) :
    g'.routesHot.get sig = some t := by
  cases hs with
  | getRoute s =>
    rw [touched] at ht
    split at ht
    · next hsig =>
      subst hsig
      unfold TemplateCache.getRoute at ht ⊢
      cases hr : getRouteRead g s with
      | answer r =>
        rw [hr] at ht
        rcases (getRouteRead_answer hr).2 with hn | hhot
        · rw [hn] at ht; cases ht
        · exact hhot.symm.trans ht
      | inCold =>
        rw [hr] at ht
        dsimp only at ht ⊢
        rcases getRouteWrite_cases g s with ⟨_, he⟩ | ⟨u, _, he⟩
        · rw [he] at ht ⊢
          exact ht
        · rw [he] at ht ⊢
          rw [pushHotRoute_hot, if_pos rfl]
          exact ht
    · cases ht
  | insertRoute s ix a q plan =>
    rw [touched] at ht
    split at ht
    · next hnew =>
      obtain ⟨rfl, hn⟩ := hnew
      rw [insertRoute_new (Option.isNone_iff_eq_none.mp hn), indexHopPair_hot, pushHotRoute_hot,
        if_pos rfl]
      exact ht
    · cases ht
  | _ => cases ht

end Steps

/-- Over a run without restarts a hot route stays retrievable, with its base and all
its responses, while no more other routes are pushed than a segment holds. -/
theorem retained_run {g : StoreInner} (hi : g.Inv) {sig : Sig} {t₁ : RouteTemplate}
    (ht : g.routesHot.get sig = some t₁) {tr : List (Op × StoreInner)} (h : AllSteps Step g tr)
    (hr : .restart ∉ labels tr) (hn : otherPushes sig g tr ≤ routeSegCap) :
    Retained sig (otherPushes sig g tr) (lastState g tr) ∧
      ∃ t, (lastState g tr).find sig = some t ∧ Carries sig (labels tr) t₁ t := by
  induction tr using List.reverseRecOn with
  | nil =>
    refine ⟨Or.inl (by rw [lastState, ht]; rfl), t₁, StoreInner.Inv.find_hot ht, Carries.refl t₁⟩
  | append_singleton tr e ih =>
    obtain ⟨op, g'⟩ := e
    obtain ⟨htr, hstep, _⟩ := allSteps_append.mp h
    rw [labels_append] at hr ⊢
    rw [otherPushes_append] at hn ⊢
    rw [lastState_append]
    have hr' : op ≠ .restart := by
      rintro rfl
      exact hr (List.mem_append_right _ List.mem_cons_self)
    obtain ⟨hret, t, hf, hc⟩ := ih htr (fun hm => hr (List.mem_append_left _ hm)) (by omega)
    have hi' : (lastState g tr).Inv := htr.invariant hi fun _ _ _ hi hs => hi.step hs
    have hret' := hret.step hi' hstep hr' hn
    obtain ⟨t', hf'⟩ := Option.isSome_iff_exists.mp hret'.live
    exact ⟨hret', t', hf', hc.step hf (hstep.origin hi' hf') hr'⟩

private theorem getRoute_carries {g : StoreInner} (hi : g.Inv) {sig : Sig} {ops : List Op}
    {t₁ u : RouteTemplate} (hf : g.find sig = some u) (hc : Carries sig ops t₁ u) :
    ∃ t, (getRoute g sig).2 = some t ∧ Carries sig ops t₁ t := by
  have hlive : g.Live sig := by
    rw [StoreInner.Live, hf]
    rfl
  obtain ⟨t, ht⟩ := Option.isSome_iff_exists.mp ((getRoute_isSome hi sig).mpr hlive)
  refine ⟨t, ht, ?_⟩
  rcases getRoute_found hi ht with h | ⟨v, h, rfl⟩
  · cases hf.symm.trans h
    exact hc
  · cases hf.symm.trans h
    exact hc.hit

/-- From a loaded store on, a route that was returned or created stays retrievable
with its base and responses for as many pushes of other routes as a segment holds,
and a route is lost to such a push only. -/
theorem recently_used_retained {file : RouteFile} {g₀ : StoreInner} (hl : Loaded file g₀)
    {pre post : List (Op × StoreInner)} {op : Op} {g : StoreInner}
    (h : AllSteps Step g₀ (pre ++ (op, g) :: post)) (hr : .restart ∉ labels post) :
    (∀ sig t₁, touched (lastState g₀ pre) sig op = some t₁ →
      otherPushes sig g post ≤ routeSegCap →
      ∃ t, (getRoute (lastState g post) sig).2 = some t ∧ Carries sig (labels post) t₁ t) ∧
    ∀ sig, (getRoute (lastState g₀ pre) sig).2.isSome → (getRoute g sig).2 = none →
      ∃ s, pushed (lastState g₀ pre) op = some s ∧ s ≠ sig := by
  obtain ⟨hpre, hop, hpost⟩ := allSteps_append.mp h
  have hi := hpre.invariant hl.inv fun _ _ _ hi hs => hi.step hs
  have hi' := hi.step hop
  constructor
  · intro sig t₁ ht hn
    obtain ⟨_, u, hf, hc⟩ := retained_run hi' (touched_hot hop ht) hpost hr hn
    exact getRoute_carries (hpost.invariant hi' fun _ _ _ hi hs => hi.step hs) hf hc
  · intro sig hlive hgone
    rw [getRoute_isSome hi] at hlive
    have hdead : ¬ g.Live sig := by
      rw [← getRoute_isSome hi', hgone]
      exact Bool.false_ne_true
    rw [hop.live_iff hi, not_or, not_and_not_right] at hdead
    obtain ⟨s, hs, _, hne, _⟩ := hdead.2 hlive
    exact ⟨s, hs, Ne.symm hne⟩

/-- A store loaded from disk, after the creation of a route with a hop pair. -/
def loadedStore : StoreInner :=
  insertRoute (sampleStore (sampleRecord 0 8)) 3 default 5 6605 samplePlan

/-- Another route is created, the first one is inserted for a second amount, and hops are recorded. -/
def laterSteps : List (Op × StoreInner) :=
  let g₁ := insertRoute loadedStore 2 default 5 6605 (splitPlan 60)
  let g₂ := insertRoute g₁ 1 (sampleRecord 0 8).swapIxs 20 6620 samplePlan
  [(.insertRoute 2 default 5 6605 (splitPlan 60), g₁),
    (.insertRoute 1 (sampleRecord 0 8).swapIxs 20 6620 samplePlan, g₂),
    (.recordHops samplePlan (some 9), recordHops g₂ samplePlan (some 9))]

/-- A looked-up route from disk survives, and gains the response of the second amount. -/
theorem recently_used_retained_loaded :
    ∃ t, (getRoute (lastState loadedStore laterSteps) 1).2 = some t ∧
      Carries 1 (labels laterSteps) ((sampleRecord 0 8).toTemplate 1) t ∧
      t.amountVariants.get 20 = some (sampleRecord 0 8).swapIxs := by
  have hstay : (getRoute loadedStore 1).1 = loadedStore := by decide
  have hrun : AllSteps Step (sampleStore (sampleRecord 0 8))
      ([(.insertRoute 3 default 5 6605 samplePlan, loadedStore)] ++
        (.getRoute 1, loadedStore) :: laterSteps) :=
    ⟨.insertRoute _ _ _ _ _, hstay ▸ .getRoute 1, .insertRoute _ _ _ _ _, .insertRoute _ _ _ _ _,
      .recordHops _ _, trivial⟩
  obtain ⟨t, ht, hc⟩ := (recently_used_retained (sampleFile_loaded (sampleRecord 0 8)) hrun
    (by simp [laterSteps])).1 1 ((sampleRecord 0 8).toTemplate 1) (by decide)
    ((otherPushes_le_length _).trans (by decide))
  exact ⟨t, ht, hc, (hc.variants 20).trans (by decide)⟩

end SolanaArbBot.TemplateCache
