import SolanaArbBot.Arbitrage.Admission
import SolanaArbBot.TemplateCache.HopLookup
import SolanaArbBot.TemplateCache.Serving
import SolanaArbBot.TemplateCache.Structure

/-! The template store under the running bot. Whatever the threads do, it goes through a
run of its own, so that what a thread serves from it is what Metis would have answered. -/
namespace SolanaArbBot.Arbitrage
open Lib TemplateCache

def Effect.storeOp : Effect → Option Op
  | .insertRoute sig ix a q plan => some (.insertRoute sig ix a q plan)
  | .recordHops plan slot => some (.recordHops plan slot)
  | .recordRouteHit sig => some (.recordRouteHit sig)
  | _ => none

def Job.saved (job : Job) (ix : SwapInstructionsResponse) : Op :=
  .insertRoute job.sig ix job.pair.amount (onChainFloor job.pair.amount) job.merged.routePlan

section Store
variable (ok : Op → Prop)

/-- The store is what a run of allowed operations leaves. -/
def LeftBy (g : StoreInner) : Prop :=
  ∃ tr, TemplateCache.IsRun tr ∧ finalStore tr = g ∧ ∀ op ∈ labels tr, ok op

def Pc.job : Pc → Option Job
  | .look _ job _ | .promote _ job _ => some job
  | .checkHops job | .hopIndex job | .fallback job | .awaitSwapIxs job => some job
  | _ => none

def Pc.Merged (pc : Pc) : Prop :=
  ∀ job ∈ pc.job,
    mergeQuotes job.pair.quote1 job.pair.quote2 (onChainFloor job.pair.amount) = .ok job.merged

/-- The store is left by allowed operations, and all that threads are about to do to it
are allowed. The jobs of the threads are merged from their quotes. -/
structure StoreTraced (p : State) : Prop where
  store : LeftBy ok p.shared.store
  merged : ∀ t ∈ p.threads, t.pc.Merged
  todo : ∀ t ∈ p.threads, ∀ op ∈ t.todo.filterMap Effect.storeOp, ok op

/-- The response that Metis answers a request with may be saved for every job with this
request. -/
def RepliesWell (p : State) (a : Action) : Prop :=
  ∀ i job ix fetchMs, a = .act i (.swapIxs (.ok ix) fetchMs) →
    p.threads[i]? = some ⟨[], .awaitSwapIxs job⟩ → (Pc.awaitSwapIxs job).Merged → ok (job.saved ix)

end Store

section Steps
variable {ok : Op → Prop} {cfg : Config} {p p' : State} {g : StoreInner} {s s' : Shared} {pc pc' : Pc}
  {es : List Effect} {o : Outcome}

theorem LeftBy.step {g' : StoreInner} {op : Op} (h : LeftBy ok g) (hs : Step g op g') (ho : ok op) :
    LeftBy ok g' := by
  obtain ⟨tr, hrun, rfl, hall⟩ := h
  refine ⟨tr ++ [(op, g')], allSteps_append.mpr ⟨hrun, hs, trivial⟩, lastState_append _ _ _, ?_⟩
  rw [labels_append, List.forall_mem_append]
  exact ⟨hall, List.forall_mem_cons.mpr ⟨ho, fun _ hm => absurd hm List.not_mem_nil⟩⟩

/-- An operation of a thread is one of the store, or leaves the store alone. -/
theorem LeftBy.run {e : Effect} (h : LeftBy ok s.store) (he : ∀ op ∈ e.storeOp, ok op) :
    LeftBy ok (e.run s).store := by
  cases e with
  | insertRoute sig ix a q plan => exact h.step (.insertRoute sig ix a q plan) (he _ rfl)
  | recordHops plan slot => exact h.step (.recordHops plan slot) (he _ rfl)
  | recordRouteHit sig => exact h.step (.recordRouteHit sig) (he _ rfl)
  | _ => exact h

theorem Advance.merged (h : Advance cfg s pc s' es pc') (hm : pc.Merged) : pc'.Merged := by
  cases h with
  | tryRoute hmerge | skipRoute hmerge =>
    intro job hj
    cases hj
    exact hmerge
  | lookMissed | promoteMissed =>
    next tier job sig =>
    intro job' hj
    cases tier <;> exact hm job' hj
  | inCold | tryHops | skipHops | hopsMissing | noHops | notIndexed | indexed | ask => exact hm
  | _ =>
    intro job hj
    cases hj

/-- A branch leaves the store alone or promotes a template. -/
theorem Advance.store (h : Advance cfg s pc s' es pc') :
    s'.store = s.store ∨ ∃ sig, s'.store = (getRouteWrite s.store sig).1 := by
  cases h with
  | promoteMissed | promoteServed => exact Or.inr ⟨_, rfl⟩
  | _ => exact Or.inl rfl

private theorem storeOps_countToken (mint : String) (c : TokenCounter) (n : Nat) :
    (countToken cfg mint c n).filterMap Effect.storeOp = [] := by
  unfold countToken
  split <;> rfl

private theorem storeOps_putBack (item : ReadyInstruction) :
    (putBack item).filterMap Effect.storeOp = [] := by
  unfold putBack
  split <;> rfl

/-- Apart from what a reply of Metis brings, a thread decides on no operation of the store
but a hit. -/
private theorem Advance.storeOps (h : Advance cfg s pc s' es pc') (hpc : ∀ job, pc ≠ .awaitSwapIxs job) :
    es.filterMap Effect.storeOp = [] ∨ ∃ sig, es.filterMap Effect.storeOp = [.recordRouteHit sig] := by
  cases h with
  | lookServed | promoteServed => exact Or.inr ⟨_, rfl⟩
  | swapIxs | swapIxsFailed => exact absurd rfl (hpc _)
  | noQuote1 | noQuote2 => exact Or.inl (storeOps_countToken _ _ _)
  | notProfitable | samePool | profitable =>
    left
    simp only [countQuoted, List.filterMap_append, List.filterMap_cons, Effect.storeOp, storeOps_countToken,
      List.append_nil]
  | noGrpc | grpcRefused => exact Or.inl (storeOps_putBack _)
  | _ => exact Or.inl rfl

private theorem storeOps_takeFromMetis {job : Job} {ix : SwapInstructionsResponse} {fetchMs : Nat} {op : Op}
    (h : op ∈ (takeFromMetis cfg job ix fetchMs).filterMap Effect.storeOp) :
    op = job.saved ix ∨ op = .recordHops job.merged.routePlan job.merged.contextSlot := by
  unfold takeFromMetis saveRoute at h
  split at h
  · simp only [List.filterMap_append, List.filterMap_cons, Effect.storeOp, pushToQueue, List.filterMap_nil,
      List.nil_append, List.append_nil, List.mem_cons, List.not_mem_nil, or_false] at h
    exact h
  · cases h

end Steps

/-- Operations other than insertions do not matter. -/
def InsertsOnly (ok : Op → Prop) : Prop :=
  ∀ op, (∀ sig ix a q plan, op ≠ .insertRoute sig ix a q plan) → ok op

section Runs
variable {ok : Op → Prop} {cfg : Config} {p p' : State}

private theorem storeOps_advance {pc pc' : Pc} {o : Outcome} {i : Nat} {s' : Shared} {es : List Effect}
    (hok : InsertsOnly ok) (hr : RepliesWell ok p (.act i o)) (hi : p.threads[i]? = some ⟨[], pc⟩)
    (hm : pc.Merged) (h : advance cfg p.shared pc o = some (s', es, pc')) :
    ∀ op ∈ es.filterMap Effect.storeOp, ok op := by
  by_cases hpc : ∃ job, pc = .awaitSwapIxs job
  · obtain ⟨job, rfl⟩ := hpc
    cases o with
    | swapIxs r fetchMs =>
      cases h
      cases r with
      | error e => exact fun op hm => absurd hm List.not_mem_nil
      | ok ix =>
        intro op ho
        rcases storeOps_takeFromMetis ho with rfl | rfl
        · exact hr i job ix fetchMs rfl hi hm
        · exact hok _ fun _ _ _ _ _ => Op.noConfusion
    | _ => cases h
  · rcases (advance_cases h).storeOps fun job hj => hpc ⟨job, hj⟩ with he | ⟨sig, he⟩
    · rw [he]
      exact fun op hm => absurd hm List.not_mem_nil
    · rw [he]
      intro op hm
      rw [List.mem_singleton.mp hm]
      exact hok _ fun _ _ _ _ _ => Op.noConfusion

theorem StoreTraced.step {a : Action} (hok : InsertsOnly ok) (h : StoreTraced ok p)
    (hs : step cfg p a = some p') (hr : RepliesWell ok p a) : StoreTraced ok p' := by
  obtain ⟨hstore, hmerged, htodo⟩ := h
  have hmerged' := (step_cases hs).forall_threads (Q := fun t => t.pc.Merged) hmerged
    (fun _ _ _ _ hj => nomatch hj) (fun _ _ _ hm => hm) fun _ _ _ _ _ ha hm => ha.merged hm
  cases a with
  | tick elapsed =>
    cases hs
    exact ⟨hstore, hmerged, htodo⟩
  | check mint amount onlyDirect =>
    cases hs
    refine ⟨hstore, hmerged', ?_⟩
    intro t ht
    rcases List.mem_append.mp ht with ht | ht
    · exact htodo t ht
    · rw [List.mem_singleton.mp ht]
      have hnone : (quoteCheck cfg mint amount onlyDirect).todo.filterMap Effect.storeOp = [] :=
        storeOps_countToken _ _ _
      rw [hnone]
      exact fun op hm => absurd hm List.not_mem_nil
  | act i o =>
    rcases act_cases hs with ⟨e, es, pc, hi, rfl⟩ | ⟨pc, s', es, pc', hi, ha, rfl⟩
    · have hmine := htodo _ (List.mem_of_getElem? hi)
      have he (op : Op) (ho : op ∈ e.storeOp) : ok op :=
        hmine op (List.mem_filterMap.mpr ⟨e, List.mem_cons_self, ho⟩)
      refine ⟨hstore.run he, hmerged', ?_⟩
      intro t ht
      rcases Pool.mem_set ht with rfl | ht
      · intro op ho
        obtain ⟨e', he', hop⟩ := List.mem_filterMap.mp ho
        exact hmine op (List.mem_filterMap.mpr ⟨e', List.mem_cons_of_mem _ he', hop⟩)
      · exact htodo t ht
    · refine ⟨?_, hmerged', ?_⟩
      · rcases (advance_cases ha).store with hsame | ⟨sig, hpromoted⟩
        · exact hsame ▸ hstore
        · have hread := hstore.step (.getRouteWrite sig) (hok _ fun _ _ _ _ _ => Op.noConfusion)
          exact hpromoted ▸ hread
      · intro t ht
        rcases Pool.mem_set ht with rfl | ht
        · exact storeOps_advance hok hr hi (hmerged _ (List.mem_of_getElem? hi)) ha
        · exact htodo t ht

/-- Every state of a run of the bot has a store that allowed operations leave, when the
one it started with is such a store and the replies of Metis may all be saved. -/
theorem IsRun.storeTraced {store : StoreInner} {now : Int} {tr : List (Action × State)}
    (h : IsRun cfg (start cfg store now) tr) (hok : InsertsOnly ok) (h0 : LeftBy ok store)
    (hr : AllSteps (fun p a _ => RepliesWell ok p a) (start cfg store now) tr) :
    AllSteps (fun p _ _ => StoreTraced ok p) (start cfg store now) tr ∧
      StoreTraced ok (lastState (start cfg store now) tr) := by
  have hstart : StoreTraced ok (start cfg store now) := by
    refine ⟨h0, fun t ht => ?_, fun t ht => ?_⟩
    · rw [List.eq_of_mem_replicate ht]
      exact fun job hj => nomatch hj
    · rw [List.eq_of_mem_replicate ht]
      exact fun op hm => absurd hm List.not_mem_nil
  have hboth := AllSteps.and h hr
  have hstep : ∀ p a p', StoreTraced ok p → step cfg p a = some p' ∧ RepliesWell ok p a →
      StoreTraced ok p' := fun _ _ _ hi hs => hi.step hok hs.1 hs.2
  exact ⟨(hboth.withInvariant hstart hstep).mono fun _ _ _ hs => hs.1, hboth.invariant hstart hstep⟩

end Runs

section Sources
variable (p₀ : State) (tr : List (Action × State))

/-- Metis answered so when a thread asked for instructions for a route with the signature
and for the amount. -/
def RepliedFor (sig : Sig) (amount : UInt64) (ix : SwapInstructionsResponse) : Prop :=
  SomeStep (fun p a _ => ∃ i job fetchMs, a = .act i (.swapIxs (.ok ix) fetchMs) ∧
    p.threads[i]? = some ⟨[], .awaitSwapIxs job⟩ ∧ job.sig = sig ∧ job.pair.amount = amount) p₀ tr

def InsertsReply (op : Op) : Prop :=
  ∀ sig ix a q plan, op = .insertRoute sig ix a q plan → RepliedFor p₀ tr sig a ix

end Sources

/-- All that a bot has stored since it started empty is what Metis replied to its threads,
under the signatures and the amounts that these asked for. -/
theorem templates_sourced {cfg : Config} {now : Int} {tr : List (Action × State)}
    (h : IsRun cfg (start cfg .new now) tr) {sig : Sig} {t : RouteTemplate}
    (hf : (lastState (start cfg .new now) tr).shared.store.find sig = some t) :
    RepliedFor (start cfg .new now) tr sig t.templateInAmount t.swapIxs ∧
      ∀ amount ix, t.amountVariants.get amount = some ix →
        RepliedFor (start cfg .new now) tr sig amount ix := by
  have hinserts : InsertsOnly (InsertsReply (start cfg .new now) tr) :=
    fun _ hop sig ix a q plan he => absurd he (hop sig ix a q plan)
  have hempty : LeftBy (InsertsReply (start cfg .new now) tr) .new :=
    ⟨[], trivial, rfl, fun _ hm => absurd hm List.not_mem_nil⟩
  have hreplies : AllSteps (fun p a _ => RepliesWell (InsertsReply (start cfg .new now) tr) p a)
      (start cfg .new now) tr := by
    refine (allSteps_someStep _ _).mono ?_
    intro p a p' hsome i job ix fetchMs ha hi _ sig ix' a' q plan he
    cases he
    exact hsome _ ⟨i, job, fetchMs, ha, hi, rfl, rfl⟩
  obtain ⟨ops, hrun, hfinal, hall⟩ := (h.storeTraced hinserts hempty hreplies).2.store
  have hprov := hrun.provenance (hfinal ▸ hf)
  refine ⟨?_, fun amount ix hv => ?_⟩
  · obtain ⟨plan, hm⟩ := hprov.base
    exact hall _ hm _ _ _ _ _ rfl
  · obtain ⟨q, plan, hm⟩ := hprov.variant hv
    exact hall _ hm _ _ _ _ _ rfl

def savingConfig : Config := { sampleConfig with saveNew := true }

/-- A trade whose response is saved, and queued. -/
theorem templates_sourced_saved : ∃ t : RouteTemplate,
    RepliedFor (start savingConfig .new 0) (trace savingConfig (start savingConfig .new 0) (sampleTrade 2))
      (routeSig (.array [])) t.templateInAmount t.swapIxs := by
  have hsome : ((lastState (start savingConfig .new 0)
      (trace savingConfig (start savingConfig .new 0) (sampleTrade 2))).shared.store.find
        (routeSig (.array []))).isSome := by decide +kernel
  obtain ⟨t, ht⟩ := Option.isSome_iff_exists.mp hsome
  exact ⟨t, (templates_sourced (trace_isRun _ _ _) ht).1⟩

/-- The insertion saves, under the signature of its plan, what Metis answers for the plan and
for the amount. -/
def SavedAnswer (shape : Value → RouteShape) (op : Op) : Prop :=
  ∀ sig ix a q plan, op = .insertRoute sig ix a q plan →
    sig = routeSig plan ∧ ix = (shape plan).response a ∧ q = onChainFloor a

/-- Metis answers a request with what the plan of the request has for the amount whose floor
the request asks for. -/
def AnswersByPlan (shape : Value → RouteShape) (p : State) (a : Action) : Prop :=
  ∀ i pc ix fetchMs merged amount, a = .act i (.swapIxs (.ok ix) fetchMs) →
    p.threads[i]? = some ⟨[], pc⟩ → pc.swapRequest = some merged →
    merged.outAmount = toString (onChainFloor amount).toNat →
      ix = (shape merged.routePlan).response amount

def SameHopPair (plan plan' : Value) : Prop :=
  ∃ pairKey, hopPairKey plan = some pairKey ∧ hopPairKey plan' = some pairKey

/-- The plans whose responses a tier may serve for the job: those with its signature, or with
that of a plan through the same pair of hops. -/
def Tier.StandsIn (job : Job) (plan : Value) : Tier → Prop
  | .first => routeSig plan = job.sig
  | .second => ∃ plan', SameHopPair plan' job.merged.routePlan ∧ routeSig plan = routeSig plan'

/-- The thread asked Metis for the job and got the instructions. -/
def FromMetis (p₀ : State) (tr : List (Action × State)) (i : Nat) (job : Job)
    (ix : SwapInstructionsResponse) : Prop :=
  SomeStep (fun p a _ => ∃ fetchMs pc, a = .act i (.swapIxs (.ok ix) fetchMs) ∧
    p.threads[i]? = some ⟨[], pc⟩ ∧ pc.swapRequest = some job.merged) p₀ tr

/-- A template whose responses are those of plans with its signature. -/
structure Kept (shape : Value → RouteShape) (sig : Sig) (t : RouteTemplate) : Prop where
  base : ∃ plan, routeSig plan = sig ∧ Faithful (shape plan) { t with amountVariants := .empty }
  variants : ∀ amount v, t.amountVariants.get amount = some v →
    ∃ plan, routeSig plan = sig ∧ v = (shape plan).response amount

section Service
variable {shape : Value → RouteShape} {cfg : Config} {store : StoreInner} {now : Int}
  {tr : List (Action × State)}

theorem Kept.hit {sig : Sig} {t : RouteTemplate} (h : Kept shape sig t) : Kept shape sig t.hit := by
  obtain ⟨plan, hsig, hbase⟩ := h.base
  exact ⟨⟨plan, hsig, hbase.base, hbase.floor, hbase.offsets, hbase.variants⟩, h.variants⟩

/-- A template serves the response of one of its plans, or nothing. -/
theorem Kept.serve {sig : Sig} {t : RouteTemplate} (h : Kept shape sig t) (amount newOut : UInt64) :
    serveRoute t amount newOut = .ok none ∨
      ∃ plan, routeSig plan = sig ∧ serveRoute t amount newOut = .ok (some ((shape plan).response amount)) := by
  cases hv : t.amountVariants.get amount with
  | some v =>
    obtain ⟨plan, hsig, rfl⟩ := h.variants amount v hv
    refine Or.inr ⟨plan, hsig, ?_⟩
    unfold serveRoute
    rw [hv]
  | none =>
    obtain ⟨plan, hsig, hbase⟩ := h.base
    have hsame : serveRoute t amount newOut = serveRoute { t with amountVariants := .empty } amount newOut := by
      unfold serveRoute
      rw [hv]
      rfl
    rw [hsame]
    exact (hbase.serve amount newOut).imp_right fun hs => ⟨plan, hsig, hs⟩

theorem savedAnswer_insertsOnly : InsertsOnly (SavedAnswer shape) :=
  fun _ h sig ix a q plan he => absurd he (h sig ix a q plan)

private theorem merged_outAmount {quote1 quote2 merged : QuoteResponse} {floor : UInt64}
    (h : mergeQuotes quote1 quote2 floor = .ok merged) : merged.outAmount = toString floor.toNat :=
  (mergeQuotes_ok h).2.2.2.1

theorem AnswersByPlan.repliesWell {p : State} {a : Action} (h : AnswersByPlan shape p a) :
    RepliesWell (SavedAnswer shape) p a := by
  intro i job ix fetchMs ha hi hm sig ix' a' q plan he
  cases he
  exact ⟨rfl, h i _ ix fetchMs _ _ ha hi rfl (merged_outAmount (hm job rfl)), rfl⟩

/-- A stored template keeps responses of plans with its signature. -/
theorem LeftBy.kept {g : StoreInner} (h : LeftBy (SavedAnswer shape) g) {sig : Sig}
    {t : RouteTemplate} (hf : g.find sig = some t) : Kept shape sig t := by
  obtain ⟨tr, hrun, rfl, hall⟩ := h
  have hprov := hrun.provenance hf
  refine ⟨?_, fun amount v hv => ?_⟩
  · obtain ⟨plan, hm⟩ := hprov.base
    obtain ⟨hsig, hix, hq⟩ := hall _ hm _ _ _ _ _ rfl
    exact ⟨plan, hsig.symm, hprov.faithful hix hq⟩
  · obtain ⟨q, plan, hm⟩ := hprov.variant hv
    obtain ⟨hsig, hix, _⟩ := hall _ hm _ _ _ _ _ rfl
    exact ⟨plan, hsig.symm, hix⟩

theorem LeftBy.inv {ok : Op → Prop} {g : StoreInner} (h : LeftBy ok g) : g.Inv := by
  obtain ⟨tr, hrun, rfl, _⟩ := h
  exact hrun.inv

/-- The index leads to the signature of a plan with the same pair of hops. -/
theorem LeftBy.indexed {g : StoreInner} (h : LeftBy (SavedAnswer shape) g) {plan : Value} {sig : Sig}
    (hs : hopPairSig g plan = some sig) : ∃ plan', sig = routeSig plan' ∧ SameHopPair plan' plan := by
  obtain ⟨tr, hrun, rfl, hall⟩ := h
  obtain ⟨pairKey, hk, hget⟩ := Option.bind_eq_some_iff.mp hs
  obtain ⟨ix, a, q, plan', hm, hk'⟩ := index_entry hrun hget
  exact ⟨plan', (hall _ hm _ _ _ _ _ rfl).1, pairKey, hk', hk⟩

private theorem finds_kept {p : State} {job : Job} {tier : Tier} {sig : Sig} {pc : Pc}
    {t : RouteTemplate} (h : LeftBy (SavedAnswer shape) p.shared.store)
    (hpc : pc = .look tier job sig ∨ pc = .promote tier job sig) (ht : pc.finds p.shared = some t) :
    Kept shape sig t := by
  rcases hpc with rfl | rfl
  · cases hr : getRouteRead p.shared.store sig with
    | answer r =>
      simp only [Pc.finds, hr] at ht
      rw [(getRouteRead_answer hr).1] at ht
      exact h.kept ht
    | inCold =>
      simp only [Pc.finds, hr] at ht
      cases ht
  · rcases getRouteWrite_cases p.shared.store sig with ⟨_, he⟩ | ⟨u, hc, he⟩
    · rw [Pc.finds, he] at ht
      exact h.kept (StoreInner.Inv.find_hot ht)
    · rw [Pc.finds, he] at ht
      cases ht
      exact (h.kept (h.inv.find_cold hc)).hit

private theorem KeyedBy.standsIn {p₀ : State} {i : Nat} {job : Job} {sig : Sig} {tier : Tier}
    (h : KeyedBy p₀ tr i job sig tier)
    (hst : AllSteps (fun p _ _ => LeftBy (SavedAnswer shape) p.shared.store) p₀ tr) {plan : Value}
    (hplan : routeSig plan = sig) : tier.StandsIn job plan := by
  cases tier with
  | first => exact hplan.trans h
  | second =>
    obtain ⟨p, _, _, ⟨_, _, _, hsig⟩, hstore⟩ := SomeStep.exists_step h hst
    obtain ⟨plan', hplan', hsame⟩ := hstore.indexed hsig
    exact ⟨plan', hsame, hplan.trans hplan'⟩

private theorem ServedWith.response {p₀ : State} {i : Nat} {job : Job} {ix : SwapInstructionsResponse}
    (h : ServedWith p₀ tr i job ix)
    (hmerged : mergeQuotes job.pair.quote1 job.pair.quote2 (onChainFloor job.pair.amount) = .ok job.merged)
    (hst : AllSteps (fun p _ _ => LeftBy (SavedAnswer shape) p.shared.store) p₀ tr)
    (hm : AllSteps (fun p a _ => AnswersByPlan shape p a) p₀ tr) :
    ∃ plan, ((FromMetis p₀ tr i job ix ∧ plan = job.merged.routePlan) ∨ ∃ tier : Tier, tier.StandsIn job plan) ∧
      ix = (shape plan).response job.pair.amount := by
  cases h with
  | @fromRam tier sig hkey h =>
    obtain ⟨p, _, _, ⟨_, pc, t, _, _, hpc, ht, hix⟩, hstore⟩ := h.exists_step hst
    rcases (finds_kept hstore hpc ht).serve job.pair.amount (onChainFloor job.pair.amount) with
      hnone | ⟨plan, hplan, hsome⟩
    · rw [hnone] at hix
      cases hix
    · rw [hsome] at hix
      cases hix
      exact ⟨plan, Or.inr ⟨tier, hkey.standsIn hst hplan⟩, rfl⟩
  | fromMetis h =>
    obtain ⟨p, _, _, ⟨fetchMs, pc, rfl, hi, hreq⟩, hans⟩ := h.exists_step hm
    refine ⟨job.merged.routePlan, Or.inl ⟨h, rfl⟩, ?_⟩
    exact hans i pc ix fetchMs _ _ rfl hi hreq (merged_outAmount hmerged)

end Service

/-- A Metis whose responses tell the shares of a split apart. -/
def splitShape (plan : Value) : RouteShape :=
  match (plan.asArray.bind List.head?).bind fun hop => hop.get "percent" with
  | some (.number (.int share)) => ⟨[UInt8.ofNat share.toNat], [], default, by simp⟩
  | _ => swapShape

/-- A store that learned the split the other way round, for another amount. -/
def learnedStore : StoreInner :=
  insertRoute .new (routeSig (splitPlan 60)) ((splitShape (splitPlan 60)).response 5) 5 (onChainFloor 5)
    (splitPlan 60)

def servingConfig : Config := { sampleConfig with serveRoute := true }

def servedTrade : List Action :=
  let act := Action.act 2
  [.check "MINT" 1 false, act .go] ++ (splitQuotes 40).map act ++ List.replicate 9 (act .go)

def servedTrace : List (Action × State) :=
  trace servingConfig (start servingConfig learnedStore 0) servedTrade

end SolanaArbBot.Arbitrage
