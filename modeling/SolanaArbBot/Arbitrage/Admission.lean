import SolanaArbBot.Arbitrage.Gates
import SolanaArbBot.Arbitrage.Steps

/-! How an item gets into the queue. Whichever tier served it, the thread that pushed
it had asked for two quotes, one for what the other brings, and tested them. -/
namespace SolanaArbBot.Arbitrage
open Lib TemplateCache

def wsolMint : String := "So11111111111111111111111111111111111111112"

/-- A request for a quote. -/
structure QuoteRequest where
  inputMint : String
  outputMint : String
  amount : Nat
  onlyDirect : Bool

def Pc.quoteRequest : Pc → Option QuoteRequest
  | .awaitQuote1 mint amount onlyDirect => some ⟨wsolMint, mint, amount.toNat, onlyDirect⟩
  | .awaitQuote2 mint _ onlyDirect quote1 =>
    (tokenAmount quote1).map fun v => ⟨mint, wsolMint, v, onlyDirect⟩
  | _ => none

def Pc.swapRequest : Pc → Option QuoteResponse
  | .awaitSwapIxs job => some job.merged
  | _ => none

def Pc.finds (s : Shared) : Pc → Option RouteTemplate
  | .look _ _ sig =>
    match getRouteRead s.store sig with
    | .answer r => r
    | .inCold => none
  | .promote _ _ sig => (getRouteWrite s.store sig).2
  | _ => none

section History
variable (p₀ : State) (tr : List (Action × State)) (i : Nat)

/-- The thread was started for a check of the amount. -/
def Checked (mint : String) (amount : UInt64) (onlyDirect : Bool) : Prop :=
  SomeStep (fun p a _ => a = .check mint amount onlyDirect ∧ p.threads.length = i) p₀ tr

/-- The thread asked for a quote and got it. -/
def Quoted (request : QuoteRequest) (quote : QuoteResponse) : Prop :=
  SomeStep (fun p a _ => a = .act i (.quote (some quote)) ∧
    ∃ pc, p.threads[i]? = some ⟨[], pc⟩ ∧ pc.quoteRequest = some request) p₀ tr

/-- The signature that a tier looks for: that of the merged plan, or the one that
the index has for the two hops of the merged plan. -/
def KeyedBy (job : Job) (sig : Sig) : Tier → Prop
  | .first => sig = routeSig job.merged.routePlan
  | .second => SomeStep (fun p a _ => ∃ o, a = .act i o ∧
      p.threads[i]? = some ⟨[], .hopIndex job⟩ ∧
      hopPairSig p.shared.store job.merged.routePlan = some sig) p₀ tr

/-- The thread served the job with the instructions: from a template that one of the
two lookups found, or with what Metis answered to a request with the merged quote. -/
inductive ServedWith (job : Job) (ix : SwapInstructionsResponse) : Prop where
  | fromRam {tier sig} (hkey : KeyedBy p₀ tr i job sig tier)
    (h : SomeStep (fun p a _ => ∃ o pc t, a = .act i o ∧ p.threads[i]? = some ⟨[], pc⟩ ∧
      (pc = .look tier job sig ∨ pc = .promote tier job sig) ∧ pc.finds p.shared = some t ∧
      TemplateCache.serveRoute t job.pair.amount (onChainFloor job.pair.amount) = .ok (some ix))
      p₀ tr)
  | fromMetis (h : SomeStep (fun p a _ => ∃ fetchMs pc, a = .act i (.swapIxs (.ok ix) fetchMs) ∧
      p.threads[i]? = some ⟨[], pc⟩ ∧ pc.swapRequest = some job.merged) p₀ tr)

def Pushed (item : ReadyInstruction) : Prop :=
  SomeStep (fun p a _ => ∃ es pc o, a = .act i o ∧
    p.threads[i]? = some ⟨.enqueue item.swapIxs item.hopCount :: es, pc⟩ ∧
    item.number = p.shared.nextNumber) p₀ tr

/-- The pair consists of what Metis answered to the thread, the way back quoted for
what the way out brings. -/
structure PairOf (mint : String) (pair : QuotePair) : Prop where
  checked : Checked p₀ tr i mint pair.amount pair.onlyDirect
  out : Quoted p₀ tr i ⟨wsolMint, mint, pair.amount.toNat, pair.onlyDirect⟩ pair.quote1
  back : ∃ v, parseUnsigned (2 ^ 64) pair.quote1.outAmount = some v ∧ 0 < v ∧
    Quoted p₀ tr i ⟨mint, wsolMint, v, pair.onlyDirect⟩ pair.quote2

def Tested (cfg : Config) (pair : QuotePair) : Prop :=
  (∃ mint, PairOf p₀ tr i mint pair) ∧
    judge cfg.forbiddenDexes pair.amount cfg.minProfitLamports pair.onlyDirect pair.quote1
      pair.quote2 = .profitable pair

/-- The job's pair passed every test, and its quotes merged. -/
structure Admitted (cfg : Config) (job : Job) : Prop where
  tested : Tested p₀ tr i cfg job.pair
  direct : (job.pair.onlyDirect && job.pair.hopCount != 2) = false
  merged : mergeQuotes job.pair.quote1 job.pair.quote2 (onChainFloor job.pair.amount) = .ok job.merged

/-- The item was pushed by a thread that had served an admitted job with it. -/
def ItemOk (cfg : Config) (item : ReadyInstruction) : Prop :=
  ∃ i job, Pushed p₀ tr i item ∧ ServedWith p₀ tr i job item.swapIxs ∧ Admitted p₀ tr i cfg job ∧
    item.hopCount = job.pair.hopCount

/-- What a thread is in the middle of has the past it needs. -/
def PcOk (cfg : Config) : Pc → Prop
  | .awaitQuote1 mint amount onlyDirect => Checked p₀ tr i mint amount onlyDirect
  | .awaitQuote2 mint amount onlyDirect quote1 => Checked p₀ tr i mint amount onlyDirect ∧
    Quoted p₀ tr i ⟨wsolMint, mint, amount.toNat, onlyDirect⟩ quote1 ∧ (tokenAmount quote1).isSome
  | .passed pair | .handle pair => Tested p₀ tr i cfg pair
  | .look tier job sig | .promote tier job sig =>
    Admitted p₀ tr i cfg job ∧ KeyedBy p₀ tr i job sig tier
  | .checkHops job | .hopIndex job | .fallback job | .awaitSwapIxs job => Admitted p₀ tr i cfg job
  | .popped item | .askJito item | .askGrpc item => ItemOk p₀ tr cfg item
  | .building item _ _ | .ready item _ _ => ItemOk p₀ tr cfg item
  | _ => True

def EffectOk (cfg : Config) : Effect → Prop
  | .enqueue ix hopCount => ∃ job, ServedWith p₀ tr i job ix ∧ Admitted p₀ tr i cfg job ∧
    hopCount = job.pair.hopCount
  | .requeue item => ItemOk p₀ tr cfg item
  | _ => True

/-- Where the thread stands and what it has left to do have their past in the run. -/
structure ThreadOk (cfg : Config) (t : Thread) : Prop where
  pc : PcOk p₀ tr i cfg t.pc
  todo : ∀ e ∈ t.todo, EffectOk p₀ tr i cfg e

end History

/-- Every thread and every queued item has its past in the run. -/
structure Traced (cfg : Config) (p₀ : State) (tr : List (Action × State)) (p : State) : Prop where
  threads : ∀ i t, p.threads[i]? = some t → ThreadOk p₀ tr i cfg t
  items : ∀ item ∈ p.shared.lifo, ItemOk p₀ tr cfg item

section Append
variable {cfg : Config} {p₀ : State} {tr : List (Action × State)} {i : Nat}
  (tr' : List (Action × State))

theorem PairOf.append {mint : String} {pair : QuotePair} (h : PairOf p₀ tr i mint pair) :
    PairOf p₀ (tr ++ tr') i mint pair := by
  obtain ⟨v, hv, hpos, hback⟩ := h.back
  exact ⟨h.checked.append tr', h.out.append tr', v, hv, hpos, hback.append tr'⟩

theorem Tested.append {pair : QuotePair} (h : Tested p₀ tr i cfg pair) :
    Tested p₀ (tr ++ tr') i cfg pair := by
  obtain ⟨⟨mint, hp⟩, hv⟩ := h
  exact ⟨⟨mint, hp.append tr'⟩, hv⟩

theorem Admitted.append {job : Job} (h : Admitted p₀ tr i cfg job) :
    Admitted p₀ (tr ++ tr') i cfg job := ⟨h.tested.append tr', h.direct, h.merged⟩

theorem KeyedBy.append {job : Job} {sig : Sig} {tier : Tier} (h : KeyedBy p₀ tr i job sig tier) :
    KeyedBy p₀ (tr ++ tr') i job sig tier := by
  cases tier with
  | first => exact h
  | second => exact SomeStep.append h tr'

theorem ServedWith.append {job : Job} {ix : SwapInstructionsResponse}
    (h : ServedWith p₀ tr i job ix) : ServedWith p₀ (tr ++ tr') i job ix := by
  cases h with
  | fromRam hkey h => exact .fromRam (hkey.append tr') (h.append tr')
  | fromMetis h => exact .fromMetis (h.append tr')

theorem ItemOk.append {item : ReadyInstruction} (h : ItemOk p₀ tr cfg item) :
    ItemOk p₀ (tr ++ tr') cfg item := by
  obtain ⟨i, job, hp, hs, ha, hc⟩ := h
  exact ⟨i, job, hp.append tr', hs.append tr', ha.append tr', hc⟩

theorem PcOk.append {pc : Pc} (h : PcOk p₀ tr i cfg pc) : PcOk p₀ (tr ++ tr') i cfg pc := by
  cases pc with
  | awaitQuote1 => exact SomeStep.append h tr'
  | awaitQuote2 => exact ⟨SomeStep.append h.1 tr', SomeStep.append h.2.1 tr', h.2.2⟩
  | passed | handle => exact Tested.append tr' h
  | look | promote => exact ⟨h.1.append tr', h.2.append tr'⟩
  | checkHops | hopIndex | fallback | awaitSwapIxs => exact Admitted.append tr' h
  | popped | askJito | askGrpc | building | ready => exact ItemOk.append tr' h
  | _ => trivial

theorem EffectOk.append {e : Effect} (h : EffectOk p₀ tr i cfg e) :
    EffectOk p₀ (tr ++ tr') i cfg e := by
  cases e with
  | enqueue =>
    obtain ⟨job, hs, ha, hc⟩ := h
    exact ⟨job, hs.append tr', ha.append tr', hc⟩
  | requeue => exact ItemOk.append tr' h
  | _ => trivial

theorem ThreadOk.append {t : Thread} (h : ThreadOk p₀ tr i cfg t) : ThreadOk p₀ (tr ++ tr') i cfg t :=
  ⟨h.pc.append tr', fun e he => (h.todo e he).append tr'⟩

end Append

section Steps
variable {cfg : Config} {p₀ : State} {tr : List (Action × State)} {i : Nat} {s' : Shared}
  {es : List Effect} {pc pc' : Pc} {o : Outcome}

private theorem effectOk_countToken (mint : String) (c : TokenCounter) (n : Nat) :
    ∀ e ∈ countToken cfg mint c n, EffectOk p₀ tr i cfg e := by
  unfold countToken
  split <;> simp [EffectOk]

private theorem effectOk_saveRoute (job : Job) (ix : SwapInstructionsResponse) :
    ∀ e ∈ saveRoute cfg job ix, EffectOk p₀ tr i cfg e := by
  unfold saveRoute
  split <;> simp [EffectOk]

private theorem effectOk_pushToQueue {job : Job} {ix : SwapInstructionsResponse}
    (hs : ServedWith p₀ tr i job ix) (ha : Admitted p₀ tr i cfg job) :
    ∀ e ∈ pushToQueue ix job.pair.hopCount, EffectOk p₀ tr i cfg e := by
  simp only [pushToQueue, List.forall_mem_cons]
  exact ⟨⟨job, hs, ha, rfl⟩, trivial, trivial, trivial, fun _ h => absurd h List.not_mem_nil⟩

private theorem effectOk_putBack {item : ReadyInstruction} (h : ItemOk p₀ tr cfg item) :
    ∀ e ∈ putBack item, EffectOk p₀ tr i cfg e := by
  intro e he
  rcases List.mem_append.mp he with he | he
  · split at he
    · cases he
    · rw [List.mem_singleton.mp he]
      trivial
  · simp only [List.mem_cons, List.not_mem_nil, or_false] at he
    rcases he with rfl | rfl | rfl
    · exact h
    · trivial
    · trivial

private theorem threadOk_served {job : Job} {sig : Sig} {ix : SwapInstructionsResponse}
    (hs : ServedWith p₀ tr i job ix) (ha : Admitted p₀ tr i cfg job) :
    ThreadOk p₀ tr i cfg ⟨serveFromRam sig ix job.pair.hopCount, .done⟩ := by
  refine ⟨trivial, ?_⟩
  intro e he
  rcases List.mem_append.mp he with he | he
  · simp only [List.mem_cons, List.not_mem_nil, or_false] at he
    rcases he with rfl | rfl | rfl | rfl <;> trivial
  · exact effectOk_pushToQueue hs ha e he

private theorem threadOk_dropped (reason : Counter) (hpc : PcOk p₀ tr i cfg pc) :
    ThreadOk p₀ tr i cfg ⟨countDropped reason, pc⟩ := by
  refine ⟨hpc, ?_⟩
  simp [countDropped, EffectOk]

private theorem pcOk_next {job : Job} (ha : Admitted p₀ tr i cfg job) (tier : Tier) :
    PcOk p₀ tr i cfg (tier.next job) := by
  cases tier <;> exact ha

/-- The thread waits for a reply whose contents its future depends on, or tests a pair. -/
private def Pc.decides : Pc → Bool
  | .awaitQuote1 _ _ _ | .awaitQuote2 _ _ _ _ | .handle _ | .awaitSwapIxs _ => true
  | _ => false

private theorem threadOk_advance (hpc : PcOk p₀ tr i cfg pc) (hn : pc.decides = false)
    (hi : (lastState p₀ tr).threads[i]? = some ⟨[], pc⟩)
    (hitems : ∀ item ∈ (lastState p₀ tr).shared.lifo, ItemOk p₀ tr cfg item)
    (h : Advance cfg (lastState p₀ tr).shared pc s' es pc') (p' : State) :
    ThreadOk p₀ (tr ++ [(.act i o, p')]) i cfg ⟨es, pc'⟩ := by
  have hpc' := hpc.append [(.act i o, p')]
  have hplain {pc : Pc} (hp : PcOk p₀ (tr ++ [(.act i o, p')]) i cfg pc) :
      ThreadOk p₀ (tr ++ [(.act i o, p')]) i cfg ⟨[], pc⟩ :=
    ⟨hp, fun _ he => absurd he List.not_mem_nil⟩
  have hcount {pc : Pc} (c : Counter) (n : Nat) (hp : PcOk p₀ (tr ++ [(.act i o, p')]) i cfg pc) :
      ThreadOk p₀ (tr ++ [(.act i o, p')]) i cfg ⟨[.count c n], pc⟩ :=
    ⟨hp, fun e he => by rw [List.mem_singleton.mp he]; trivial⟩
  cases h with
  | noQuote1 | quote1 | noQuote2 | notProfitable | samePool | profitable | pairDropped | tryRoute
  | skipRoute | swapIxsFailed | swapIxs => cases hn
  | passed => exact hplain hpc'
  | inCold => exact hplain hpc'
  | lookMissed => exact hplain (pcOk_next hpc'.1 _)
  | promoteMissed => exact hplain (pcOk_next hpc'.1 _)
  | lookServed hr hix =>
    refine threadOk_served
      (.fromRam hpc'.2 (SomeStep.last ⟨o, _, _, rfl, hi, Or.inl rfl, ?_, hix⟩)) hpc'.1
    rw [Pc.finds, hr]
  | promoteServed hr hix =>
    exact threadOk_served
      (.fromRam hpc'.2 (SomeStep.last ⟨o, _, _, rfl, hi, Or.inr rfl, hr, hix⟩)) hpc'.1
  | tryHops | skipHops | hopsMissing | ask => exact hcount _ _ hpc'
  | noHops | notIndexed => exact hplain hpc'
  | indexed hsig => exact hplain ⟨hpc', SomeStep.last ⟨o, rfl, hi, hsig⟩⟩
  | noServe | stale | notSent => exact threadOk_dropped _ trivial
  | buildDropped => exact threadOk_dropped _ trivial
  | acquire | popNothing | sleep | wake | submit => exact hplain trivial
  | pop hl =>
    refine ⟨(hitems _ ?_).append _, ?_⟩
    · rw [hl]
      exact List.mem_cons_self
    · intro e he
      rw [List.mem_singleton.mp he]
      trivial
  | fresh | jitoGranted | jitoRefused | grpcGranted => exact hplain hpc'
  | noGrpc | grpcRefused => exact ⟨trivial, effectOk_putBack hpc'⟩
  | built => exact hcount _ _ hpc'
  | sent => exact hcount _ _ trivial

private theorem tokenAmount_eq_some {quote : QuoteResponse} {v : Nat}
    (h : tokenAmount quote = some v) : parseUnsigned (2 ^ 64) quote.outAmount = some v ∧ 0 < v := by
  obtain ⟨hv, hpos⟩ := Option.filter_eq_some_iff.mp h
  exact ⟨hv, of_decide_eq_true hpos⟩

private theorem threadOk_quote1 {mint : String} {amount : UInt64} {onlyDirect : Bool}
    (hpc : PcOk p₀ tr i cfg (.awaitQuote1 mint amount onlyDirect))
    (hi : (lastState p₀ tr).threads[i]? = some ⟨[], .awaitQuote1 mint amount onlyDirect⟩)
    (h : advance cfg (lastState p₀ tr).shared (.awaitQuote1 mint amount onlyDirect) o =
      some (s', es, pc')) (p' : State) : ThreadOk p₀ (tr ++ [(.act i o, p')]) i cfg ⟨es, pc'⟩ := by
  cases o with
  | quote r =>
    have he : afterQuote1 cfg mint amount onlyDirect r = (es, pc') :=
      congrArg Prod.snd (Option.some.inj h)
    cases r with
    | none =>
      cases he
      exact ⟨trivial, effectOk_countToken mint .routeFail 1⟩
    | some quote1 =>
      rw [afterQuote1] at he
      cases hv : tokenAmount quote1 with
      | none =>
        rw [hv] at he
        cases he
        exact ⟨trivial, effectOk_countToken mint .routeFail 1⟩
      | some v =>
        rw [hv] at he
        cases he
        exact ⟨⟨SomeStep.append hpc _, SomeStep.last ⟨rfl, _, hi, rfl⟩, by rw [hv]; rfl⟩,
          fun _ he => absurd he List.not_mem_nil⟩
  | _ => cases h

private theorem effectOk_countQuoted (mint : String) :
    ∀ e ∈ countQuoted cfg mint, EffectOk p₀ tr i cfg e := by
  intro e he
  rcases List.mem_cons.mp he with rfl | he
  · trivial
  · exact effectOk_countToken _ _ _ e he

private theorem threadOk_quote2 {mint : String} {amount : UInt64} {onlyDirect : Bool}
    {quote1 : QuoteResponse} (hpc : PcOk p₀ tr i cfg (.awaitQuote2 mint amount onlyDirect quote1))
    (hi : (lastState p₀ tr).threads[i]? = some ⟨[], .awaitQuote2 mint amount onlyDirect quote1⟩)
    (h : advance cfg (lastState p₀ tr).shared (.awaitQuote2 mint amount onlyDirect quote1) o =
      some (s', es, pc')) (p' : State) : ThreadOk p₀ (tr ++ [(.act i o, p')]) i cfg ⟨es, pc'⟩ := by
  cases o with
  | quote r =>
    have he : afterQuote2 cfg mint amount onlyDirect quote1 r = (es, pc') :=
      congrArg Prod.snd (Option.some.inj h)
    cases r with
    | none =>
      cases he
      exact ⟨trivial, effectOk_countToken mint .routeFail 1⟩
    | some quote2 =>
      rw [afterQuote2] at he
      cases hj : judge cfg.forbiddenDexes amount cfg.minProfitLamports onlyDirect quote1 quote2 with
      | notProfitable =>
        rw [hj] at he
        cases he
        exact ⟨trivial, List.forall_mem_append.mpr
          ⟨effectOk_countQuoted mint, effectOk_countToken mint .notProfitable 1⟩⟩
      | samePool =>
        rw [hj] at he
        cases he
        exact ⟨trivial, List.forall_mem_append.mpr ⟨effectOk_countQuoted mint,
          List.forall_mem_cons.mpr ⟨trivial, effectOk_countToken mint .notProfitable 1⟩⟩⟩
      | profitable pair =>
        rw [hj] at he
        cases he
        obtain ⟨hchecked, hout, hsome⟩ := hpc
        obtain ⟨v, hv⟩ := Option.isSome_iff_exists.mp hsome
        obtain ⟨hparsed, hpos⟩ := tokenAmount_eq_some hv
        obtain ⟨hpair, _⟩ := judge_profitable hj
        subst hpair
        have hrequest : Pc.quoteRequest (.awaitQuote2 mint amount onlyDirect quote1) =
            some ⟨mint, wsolMint, v, onlyDirect⟩ := by
          rw [Pc.quoteRequest, hv]
          rfl
        refine ⟨⟨⟨mint, hchecked.append _, hout.append _, v, hparsed, hpos, ?_⟩, hj⟩, ?_⟩
        · exact SomeStep.last ⟨rfl, _, hi, hrequest⟩
        · exact List.forall_mem_append.mpr
            ⟨effectOk_countQuoted mint, effectOk_countToken mint .profitable 1⟩
  | _ => cases h

private theorem threadOk_handle {pair : QuotePair} (hpc : PcOk p₀ tr i cfg (.handle pair))
    (h : advance cfg (lastState p₀ tr).shared (.handle pair) o = some (s', es, pc')) (p' : State) :
    ThreadOk p₀ (tr ++ [(.act i o, p')]) i cfg ⟨es, pc'⟩ := by
  cases o with
  | go =>
    have he : handlePair cfg pair = (es, pc') := congrArg Prod.snd (Option.some.inj h)
    rw [handlePair] at he
    split at he
    · cases he
      exact threadOk_dropped .droppedMultiHop trivial
    · next hd =>
      split at he
      · cases he
        exact threadOk_dropped .droppedMergeFail trivial
      · next merged hm =>
        have hadmitted : Admitted p₀ (tr ++ [(.act i .go, p')]) i cfg ⟨pair, merged⟩ :=
          ⟨Tested.append _ hpc, Bool.not_eq_true _ ▸ hd, hm⟩
        dsimp only at he
        split at he
        · cases he
          exact ⟨⟨hadmitted, rfl⟩, fun _ he => absurd he List.not_mem_nil⟩
        · cases he
          exact ⟨hadmitted, fun _ he => absurd he List.not_mem_nil⟩
  | _ => cases h

private theorem threadOk_swapIxs {job : Job} (hpc : PcOk p₀ tr i cfg (.awaitSwapIxs job))
    (hi : (lastState p₀ tr).threads[i]? = some ⟨[], .awaitSwapIxs job⟩)
    (h : advance cfg (lastState p₀ tr).shared (.awaitSwapIxs job) o = some (s', es, pc'))
    (p' : State) : ThreadOk p₀ (tr ++ [(.act i o, p')]) i cfg ⟨es, pc'⟩ := by
  cases o with
  | swapIxs r fetchMs =>
    cases h
    cases r with
    | error e =>
      refine ⟨trivial, ?_⟩
      simp [afterSwapIxs, EffectOk]
    | ok ix =>
      refine ⟨trivial, ?_⟩
      have hserved : ServedWith p₀ (tr ++ [(.act i (.swapIxs (.ok ix) fetchMs), p')]) i job ix :=
        .fromMetis (SomeStep.last ⟨fetchMs, _, rfl, hi, rfl⟩)
      intro e he
      rw [afterSwapIxs, takeFromMetis, List.mem_append, List.mem_append] at he
      rcases he with (he | he) | he
      · simp only [List.mem_cons, List.not_mem_nil, or_false] at he
        rcases he with rfl | rfl | rfl | rfl <;> trivial
      · exact effectOk_saveRoute job ix e he
      · exact effectOk_pushToQueue hserved (Admitted.append _ hpc) e he
  | _ => cases h

private theorem threadOk_of_advance (hpc : PcOk p₀ tr i cfg pc)
    (hi : (lastState p₀ tr).threads[i]? = some ⟨[], pc⟩)
    (hitems : ∀ item ∈ (lastState p₀ tr).shared.lifo, ItemOk p₀ tr cfg item)
    (h : advance cfg (lastState p₀ tr).shared pc o = some (s', es, pc')) (p' : State) :
    ThreadOk p₀ (tr ++ [(.act i o, p')]) i cfg ⟨es, pc'⟩ := by
  cases hd : pc.decides with
  | false => exact threadOk_advance hpc hd hi hitems (advance_cases h) p'
  | true =>
    cases pc with
    | awaitQuote1 => exact threadOk_quote1 hpc hi h p'
    | awaitQuote2 => exact threadOk_quote2 hpc hi h p'
    | handle => exact threadOk_handle hpc h p'
    | awaitSwapIxs => exact threadOk_swapIxs hpc hi h p'
    | _ => cases hd

private theorem Advance.lifo_subset {s : Shared} (h : Advance cfg s pc s' es pc') :
    s'.lifo ⊆ s.lifo := by
  cases h with
  | pop hl =>
    rw [hl]
    exact List.subset_cons_self _ _
  | _ => exact List.Subset.refl _

private theorem effectOk_quoteCheck (mint : String) (amount : UInt64) (onlyDirect : Bool) :
    ∀ e ∈ (quoteCheck cfg mint amount onlyDirect).todo, EffectOk p₀ tr i cfg e :=
  List.forall_mem_cons.mpr ⟨trivial, effectOk_countToken mint .qSent 2⟩

private theorem itemOk_run {e : Effect} (he : EffectOk p₀ tr i cfg e)
    (hi : (lastState p₀ tr).threads[i]? = some ⟨e :: es, pc⟩)
    (hitems : ∀ item ∈ (lastState p₀ tr).shared.lifo, ItemOk p₀ tr cfg item) (p' : State) :
    ∀ item ∈ (e.run (lastState p₀ tr).shared).lifo, ItemOk p₀ (tr ++ [(.act i o, p')]) cfg item := by
  cases e with
  | enqueue ix hopCount =>
    obtain ⟨job, hs, ha, hc⟩ := he
    refine List.forall_mem_cons.mpr ⟨⟨i, job, ?_, hs.append _, ha.append _, hc⟩,
      fun item hm => (hitems item hm).append _⟩
    exact SomeStep.last ⟨es, pc, o, rfl, hi, rfl⟩
  | requeue item =>
    exact List.forall_mem_cons.mpr ⟨ItemOk.append _ he, fun item hm => (hitems item hm).append _⟩
  | _ => exact fun item hm => (hitems item hm).append _

private theorem Traced.step {a : Action} {p' : State} (h : Traced cfg p₀ tr (lastState p₀ tr))
    (hs : step cfg (lastState p₀ tr) a = some p') : Traced cfg p₀ (tr ++ [(a, p')]) p' := by
  have hthreads (i : Nat) (t : Thread) (ht : (lastState p₀ tr).threads[i]? = some t) :
      ThreadOk p₀ (tr ++ [(a, p')]) i cfg t := (h.threads i t ht).append _
  have hitems : ∀ item ∈ (lastState p₀ tr).shared.lifo, ItemOk p₀ (tr ++ [(a, p')]) cfg item :=
    fun item hm => (h.items item hm).append _
  cases a with
  | tick elapsed =>
    cases hs
    exact ⟨hthreads, hitems⟩
  | check mint amount onlyDirect =>
    cases hs
    refine ⟨?_, hitems⟩
    intro i t ht
    rcases Pool.getElem?_spawn ht with ⟨rfl, rfl⟩ | ht
    · exact ⟨SomeStep.last ⟨rfl, rfl⟩, effectOk_quoteCheck mint amount onlyDirect⟩
    · exact hthreads i t ht
  | act i o =>
    simp only [Arbitrage.step] at hs
    cases hi : (lastState p₀ tr).threads[i]? with
    | none => rw [hi] at hs; cases hs
    | some t =>
      obtain ⟨todo, pc⟩ := t
      have hthread := h.threads i _ hi
      rw [hi] at hs
      cases todo with
      | cons e es =>
        cases hs
        refine ⟨?_, itemOk_run (hthread.todo e List.mem_cons_self) hi h.items _⟩
        intro j t ht
        rcases Pool.getElem?_update ht with ⟨rfl, rfl⟩ | ht
        · have hthread' := hthreads j _ hi
          exact ⟨hthread'.pc, fun e' he => hthread'.todo e' (List.mem_cons_of_mem _ he)⟩
        · exact hthreads j t ht
      | nil =>
        obtain ⟨⟨s', es, pc'⟩, ha, he⟩ := Option.map_eq_some_iff.mp hs
        cases he
        refine ⟨?_, fun item hm => hitems item ((advance_cases ha).lifo_subset hm)⟩
        intro j t ht
        rcases Pool.getElem?_update ht with ⟨rfl, rfl⟩ | ht
        · exact threadOk_of_advance hthread.pc hi h.items ha _
        · exact hthreads j t ht

end Steps

/-- In every run each thread and each queued item has its past in it. -/
theorem IsRun.traced {cfg : Config} {store : StoreInner} {now : Int} {tr : List (Action × State)}
    (h : IsRun cfg (start cfg store now) tr) :
    Traced cfg (start cfg store now) tr (lastState (start cfg store now) tr) := by
  have hidle (i : Nat) (t : Thread) (ht : (start cfg store now).threads[i]? = some t) :
      t = ⟨[], .idle⟩ := List.eq_of_mem_replicate (List.mem_of_getElem? ht)
  refine AllSteps.history (P := fun tr p => Traced cfg (start cfg store now) tr p) h ?_ ?_
  · refine ⟨?_, fun item hm => absurd hm List.not_mem_nil⟩
    intro i t ht
    rw [hidle i t ht]
    exact ⟨trivial, fun e he => absurd he List.not_mem_nil⟩
  · intro tr a p' ht hs
    exact ht.step hs

/-- Whatever the configuration, the forbidden lists and the replies of Metis, an item
of the queue was pushed by a thread that served it for a gated pair of its quotes. -/
theorem queued_items_gated {cfg : Config} {store : StoreInner} {now : Int}
    {tr : List (Action × State)} (h : IsRun cfg (start cfg store now) tr)
    (hamounts : ∀ mint amount onlyDirect, .check mint amount onlyDirect ∈ labels tr →
      amount.toNat ≤ 2 ^ 64 - 1 - 6600) :
    ∀ item ∈ (lastState (start cfg store now) tr).shared.lifo, ∃ i mint job,
      Pushed (start cfg store now) tr i item ∧
      ServedWith (start cfg store now) tr i job item.swapIxs ∧
      PairOf (start cfg store now) tr i mint job.pair ∧
      Gated cfg.forbiddenDexes cfg.minProfitLamports job.pair job.merged ∧
      item.hopCount = (hops job.merged).length := by
  intro item hm
  obtain ⟨i, job, hpushed, hserved, ⟨⟨⟨mint, hpair⟩, hverdict⟩, hdirect, hmerged⟩, hc⟩ :=
    h.traced.items item hm
  obtain ⟨_, _, _, ⟨rfl, _⟩, hlabel⟩ := hpair.checked.exists_label
  have hgated := gated_of_tests hverdict hdirect hmerged (hamounts _ _ _ hlabel)
  refine ⟨i, mint, job, hpushed, hserved, hpair, hgated, ?_⟩
  have hmergedHops : hops job.merged = hops job.pair.quote1 ++ hops job.pair.quote2 := by
    rw [hops, hgated.plan]
    rfl
  rw [hc, hgated.hopCount, hmergedHops]

def routedQuote (hops : List Value) (outAmount : String) : QuoteResponse :=
  { sampleQuote outAmount with routePlan := .array hops }

/-- The two quotes of a trade whose way out is split over two pools. -/
def splitQuotes (share : Int) : List Outcome :=
  [.quote (some (routedQuote [TemplateCache.sampleHop share "pool1" "WSOL" "MINT",
      TemplateCache.sampleHop (100 - share) "pool2" "WSOL" "MINT"] "5")),
    .quote (some (routedQuote [TemplateCache.sampleHop 100 "pool3" "MINT" "WSOL"] "9"))]

def strictConfig : Config :=
  { sampleConfig with
    minProfitLamports := 3
    forbiddenDexes := ⟨["obric"], ["obriQD1zbpyLz95G5n7nJe6a4DPjpFwa5XYPoNm113y"]⟩ }

def splitTrade : List Action :=
  let act := Action.act 2
  [.check "MINT" 1 false, act .go] ++ (splitQuotes 40).map act ++ List.replicate 7 (act .go) ++
    [act (.swapIxs (.ok default) 0)] ++ List.replicate 8 (act .go)

def splitTrace : List (Action × State) := trace strictConfig (start strictConfig .new 0) splitTrade

/-- A trade over three hops that passes the gates. -/
theorem queued_items_gated_split :
    ∃ item ∈ (lastState (start strictConfig .new 0) splitTrace).shared.lifo, item.hopCount = 3 ∧
      ∃ i mint, ∃ job : Job, Pushed (start strictConfig .new 0) splitTrace i item ∧
        ServedWith (start strictConfig .new 0) splitTrace i job item.swapIxs ∧
        PairOf (start strictConfig .new 0) splitTrace i mint job.pair ∧
        Gated strictConfig.forbiddenDexes 3 job.pair job.merged ∧ item.hopCount = (hops job.merged).length := by
  have hcounts : ((lastState (start strictConfig .new 0) splitTrace).shared.lifo.map
      ReadyInstruction.hopCount) = [3] := by decide +kernel
  obtain ⟨item, hlifo, hthree⟩ := List.map_eq_singleton_iff.mp hcounts
  have hm : item ∈ (lastState (start strictConfig .new 0) splitTrace).shared.lifo :=
    hlifo ▸ List.mem_cons_self
  have hamounts (mint : String) (amount : UInt64) (onlyDirect : Bool)
      (hl : .check mint amount onlyDirect ∈ labels splitTrace) : amount.toNat ≤ 2 ^ 64 - 1 - 6600 := by
    have ha := labels_trace_subset _ _ _ hl
    simp [splitTrade, splitQuotes] at ha
    rw [ha.2.1]
    decide
  obtain ⟨i, mint, job, hpushed, hserved, hpair, hgated, hcount⟩ :=
    queued_items_gated (trace_isRun strictConfig _ splitTrade) hamounts item hm
  exact ⟨item, hm, hthree, i, mint, job, hpushed, hserved, hpair, hgated, hcount⟩

end SolanaArbBot.Arbitrage
