import SolanaArbBot.Arbitrage.Pipeline
import SolanaArbBot.Lib.Runs

/-! What one step of the running bot can do, branch by branch, and its runs. -/
namespace SolanaArbBot.Arbitrage
open Lib TemplateCache

/-- The reasons for which a pair is dropped before any tier sees it. -/
def pairDrops : List Counter := [.droppedMultiHop, .droppedMergeFail]

/-- The reasons for which a worker drops an item after it took a slot for it. -/
def buildDrops : List Counter := [.txBuildFailed, .droppedAccountLocks, .txTooLarge]

/-- The branches of advance: where the thread stands, the shared state after the
step, what the thread has left to do then, and where it stands after that. -/
inductive Advance (cfg : Config) (s : Shared) : Pc → Shared → List Effect → Pc → Prop where
  | noQuote1 {mint amount onlyDirect} :
    Advance cfg s (.awaitQuote1 mint amount onlyDirect) s (countToken cfg mint .routeFail 1) .done
  | quote1 {mint amount onlyDirect quote1} (h : (tokenAmount quote1).isSome) :
    Advance cfg s (.awaitQuote1 mint amount onlyDirect) s []
      (.awaitQuote2 mint amount onlyDirect quote1)
  | noQuote2 {mint amount onlyDirect quote1} :
    Advance cfg s (.awaitQuote2 mint amount onlyDirect quote1) s
      (countToken cfg mint .routeFail 1) .done
  | notProfitable {mint amount onlyDirect quote1 quote2}
    (h : judge cfg.forbiddenDexes amount cfg.minProfitLamports onlyDirect quote1 quote2 = .notProfitable) :
    Advance cfg s (.awaitQuote2 mint amount onlyDirect quote1) s
      (countQuoted cfg mint ++ countToken cfg mint .notProfitable 1) .done
  | samePool {mint amount onlyDirect quote1 quote2}
    (h : judge cfg.forbiddenDexes amount cfg.minProfitLamports onlyDirect quote1 quote2 = .samePool) :
    Advance cfg s (.awaitQuote2 mint amount onlyDirect quote1) s
      (countQuoted cfg mint ++ .count .droppedSamePool 1 :: countToken cfg mint .notProfitable 1)
      .done
  | profitable {mint amount onlyDirect quote1 quote2 pair}
    (h : judge cfg.forbiddenDexes amount cfg.minProfitLamports onlyDirect quote1 quote2 = .profitable pair) :
    Advance cfg s (.awaitQuote2 mint amount onlyDirect quote1) s
      (countQuoted cfg mint ++ countToken cfg mint .profitable 1) (.passed pair)
  | passed {pair} :
    Advance cfg s (.passed pair) { s with metrics := s.metrics.fetchAdd .metisRespOk 1 } []
      (.handle pair)
  | pairDropped {pair reason} (h : reason ∈ pairDrops) :
    Advance cfg s (.handle pair) s (countDropped reason) .done
  | tryRoute {pair merged} (h : mergeQuotes pair.quote1 pair.quote2 (onChainFloor pair.amount) = .ok merged)
    (hs : cfg.serveRoute) :
    Advance cfg s (.handle pair) s [] (.look .first ⟨pair, merged⟩ (Job.sig ⟨pair, merged⟩))
  | skipRoute {pair merged} (h : mergeQuotes pair.quote1 pair.quote2 (onChainFloor pair.amount) = .ok merged)
    (hs : cfg.serveRoute = false) : Advance cfg s (.handle pair) s [] (.checkHops ⟨pair, merged⟩)
  | inCold {tier job sig} (h : getRouteRead s.store sig = .inCold) :
    Advance cfg s (.look tier job sig) s [] (.promote tier job sig)
  | lookMissed {tier job sig} : Advance cfg s (.look tier job sig) s [] (tier.next job)
  | lookServed {tier job sig t ix} (h : getRouteRead s.store sig = .answer (some t))
    (hix : TemplateCache.serveRoute t job.pair.amount (onChainFloor job.pair.amount) = .ok (some ix)) :
    Advance cfg s (.look tier job sig) s (serveFromRam (tier.hitSig sig t) ix job.pair.hopCount) .done
  | promoteMissed {tier job sig} :
    Advance cfg s (.promote tier job sig) { s with store := (getRouteWrite s.store sig).1 } []
      (tier.next job)
  | promoteServed {tier job sig t ix} (h : (getRouteWrite s.store sig).2 = some t)
    (hix : TemplateCache.serveRoute t job.pair.amount (onChainFloor job.pair.amount) = .ok (some ix)) :
    Advance cfg s (.promote tier job sig) { s with store := (getRouteWrite s.store sig).1 }
      (serveFromRam (tier.hitSig sig t) ix job.pair.hopCount) .done
  | tryHops {job} (hs : cfg.serveRoute) :
    Advance cfg s (.checkHops job) s [.count .hopTemplateAllHit 1] (.hopIndex job)
  | skipHops {job} (hs : cfg.serveRoute = false) :
    Advance cfg s (.checkHops job) s [.count .hopTemplateAllHit 1] (.fallback job)
  | hopsMissing {job missing} :
    Advance cfg s (.checkHops job) s [.count .hopTemplateMissing missing] (.fallback job)
  | noHops {job} : Advance cfg s (.checkHops job) s [] (.fallback job)
  | notIndexed {job} (h : hopPairSig s.store job.merged.routePlan = none) :
    Advance cfg s (.hopIndex job) s [] (.fallback job)
  | indexed {job sig} (h : hopPairSig s.store job.merged.routePlan = some sig) :
    Advance cfg s (.hopIndex job) s [] (.look .second job sig)
  | ask {job} (h : cfg.serveFromMetis) :
    Advance cfg s (.fallback job) s [.count .metisReqSent 1] (.awaitSwapIxs job)
  | noServe {job} (h : cfg.serveFromMetis = false) :
    Advance cfg s (.fallback job) s (countDropped .droppedNoServe) .done
  | swapIxsFailed {job e fetchMs} :
    Advance cfg s (.awaitSwapIxs job) s (afterSwapIxs cfg job fetchMs (.error e)) .done
  | swapIxs {job ix fetchMs} :
    Advance cfg s (.awaitSwapIxs job) s (takeFromMetis cfg job ix fetchMs) .done
  | acquire (h : 0 < s.permits) : Advance cfg s .idle { s with permits := s.permits - 1 } [] .acquired
  | popNothing (h : s.lifo = []) : Advance cfg s .acquired s [] .idle
  | pop {item rest} (h : s.lifo = item :: rest) :
    Advance cfg s .acquired { s with lifo := rest } [.depthDown] (.popped item)
  | stale {item} (h : elapsedMs s item > cfg.queueMaxAgeMs.toNat) :
    Advance cfg s (.popped item) s (countDropped .droppedStale) .idle
  | fresh {item} (h : elapsedMs s item ≤ cfg.queueMaxAgeMs.toNat) :
    Advance cfg s (.popped item) s [] (.askJito item)
  | jitoGranted {item} (h : (s.jitoLimiter.tryAcquire s.now).2) :
    Advance cfg s (.askJito item)
      ({ s with jitoLimiter := (s.jitoLimiter.tryAcquire s.now).1 }.grant .rest) []
      (.building item false s.now)
  | jitoRefused {item} (h : (s.jitoLimiter.tryAcquire s.now).2 = false) :
    Advance cfg s (.askJito item) { s with jitoLimiter := (s.jitoLimiter.tryAcquire s.now).1 } []
      (.askGrpc item)
  | noGrpc {item} (h : s.jitoGrpcLimiter = none) :
    Advance cfg s (.askGrpc item) s (putBack item) .backoff
  | grpcGranted {item l} (h : s.jitoGrpcLimiter = some l) (hl : (l.tryAcquire s.now).2) :
    Advance cfg s (.askGrpc item)
      ({ s with jitoGrpcLimiter := some (l.tryAcquire s.now).1 }.grant .grpc) []
      (.building item true s.now)
  | grpcRefused {item l} (h : s.jitoGrpcLimiter = some l) (hl : (l.tryAcquire s.now).2 = false) :
    Advance cfg s (.askGrpc item) { s with jitoGrpcLimiter := some (l.tryAcquire s.now).1 }
      (putBack item) .backoff
  | sleep : Advance cfg s .backoff s [] (.sleeping (s.now + rateRetryBackoff))
  | wake {wake} (h : wake ≤ s.now) : Advance cfg s (.sleeping wake) s [] .idle
  | buildDropped {item useGrpc grantedAt reason} (h : reason ∈ buildDrops) :
    Advance cfg s (.building item useGrpc grantedAt) s (countDropped reason) .idle
  | built {item useGrpc grantedAt} :
    Advance cfg s (.building item useGrpc grantedAt) s [.count .calcDone 1]
      (.ready item useGrpc grantedAt)
  | submit {item useGrpc grantedAt} :
    Advance cfg s (.ready item useGrpc grantedAt) (submit cfg s item useGrpc grantedAt) []
      .awaitBundle
  | sent : Advance cfg s .awaitBundle s [.count .jitoSent 1] .idle
  | notSent : Advance cfg s .awaitBundle s (countDropped .jitoSendFailed) .idle

section Branches
variable {cfg : Config} {s s' : Shared} {pc pc' : Pc} {es : List Effect} {o : Outcome}

private theorem of_branch {n : Next} (hn : Advance cfg s pc n.1 n.2.1 n.2.2)
    (h : some n = some (s', es, pc')) : Advance cfg s pc s' es pc' := by
  cases h
  exact hn

private theorem quote1_branch {mint : String} {amount : UInt64} {onlyDirect : Bool}
    (r : Option QuoteResponse) :
    Advance cfg s (.awaitQuote1 mint amount onlyDirect) s (afterQuote1 cfg mint amount onlyDirect r).1
      (afterQuote1 cfg mint amount onlyDirect r).2 := by
  cases r with
  | none => exact .noQuote1
  | some quote1 =>
    simp only [afterQuote1]
    split
    · exact .noQuote1
    · next h => exact .quote1 (by rw [h]; rfl)

private theorem quote2_branch {mint : String} {amount : UInt64} {onlyDirect : Bool}
    {quote1 : QuoteResponse} (r : Option QuoteResponse) :
    Advance cfg s (.awaitQuote2 mint amount onlyDirect quote1) s
      (afterQuote2 cfg mint amount onlyDirect quote1 r).1
      (afterQuote2 cfg mint amount onlyDirect quote1 r).2 := by
  cases r with
  | none => exact .noQuote2
  | some quote2 =>
    simp only [afterQuote2]
    split
    · next h => exact .notProfitable h
    · next h => exact .samePool h
    · next h => exact .profitable h

private theorem handle_branch (pair : QuotePair) :
    Advance cfg s (.handle pair) s (handlePair cfg pair).1 (handlePair cfg pair).2 := by
  unfold handlePair
  split
  · exact .pairDropped List.mem_cons_self
  · split
    · exact .pairDropped (List.mem_cons_of_mem _ List.mem_cons_self)
    · next h =>
      dsimp only
      split
      · next hs => exact .tryRoute h hs
      · next hs => exact .skipRoute h (Bool.not_eq_true _ ▸ hs)

/-- A lookup that answers serves the job, or passes it on. -/
theorem serveFound_cases {tier : Tier} {job : Job} {sig : Sig} {r : Option RouteTemplate}
    (h : serveFound tier job sig r = some (es, pc')) :
    (es = [] ∧ pc' = tier.next job) ∨
      ∃ t ix, r = some t ∧
        TemplateCache.serveRoute t job.pair.amount (onChainFloor job.pair.amount) = .ok (some ix) ∧
        es = serveFromRam (tier.hitSig sig t) ix job.pair.hopCount ∧ pc' = .done := by
  cases r with
  | none =>
    cases h
    exact Or.inl ⟨rfl, rfl⟩
  | some t =>
    simp only [serveFound] at h
    split at h
    · cases h
    · cases h
      exact Or.inl ⟨rfl, rfl⟩
    · next ix hix =>
      cases h
      exact Or.inr ⟨t, ix, rfl, hix, rfl, rfl⟩

private theorem serve_branch {s₁ : Shared} {tier : Tier} {job : Job} {sig : Sig}
    {r : Option RouteTemplate} (hmissed : Advance cfg s pc s₁ [] (tier.next job))
    (hserved : ∀ t ix, r = some t →
      TemplateCache.serveRoute t job.pair.amount (onChainFloor job.pair.amount) = .ok (some ix) →
      Advance cfg s pc s₁ (serveFromRam (tier.hitSig sig t) ix job.pair.hopCount) .done)
    (h : (serveFound tier job sig r).map (fun n => (s₁, n)) = some (s', es, pc')) :
    Advance cfg s pc s' es pc' := by
  obtain ⟨n, hn, he⟩ := Option.map_eq_some_iff.mp h
  cases he
  rcases serveFound_cases hn with ⟨rfl, rfl⟩ | ⟨t, ix, hr, hix, rfl, rfl⟩
  · exact hmissed
  · exact hserved t ix hr hix

private theorem hops_branch (job : Job) :
    Advance cfg s (.checkHops job) s (checkKnownHops cfg s job).1 (checkKnownHops cfg s job).2 := by
  unfold checkKnownHops
  dsimp only
  split
  · dsimp only
    split
    · next hs => exact .tryHops hs
    · next hs => exact .skipHops (Bool.not_eq_true _ ▸ hs)
  · split
    · exact .hopsMissing
    · exact .noHops

private theorem jito_branch (item : ReadyInstruction) :
    Advance cfg s (.askJito item) (tryJito s item).1 (tryJito s item).2.1 (tryJito s item).2.2 := by
  unfold tryJito
  dsimp only
  split
  · next h => exact .jitoGranted h
  · next h => exact .jitoRefused (Bool.not_eq_true _ ▸ h)

private theorem grpc_branch (item : ReadyInstruction) :
    Advance cfg s (.askGrpc item) (tryGrpc s item).1 (tryGrpc s item).2.1 (tryGrpc s item).2.2 := by
  unfold tryGrpc
  split
  · next h => exact .noGrpc h
  · next l h =>
    dsimp only
    split
    · next hl => exact .grpcGranted h hl
    · next hl => exact .grpcRefused h (Bool.not_eq_true _ ▸ hl)

private theorem build_branch (item : ReadyInstruction) (useGrpc : Bool) (grantedAt : Int)
    (r : Option BuiltTx) :
    Advance cfg s (.building item useGrpc grantedAt) s (afterBuild item useGrpc grantedAt r).1
      (afterBuild item useGrpc grantedAt r).2 := by
  cases r with
  | none => exact .buildDropped (by decide)
  | some tx =>
    simp only [afterBuild]
    split
    · exact .buildDropped (by decide)
    · split
      · exact .buildDropped (by decide)
      · split
        · exact .buildDropped (by decide)
        · exact .built

/-- Every step of a thread is one of the branches. -/
theorem advance_cases (h : advance cfg s pc o = some (s', es, pc')) : Advance cfg s pc s' es pc' := by
  unfold advance at h
  split at h
  · exact of_branch (quote1_branch _) h
  · exact of_branch (quote2_branch _) h
  · cases h
    exact .passed
  · exact of_branch (handle_branch _) h
  · split at h
    · next hr =>
      apply serve_branch .lookMissed ?_ h
      intro t ix ht hix
      exact .lookServed (hr.trans (congrArg _ ht)) hix
    · next hr =>
      cases h
      exact .inCold hr
  · apply serve_branch .promoteMissed ?_ h
    intro t ix ht hix
    exact .promoteServed ht hix
  · exact of_branch (hops_branch _) h
  · split at h
    · next hi =>
      cases h
      exact .notIndexed hi
    · next hi =>
      cases h
      exact .indexed hi
  · split at h
    · next hs =>
      cases h
      exact .ask hs
    · next hs =>
      cases h
      exact .noServe (Bool.not_eq_true _ ▸ hs)
  · next r _ =>
    cases h
    cases r with
    | error e => exact .swapIxsFailed
    | ok ix => exact .swapIxs
  · split at h
    · next hp =>
      cases h
      exact .acquire hp
    · cases h
  · split at h
    · next hl =>
      cases h
      exact .popNothing hl
    · next hl =>
      cases h
      exact .pop hl
  · unfold checkAge at h
    split at h
    · next ha =>
      cases h
      exact .stale ha
    · next ha =>
      cases h
      exact .fresh (not_lt.mp ha)
  · exact of_branch (jito_branch _) h
  · exact of_branch (grpc_branch _) h
  · cases h
    exact .sleep
  · split at h
    · next hw =>
      cases h
      exact .wake hw
    · cases h
  · exact of_branch (build_branch _ _ _ _) h
  · cases h
    exact .submit
  · next ok =>
    cases h
    cases ok with
    | true => exact .sent
    | false => exact .notSent
  · cases h

end Branches

inductive Moves (cfg : Config) (p : State) : Action → State → Prop where
  | tick {elapsed} :
    Moves cfg p (.tick elapsed) { p with shared := { p.shared with now := p.shared.now + elapsed } }
  | check {mint amount onlyDirect} :
    Moves cfg p (.check mint amount onlyDirect) (p.spawn (quoteCheck cfg mint amount onlyDirect))
  | effect {i o e es pc} (h : p.threads[i]? = some ⟨e :: es, pc⟩) :
    Moves cfg p (.act i o) (p.update i (e.run p.shared) ⟨es, pc⟩)
  | advance {i o pc s' es pc'} (h : p.threads[i]? = some ⟨[], pc⟩)
    (ha : Advance cfg p.shared pc s' es pc') :
    Moves cfg p (.act i o) (p.update i s' ⟨es, pc'⟩)

theorem step_cases {cfg : Config} {p p' : State} {a : Action} (h : step cfg p a = some p') :
    Moves cfg p a p' := by
  cases a with
  | tick elapsed =>
    cases h
    exact .tick
  | check mint amount onlyDirect =>
    cases h
    exact .check
  | act i o =>
    simp only [step] at h
    split at h
    · cases h
    · next t ht =>
      obtain ⟨todo, pc⟩ := t
      split at h
      · next htodo =>
        cases h
        subst htodo
        exact .effect ht
      · next htodo =>
        obtain ⟨⟨s', es, pc'⟩, ha, he⟩ := Option.map_eq_some_iff.mp h
        cases he
        subst htodo
        exact .advance ht (advance_cases ha)

/-- A thread's step is its next operation, or what it decides on with what it waited for. -/
theorem act_cases {cfg : Config} {p p' : State} {i : Nat} {o : Outcome}
    (h : step cfg p (.act i o) = some p') :
    (∃ e es pc, p.threads[i]? = some ⟨e :: es, pc⟩ ∧ p' = p.update i (e.run p.shared) ⟨es, pc⟩) ∨
      ∃ pc s' es pc', p.threads[i]? = some ⟨[], pc⟩ ∧
        advance cfg p.shared pc o = some (s', es, pc') ∧ p' = p.update i s' ⟨es, pc'⟩ := by
  simp only [step] at h
  split at h
  · cases h
  · next t ht =>
    obtain ⟨todo, pc⟩ := t
    cases todo with
    | cons e es =>
      cases h
      exact Or.inl ⟨e, es, pc, ht, rfl⟩
    | nil =>
      obtain ⟨⟨s', es, pc'⟩, ha, he⟩ := Option.map_eq_some_iff.mp h
      cases he
      exact Or.inr ⟨pc, s', es, pc', ht, ha, rfl⟩

/-- What a check starts with, and what operations and branches keep, holds of all threads. -/
theorem Moves.forall_threads {cfg : Config} {p p' : State} {a : Action} {Q : Thread → Prop}
    (h : Moves cfg p a p') (hp : ∀ t ∈ p.threads, Q t)
    (hcheck : ∀ mint amount onlyDirect, Q (quoteCheck cfg mint amount onlyDirect))
    (heffect : ∀ e es pc, Q ⟨e :: es, pc⟩ → Q ⟨es, pc⟩)
    (hadvance : ∀ s pc s' es pc', Advance cfg s pc s' es pc' → Q ⟨[], pc⟩ → Q ⟨es, pc'⟩) :
    ∀ t ∈ p'.threads, Q t := by
  cases h with
  | tick => exact hp
  | check =>
    intro t ht
    rcases List.mem_append.mp ht with ht | ht
    · exact hp t ht
    · rw [List.mem_singleton.mp ht]
      exact hcheck _ _ _
  | effect hi =>
    intro t ht
    rcases Pool.mem_set ht with rfl | ht
    · exact heffect _ _ _ (hp _ (List.mem_of_getElem? hi))
    · exact hp t ht
  | advance hi ha =>
    intro t ht
    rcases Pool.mem_set ht with rfl | ht
    · exact hadvance _ _ _ _ _ ha (hp _ (List.mem_of_getElem? hi))
    · exact hp t ht

/-- What no operation and no branch raises, no step of the process raises. -/
theorem Moves.total_le {M : Type} [AddCommMonoid M] [PartialOrder M] [IsOrderedCancelAddMonoid M]
    {cfg : Config} {p p' : State} {a : Action} {f : Shared → M} {w : Thread → M} (h : Moves cfg p a p')
    (htick : ∀ s now, f { s with now := now } = f s)
    (hcheck : ∀ mint amount onlyDirect, w (quoteCheck cfg mint amount onlyDirect) = 0)
    (heffect : ∀ s e es pc, f (e.run s) + w ⟨es, pc⟩ ≤ f s + w ⟨e :: es, pc⟩)
    (hadvance : ∀ pc s' es pc', ⟨[], pc⟩ ∈ p.threads → Advance cfg p.shared pc s' es pc' →
      f s' + w ⟨es, pc'⟩ ≤ f p.shared + w ⟨[], pc⟩) :
    p'.total f w ≤ p.total f w := by
  cases h with
  | tick =>
    rw [Pool.total, htick]
    rfl
  | check => rw [Pool.total_spawn, hcheck, add_zero]
  | effect hi => exact Pool.total_update_le hi (heffect _ _ _ _)
  | advance hi ha => exact Pool.total_update_le hi (hadvance _ _ _ _ (List.mem_of_getElem? hi) ha)

def IsRun (cfg : Config) (p : State) (tr : List (Action × State)) : Prop :=
  AllSteps (fun p a p' => step cfg p a = some p') p tr

def Reachable (cfg : Config) (p : State) : Prop :=
  ∃ store now tr, IsRun cfg (start cfg store now) tr ∧ lastState (start cfg store now) tr = p

/-- The invariant rule for the process. -/
theorem Reachable.invariant {cfg : Config} {p : State} {I : State → Prop} (h : Reachable cfg p)
    (h0 : ∀ store now, I (start cfg store now)) (hs : ∀ p a p', I p → Moves cfg p a p' → I p') :
    I p := by
  obtain ⟨store, now, tr, hr, rfl⟩ := h
  exact AllSteps.invariant hr (h0 store now) fun p a p' hp ha => hs p a p' hp (step_cases ha)

/-- Take the actions in turn, up to the first that is not possible. -/
def trace (cfg : Config) (p : State) : List Action → List (Action × State)
  | [] => []
  | a :: as =>
    match step cfg p a with
    | none => []
    | some p' => (a, p') :: trace cfg p' as

theorem trace_isRun (cfg : Config) (p : State) (as : List Action) : IsRun cfg p (trace cfg p as) := by
  induction as generalizing p with
  | nil => trivial
  | cons a as ih =>
    unfold trace
    split
    · trivial
    · next p' h => exact ⟨h, ih p'⟩

theorem labels_trace_subset (cfg : Config) (p : State) (as : List Action) :
    labels (trace cfg p as) ⊆ as := by
  induction as generalizing p with
  | nil => exact List.Subset.refl _
  | cons a as ih =>
    unfold trace
    split
    · exact List.nil_subset _
    · next p' _ => exact List.cons_subset_cons a (ih p')

def sampleConfig : Config where
  calcWorkers := 2
  queueMaxAgeMs := 10000
  minProfitLamports := 0
  serveRoute := false
  serveFromMetis := true
  saveNew := false
  tokenMints := []
  maxBundlesPerSecond := 1
  grpcMaxBundlesPerSecond := none

def sampleQuote (outAmount : String) : QuoteResponse where
  inputMint := "in"
  inAmount := "1"
  outputMint := "out"
  outAmount := outAmount
  otherAmountThreshold := outAmount
  swapMode := "ExactIn"
  priceImpactPct := "0"
  routePlan := .array []
  contextSlot := none
  instructionVersion := none
  extra := []

/-- A check that ends up in the queue. -/
def sampleTrade (thread : Nat) : List Action :=
  let act := Action.act thread
  [.check "out" 1 false, act .go, act (.quote (some (sampleQuote "5"))),
    act (.quote (some (sampleQuote "9")))] ++ List.replicate 7 (act .go) ++
    [act (.swapIxs (.ok default) 0)] ++ List.replicate 8 (act .go)

def sampleAcquire (worker : Nat) : List Action := List.replicate 5 (.act worker .go)

def sampleSend (worker : Nat) : List Action :=
  let act := Action.act worker
  [act (.built (some ⟨1, some 1⟩)), act .go, act .go, act (.bundle true), act .go]

def sampleTrace (as : List Action) : List (Action × State) :=
  trace sampleConfig (start sampleConfig .new 0) as

def sampleState (as : List Action) : State := lastState (start sampleConfig .new 0) (sampleTrace as)

theorem sampleState_reachable (as : List Action) : Reachable sampleConfig (sampleState as) :=
  ⟨.new, 0, sampleTrace as, trace_isRun _ _ _, rfl⟩

end SolanaArbBot.Arbitrage
