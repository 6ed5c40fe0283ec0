import SolanaArbBot.Arbitrage.Metrics
import SolanaArbBot.Arbitrage.Quotes
import SolanaArbBot.Arbitrage.RateLimiter
import SolanaArbBot.Lib.Pool
import SolanaArbBot.TemplateCache.Store

/-! The running bot: quote checks, the three serving tiers and the workers as
threads over the queue, the limiters and the counters. Every atomic operation on
shared state is a step of its own; what is awaited comes in as an outcome. -/
namespace SolanaArbBot.Arbitrage
open Lib TemplateCache

structure Config where
  calcWorkers : Nat
  queueMaxAgeMs : UInt64
  minProfitLamports : UInt64
  serveRoute : Bool
  serveFromMetis : Bool
  saveNew : Bool
  tokenMints : List String
  maxBundlesPerSecond : UInt32
  /-- The limit of the gRPC path; the client and its limiter come together. -/
  grpcMaxBundlesPerSecond : Option UInt32
  /-- Compiled in, and a field so that the results hold for any contents. -/
  forbiddenDexes : ForbiddenDexes := {}

/-- An item of the queue. Its number and its arrival are assigned when it enters. -/
structure ReadyInstruction where
  number : Nat
  swapIxs : SwapInstructionsResponse
  hopCount : Nat
  arrivedAt : Int
  waitedForSlot : Bool

inductive Path where
  | rest
  | grpc
  deriving DecidableEq

/-- A call of send_bundle: when its slot was granted and when it starts. -/
structure Submission where
  number : Nat
  path : Path
  grantedAt : Int
  startedAt : Int
  deriving DecidableEq

/-- What the threads share. The last three fields are kept for the record: the
next item number, the slots granted on each path and the calls of send_bundle. -/
structure Shared where
  store : StoreInner
  lifo : List ReadyInstruction
  permits : Nat
  queueDepth : Int
  metrics : Metrics
  tokens : TokenMetrics
  jitoLimiter : RateLimiter
  jitoGrpcLimiter : Option RateLimiter
  now : Int
  nextNumber : Nat
  granted : Path → List Int
  sent : List Submission

/-- One atomic operation that a thread has decided on. -/
inductive Effect where
  | count (c : Counter) (n : Nat)
  | countToken (mint : String) (c : TokenCounter) (n : Nat)
  | insertRoute (sig : Sig) (swapIxs : SwapInstructionsResponse) (inAmount quotedOut : UInt64)
      (routePlan : Value)
  | recordHops (routePlan : Value) (contextSlot : Option UInt64)
  | recordRouteHit (sig : Sig)
  | enqueue (swapIxs : SwapInstructionsResponse) (hopCount : Nat)
  | requeue (item : ReadyInstruction)
  | depthUp
  | depthDown
  | addPermit

def Effect.run (s : Shared) : Effect → Shared
  | .count c n => { s with metrics := s.metrics.fetchAdd c n }
  | .countToken mint c n => { s with tokens := s.tokens.fetchAdd mint c n }
  | .insertRoute sig ix a q plan => { s with store := TemplateCache.insertRoute s.store sig ix a q plan }
  | .recordHops plan slot => { s with store := TemplateCache.recordHops s.store plan slot }
  | .recordRouteHit sig => { s with store := TemplateCache.recordRouteHit s.store sig }
  | .enqueue ix hopCount =>
    { s with
      lifo := {
        number := s.nextNumber
        swapIxs := ix
        hopCount := hopCount
        arrivedAt := s.now
        waitedForSlot := false } :: s.lifo
      nextNumber := s.nextNumber + 1 }
  | .requeue item => { s with lifo := item :: s.lifo }
  | .depthUp => { s with queueDepth := s.queueDepth + 1 }
  | .depthDown => { s with queueDepth := s.queueDepth - 1 }
  | .addPermit => { s with permits := s.permits + 1 }

/-- An opportunity in the three tiers: the pair and its merged quote. -/
structure Job where
  pair : QuotePair
  merged : QuoteResponse

inductive Tier where
  | first
  | second

/-- Where a thread stands once its decided operations are done. -/
inductive Pc where
  | awaitQuote1 (mint : String) (amount : UInt64) (onlyDirect : Bool)
  | awaitQuote2 (mint : String) (amount : UInt64) (onlyDirect : Bool) (quote1 : QuoteResponse)
  | passed (pair : QuotePair)
  | handle (pair : QuotePair)
  | look (tier : Tier) (job : Job) (sig : Sig)
  | promote (tier : Tier) (job : Job) (sig : Sig)
  | checkHops (job : Job)
  | hopIndex (job : Job)
  | fallback (job : Job)
  | awaitSwapIxs (job : Job)
  | done
  | idle
  | acquired
  | popped (item : ReadyInstruction)
  | askJito (item : ReadyInstruction)
  | askGrpc (item : ReadyInstruction)
  | backoff
  | sleeping (wake : Int)
  | building (item : ReadyInstruction) (useGrpc : Bool) (grantedAt : Int)
  | ready (item : ReadyInstruction) (useGrpc : Bool) (grantedAt : Int)
  | awaitBundle

structure Thread where
  todo : List Effect
  pc : Pc

/-- What the build of a transaction gives: the accounts it locks and its
serialized size, where it serializes. -/
structure BuiltTx where
  locks : Nat
  size : Option Nat

inductive Outcome where
  | go
  | quote (r : Option QuoteResponse)
  | swapIxs (r : Except SwapIxError SwapInstructionsResponse) (fetchMs : Nat)
  | built (r : Option BuiltTx)
  | bundle (ok : Bool)

section Effects
variable (cfg : Config)

def countToken (mint : String) (c : TokenCounter) (n : Nat) : List Effect :=
  if cfg.tokenMints.contains mint then [.countToken mint c n] else []

def countQuoted (mint : String) : List Effect :=
  .count .metisRespTotal 1 :: countToken cfg mint .routeOk 1

def countDropped (reason : Counter) : List Effect := [.count reason 1, .count .txDropped 1]

def pushToQueue (ix : SwapInstructionsResponse) (hopCount : Nat) : List Effect :=
  [.enqueue ix hopCount, .count .queueIn 1, .depthUp, .addPermit]

def serveFromRam (sig : Sig) (ix : SwapInstructionsResponse) (hopCount : Nat) : List Effect :=
  [.count .routeTemplateHit 1, .count .ixFromRam 1, .count .swapIxOk 1, .recordRouteHit sig] ++
    pushToQueue ix hopCount

def Job.sig (job : Job) : Sig := routeSig job.merged.routePlan

def saveRoute (job : Job) (ix : SwapInstructionsResponse) : List Effect :=
  if cfg.saveNew then
    [.insertRoute job.sig ix job.pair.amount (onChainFloor job.pair.amount) job.merged.routePlan,
      .recordHops job.merged.routePlan job.merged.contextSlot]
  else []

def takeFromMetis (job : Job) (ix : SwapInstructionsResponse) (fetchMs : Nat) : List Effect :=
  [.count .metisFetchMsTotal fetchMs, .count .metisFetchSamples 1, .count .swapIxOk 1,
    .count .ixFromMetis 1] ++ saveRoute cfg job ix ++ pushToQueue ix job.pair.hopCount

def swapIxErrorCounter : SwapIxError → Counter
  | .timeout => .swapIxTimeout
  | .http _ => .swapIxHttp
  | .network => .swapIxNetwork
  | .parse => .swapIxParse

/-- The item goes back to the queue; the first time is counted. -/
def putBack (item : ReadyInstruction) : List Effect :=
  (if item.waitedForSlot then [] else [.count .rateRequeued 1]) ++
    [.requeue { item with waitedForSlot := true }, .depthUp, .addPermit]

end Effects

/-- The end of a step: the shared state, what the thread does next, and where
it stands after that. -/
abbrev Next := Shared × List Effect × Pc

section Steps
variable (cfg : Config) (s : Shared)

def afterQuote1 (mint : String) (amount : UInt64) (onlyDirect : Bool) :
    Option QuoteResponse → List Effect × Pc
  | none => (countToken cfg mint .routeFail 1, .done)
  | some quote1 =>
    match tokenAmount quote1 with
    | none => (countToken cfg mint .routeFail 1, .done)
    | some _ => ([], .awaitQuote2 mint amount onlyDirect quote1)

def afterQuote2 (mint : String) (amount : UInt64) (onlyDirect : Bool) (quote1 : QuoteResponse) :
    Option QuoteResponse → List Effect × Pc
  | none => (countToken cfg mint .routeFail 1, .done)
  | some quote2 =>
    match judge cfg.forbiddenDexes amount cfg.minProfitLamports onlyDirect quote1 quote2 with
    | .notProfitable => (countQuoted cfg mint ++ countToken cfg mint .notProfitable 1, .done)
    | .samePool =>
      (countQuoted cfg mint ++ .count .droppedSamePool 1 :: countToken cfg mint .notProfitable 1, .done)
    | .profitable pair => (countQuoted cfg mint ++ countToken cfg mint .profitable 1, .passed pair)

def handlePair (pair : QuotePair) : List Effect × Pc :=
  if pair.onlyDirect && pair.hopCount != 2 then (countDropped .droppedMultiHop, .done)
  else
    match mergeQuotes pair.quote1 pair.quote2 (onChainFloor pair.amount) with
    | .error _ => (countDropped .droppedMergeFail, .done)
    | .ok merged =>
      let job : Job := ⟨pair, merged⟩
      if cfg.serveRoute then ([], .look .first job job.sig) else ([], .checkHops job)

def Tier.next (job : Job) : Tier → Pc
  | .first => .checkHops job
  | .second => .fallback job

def Tier.hitSig (sig : Sig) (t : RouteTemplate) : Tier → Sig
  | .first => sig
  | .second => t.routeSignature

/-- Serve a job from the template found, if any. A panic stops the process. -/
def serveFound (tier : Tier) (job : Job) (sig : Sig) : Option RouteTemplate → Option (List Effect × Pc)
  | none => some ([], tier.next job)
  | some t =>
    match TemplateCache.serveRoute t job.pair.amount (onChainFloor job.pair.amount) with
    | .error _ => none
    | .ok none => some ([], tier.next job)
    | .ok (some ix) => some (serveFromRam (tier.hitSig sig t) ix job.pair.hopCount, .done)

def checkKnownHops (job : Job) : List Effect × Pc :=
  let (allHit, missing) := TemplateCache.checkHops s.store job.merged.routePlan
  if allHit then
    ([.count .hopTemplateAllHit 1], if cfg.serveRoute then .hopIndex job else .fallback job)
  else if missing > 0 then ([.count .hopTemplateMissing missing], .fallback job)
  else ([], .fallback job)

def afterSwapIxs (job : Job) (fetchMs : Nat) :
    Except SwapIxError SwapInstructionsResponse → List Effect
  | .error e => [.count .swapIxFailed 1, .count .txDropped 1, .count (swapIxErrorCounter e) 1]
  | .ok ix => takeFromMetis cfg job ix fetchMs

def rateRetryBackoff : Int := 20000000

/-- Whole milliseconds since the item arrived, as a 64-bit word. -/
def elapsedMs (item : ReadyInstruction) : Int := (s.now - item.arrivedAt) / 1000000 % 2 ^ 64

def checkAge (item : ReadyInstruction) : List Effect × Pc :=
  if elapsedMs s item > cfg.queueMaxAgeMs.toNat then (countDropped .droppedStale, .idle)
  else ([], .askJito item)

def Shared.grant (s : Shared) (path : Path) : Shared :=
  { s with granted := fun p => if p = path then s.granted p ++ [s.now] else s.granted p }

def tryJito (item : ReadyInstruction) : Next :=
  let (limiter, granted) := s.jitoLimiter.tryAcquire s.now
  let s := { s with jitoLimiter := limiter }
  if granted then (s.grant .rest, [], .building item false s.now) else (s, [], .askGrpc item)

def tryGrpc (item : ReadyInstruction) : Next :=
  match s.jitoGrpcLimiter with
  | none => (s, putBack item, .backoff)
  | some l =>
    let (limiter, granted) := l.tryAcquire s.now
    let s := { s with jitoGrpcLimiter := some limiter }
    if granted then (s.grant .grpc, [], .building item true s.now) else (s, putBack item, .backoff)

def maxAccountLocks : Nat := 64

def packetSize : Nat := 1232

def afterBuild (item : ReadyInstruction) (useGrpc : Bool) (grantedAt : Int) :
    Option BuiltTx → List Effect × Pc
  | none => (countDropped .txBuildFailed, .idle)
  | some tx =>
    if tx.locks > maxAccountLocks then (countDropped .droppedAccountLocks, .idle)
    else
      match tx.size with
      | none => (countDropped .txBuildFailed, .idle)
      | some size =>
        if size > packetSize then (countDropped .txTooLarge, .idle)
        else ([.count .calcDone 1], .ready item useGrpc grantedAt)

def submitPath (useGrpc : Bool) : Path :=
  if useGrpc then
    match cfg.grpcMaxBundlesPerSecond with
    | some _ => .grpc
    | none => .rest
  else .rest

def submit (item : ReadyInstruction) (useGrpc : Bool) (grantedAt : Int) : Shared :=
  { s with sent := s.sent ++ [{
      number := item.number
      path := submitPath cfg useGrpc
      grantedAt := grantedAt
      startedAt := s.now }] }

def afterBundle : Bool → List Effect
  | true => [.count .jitoSent 1]
  | false => countDropped .jitoSendFailed

/-- The next step of a thread that has nothing left to do; none while it is
blocked, once it is done, and when the process panics. -/
def advance (pc : Pc) (o : Outcome) : Option Next :=
  match pc, o with
  | .awaitQuote1 mint amount onlyDirect, .quote r => some (s, afterQuote1 cfg mint amount onlyDirect r)
  | .awaitQuote2 mint amount onlyDirect quote1, .quote r =>
    some (s, afterQuote2 cfg mint amount onlyDirect quote1 r)
  | .passed pair, .go =>
    some ({ s with metrics := s.metrics.fetchAdd .metisRespOk 1 }, [], .handle pair)
  | .handle pair, .go => some (s, handlePair cfg pair)
  | .look tier job sig, .go =>
    match getRouteRead s.store sig with
    | .answer r => (serveFound tier job sig r).map fun n => (s, n)
    | .inCold => some (s, [], .promote tier job sig)
  | .promote tier job sig, .go =>
    let (store, r) := getRouteWrite s.store sig
    (serveFound tier job sig r).map fun n => ({ s with store := store }, n)
  | .checkHops job, .go => some (s, checkKnownHops cfg s job)
  | .hopIndex job, .go =>
    match hopPairSig s.store job.merged.routePlan with
    | none => some (s, [], .fallback job)
    | some sig => some (s, [], .look .second job sig)
  | .fallback job, .go =>
    if cfg.serveFromMetis then some (s, [.count .metisReqSent 1], .awaitSwapIxs job)
    else some (s, countDropped .droppedNoServe, .done)
  | .awaitSwapIxs job, .swapIxs r fetchMs => some (s, afterSwapIxs cfg job fetchMs r, .done)
  | .idle, .go =>
    if 0 < s.permits then some ({ s with permits := s.permits - 1 }, [], .acquired) else none
  | .acquired, .go =>
    match s.lifo with
    | [] => some (s, [], .idle)
    | item :: rest => some ({ s with lifo := rest }, [.depthDown], .popped item)
  | .popped item, .go => some (s, checkAge cfg s item)
  | .askJito item, .go => some (tryJito s item)
  | .askGrpc item, .go => some (tryGrpc s item)
  | .backoff, .go => some (s, [], .sleeping (s.now + rateRetryBackoff))
  | .sleeping wake, .go => if wake ≤ s.now then some (s, [], .idle) else none
  | .building item useGrpc grantedAt, .built r => some (s, afterBuild item useGrpc grantedAt r)
  | .ready item useGrpc grantedAt, .go =>
    some (submit cfg s item useGrpc grantedAt, [], .awaitBundle)
  | .awaitBundle, .bundle ok => some (s, afterBundle ok, .idle)
  | _, _ => none

end Steps

abbrev State := Pool Shared Thread

inductive Action where
  | tick (elapsed : Nat)
  | check (mint : String) (amount : UInt64) (onlyDirect : Bool)
  | act (thread : Nat) (o : Outcome)

def quoteCheck (cfg : Config) (mint : String) (amount : UInt64) (onlyDirect : Bool) : Thread where
  todo := .count .metisReqSent 2 :: countToken cfg mint .qSent 2
  pc := .awaitQuote1 mint amount onlyDirect

def step (cfg : Config) (p : State) : Action → Option State
  | .tick elapsed => some { p with shared := { p.shared with now := p.shared.now + elapsed } }
  | .check mint amount onlyDirect => some (p.spawn (quoteCheck cfg mint amount onlyDirect))
  | .act i o =>
    match p.threads[i]? with
    | none => none
    | some t =>
      match t.todo with
      | e :: es => some (p.update i (e.run p.shared) ⟨es, t.pc⟩)
      | [] => (advance cfg p.shared t.pc o).map fun (s, todo, pc) => p.update i s ⟨todo, pc⟩

def start (cfg : Config) (store : StoreInner) (now : Int) : State where
  shared := {
    store := store
    lifo := []
    permits := 0
    queueDepth := 0
    metrics := fun _ => 0
    tokens := fun _ _ => 0
    jitoLimiter := .new cfg.maxBundlesPerSecond
    jitoGrpcLimiter := cfg.grpcMaxBundlesPerSecond.map RateLimiter.new
    now := now
    nextNumber := 0
    granted := fun _ => []
    sent := [] }
  threads := List.replicate (max cfg.calcWorkers 1) ⟨[], .idle⟩

end SolanaArbBot.Arbitrage
