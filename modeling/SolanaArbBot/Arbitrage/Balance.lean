import SolanaArbBot.Arbitrage.Steps

/-! Weighted totals of the counters, the queue, the gauge, the permits and what
the threads have in hand. A total that no branch changes is the same all along a run. -/
namespace SolanaArbBot.Arbitrage
open Lib TemplateCache

def Counter.all : List Counter :=
  [.metisReqSent, .metisRespTotal, .metisRespOk, .swapIxOk, .ixFromRam, .ixFromMetis,
    .routeTemplateHit, .hopTemplateAllHit, .hopTemplateMissing, .swapIxFailed, .swapIxTimeout,
    .swapIxHttp, .swapIxNetwork, .swapIxParse, .droppedMultiHop, .droppedMergeFail, .droppedNoServe,
    .droppedSamePool, .queueIn, .droppedStale, .txBuildFailed, .txTooLarge, .droppedAccountLocks,
    .calcDone, .rateRequeued, .jitoSendFailed, .jitoSent, .txDropped, .metisFetchMsTotal,
    .metisFetchSamples]

theorem Counter.count_all (c : Counter) : Counter.all.count c = 1 := by
  cases c <;> rfl

def Metrics.weigh (weight : Counter → Int) (m : Metrics) : Int :=
  (Counter.all.map fun c => weight c * m c).sum

private theorem sum_fetchAdd (weight : Counter → Int) (m : Metrics) (c : Counter) (n : Nat)
    (l : List Counter) :
    (l.map fun c' => weight c' * m.fetchAdd c n c').sum =
      (l.map fun c' => weight c' * m c').sum + l.count c * (weight c * n) := by
  induction l with
  | nil => simp
  | cons c' l ih =>
    simp only [List.map_cons, List.sum_cons, List.count_cons, beq_iff_eq]
    rw [ih, Metrics.fetchAdd]
    by_cases hc : c' = c
    · subst hc
      simp only [if_pos]
      push_cast
      ring
    · simp only [if_neg hc]
      push_cast
      ring

theorem Metrics.weigh_fetchAdd (weight : Counter → Int) (m : Metrics) (c : Counter) (n : Nat) :
    (m.fetchAdd c n).weigh weight = m.weigh weight + weight c * n := by
  have h := sum_fetchAdd weight m c n Counter.all
  rwa [Counter.count_all, Nat.cast_one, one_mul] at h

private theorem sum_single (m : Metrics) (x : Counter) (l : List Counter) :
    (l.map fun c => (if x = c then (1 : Int) else 0) * m c).sum = l.count x * m x := by
  induction l with
  | nil => simp
  | cons c l ih =>
    rw [List.map_cons, List.sum_cons, ih, List.count_cons]
    by_cases hc : x = c
    · subst hc
      simp only [if_pos, beq_self_eq_true]
      push_cast
      ring
    · simp [hc, Ne.symm hc]

theorem Metrics.weigh_add (k k' : Counter → Int) (m : Metrics) :
    m.weigh (fun c => k c + k' c) = m.weigh k + m.weigh k' := by
  simp only [weigh, add_mul, List.sum_map_add]

theorem Metrics.weigh_count (m : Metrics) (l : List Counter) :
    m.weigh (fun c => l.count c) = (l.map m).sum := by
  induction l with
  | nil => simp [weigh]
  | cons x l ih =>
    have hx := sum_single m x Counter.all
    rw [Counter.count_all, Nat.cast_one, one_mul] at hx
    simp only [List.count_cons, beq_iff_eq, Nat.cast_add, Nat.cast_ite, Nat.cast_one, Nat.cast_zero]
    rw [weigh_add, ih, List.map_cons, List.sum_cons, Nat.cast_add, add_comm]
    exact congrArg (· + _) hx

/-- Some counters against others. -/
def tally (plus minus : List Counter) (c : Counter) : Int := plus.count c - minus.count c

theorem Metrics.weigh_tally (plus minus : List Counter) (m : Metrics) :
    m.weigh (tally plus minus) = (plus.map m).sum - (minus.map m).sum := by
  have h := weigh_add (tally plus minus) (fun c => minus.count c) m
  simp only [tally, sub_add_cancel, weigh_count] at h
  exact eq_sub_of_add_eq h.symm

/-- What one unit of each quantity counts for. -/
structure Weights where
  counter : Counter → Int
  item : Int
  depth : Int
  permit : Int
  pc : Pc → Int

namespace Weights
variable (w : Weights)

def shared (s : Shared) : Int :=
  s.metrics.weigh w.counter + w.item * s.lifo.length + w.depth * s.queueDepth + w.permit * s.permits

@[simp] def effect : Effect → Int
  | .count c n => w.counter c * n
  | .countToken _ _ _ => 0
  | .insertRoute _ _ _ _ _ => 0
  | .recordHops _ _ => 0
  | .recordRouteHit _ => 0
  | .enqueue _ _ => w.item
  | .requeue _ => w.item
  | .depthUp => w.depth
  | .depthDown => -w.depth
  | .addPermit => w.permit

def todo (es : List Effect) : Int := (es.map w.effect).sum

def thread (t : Thread) : Int := w.todo t.todo + w.pc t.pc

def total (p : State) : Int := p.total w.shared w.thread

@[simp] theorem todo_nil : w.todo [] = 0 := rfl

@[simp] theorem todo_cons (e : Effect) (es : List Effect) :
    w.todo (e :: es) = w.effect e + w.todo es := by
  simp [todo]

@[simp] theorem todo_append (es es' : List Effect) : w.todo (es ++ es') = w.todo es + w.todo es' := by
  simp [todo]

@[simp] theorem todo_countToken (cfg : Config) (mint : String) (c : TokenCounter) (n : Nat) :
    w.todo (countToken cfg mint c n) = 0 := by
  unfold countToken
  split <;> simp

@[simp] theorem todo_countQuoted (cfg : Config) (mint : String) :
    w.todo (countQuoted cfg mint) = w.counter .metisRespTotal := by
  simp [countQuoted]

@[simp] theorem todo_countDropped (reason : Counter) :
    w.todo (countDropped reason) = w.counter reason + w.counter .txDropped := by
  simp [countDropped]

@[simp] theorem todo_pushToQueue (ix : SwapInstructionsResponse) (hopCount : Nat) :
    w.todo (pushToQueue ix hopCount) = w.item + w.counter .queueIn + w.depth + w.permit := by
  simp [pushToQueue, add_assoc]

@[simp] theorem todo_serveFromRam (sig : Sig) (ix : SwapInstructionsResponse) (hopCount : Nat) :
    w.todo (serveFromRam sig ix hopCount) =
      w.counter .routeTemplateHit + w.counter .ixFromRam + w.counter .swapIxOk +
        w.todo (pushToQueue ix hopCount) := by
  simp [serveFromRam, add_assoc]

@[simp] theorem todo_saveRoute (cfg : Config) (job : Job) (ix : SwapInstructionsResponse) :
    w.todo (saveRoute cfg job ix) = 0 := by
  unfold saveRoute
  split <;> simp

@[simp] theorem todo_takeFromMetis (cfg : Config) (job : Job) (ix : SwapInstructionsResponse)
    (fetchMs : Nat) :
    w.todo (takeFromMetis cfg job ix fetchMs) =
      w.counter .metisFetchMsTotal * fetchMs + w.counter .metisFetchSamples + w.counter .swapIxOk +
        w.counter .ixFromMetis + w.todo (pushToQueue ix job.pair.hopCount) := by
  simp [takeFromMetis, add_assoc]

@[simp] theorem todo_swapIxsFailed (cfg : Config) (job : Job) (fetchMs : Nat) (e : SwapIxError) :
    w.todo (afterSwapIxs cfg job fetchMs (.error e)) =
      w.counter .swapIxFailed + w.counter .txDropped + w.counter (swapIxErrorCounter e) := by
  simp [afterSwapIxs, add_assoc]

@[simp] theorem todo_putBack (item : ReadyInstruction) :
    w.todo (putBack item) =
      (if item.waitedForSlot then 0 else w.counter .rateRequeued) + w.item + w.depth + w.permit := by
  unfold putBack
  split <;> simp [add_assoc]

/-- An operation moves its weight from the thread to the shared state. -/
theorem shared_run (e : Effect) (s : Shared) : w.shared (e.run s) = w.shared s + w.effect e := by
  cases e with
  | count c n =>
    simp only [shared, effect, Effect.run, Metrics.weigh_fetchAdd]
    ring
  | countToken | insertRoute | recordHops | recordRouteHit => simp [shared, Effect.run]
  | enqueue | requeue | depthUp | depthDown | addPermit =>
    simp only [shared, effect, Effect.run, List.length_cons]
    push_cast
    ring

section Shared
variable (s : Shared)

@[simp] theorem shared_fetchAdd (c : Counter) (n : Nat) :
    w.shared { s with metrics := s.metrics.fetchAdd c n } = w.shared s + w.counter c * n :=
  w.shared_run (.count c n) s

@[simp] theorem shared_store (store : StoreInner) : w.shared { s with store := store } = w.shared s :=
  rfl

@[simp] theorem shared_jitoLimiter (l : RateLimiter) :
    w.shared { s with jitoLimiter := l } = w.shared s := rfl

@[simp] theorem shared_jitoGrpcLimiter (l : Option RateLimiter) :
    w.shared { s with jitoGrpcLimiter := l } = w.shared s := rfl

@[simp] theorem shared_grant (path : Path) : w.shared (s.grant path) = w.shared s := rfl

@[simp] theorem shared_submit (cfg : Config) (item : ReadyInstruction) (useGrpc : Bool)
    (grantedAt : Int) : w.shared (submit cfg s item useGrpc grantedAt) = w.shared s := rfl

variable {s}

theorem shared_acquire (h : 0 < s.permits) :
    w.shared { s with permits := s.permits - 1 } = w.shared s - w.permit := by
  simp only [shared, Nat.cast_sub h]
  ring

theorem shared_pop {item : ReadyInstruction} {rest : List ReadyInstruction} (h : s.lifo = item :: rest) :
    w.shared { s with lifo := rest } = w.shared s - w.item := by
  simp only [shared, h, List.length_cons]
  push_cast
  ring

end Shared

/-- No branch changes the total, as long as a worker that pops finds an item. -/
structure Balanced (cfg : Config) : Prop where
  idle : w.pc .idle = 0
  check : ∀ mint amount onlyDirect, w.thread (quoteCheck cfg mint amount onlyDirect) = 0
  advance : ∀ {s pc s' es pc'}, Advance cfg s pc s' es pc' → (pc = .acquired → s.lifo ≠ []) →
    w.shared s' + (w.todo es + w.pc pc') = w.shared s + w.pc pc

end Weights

def FindsItems (p : State) : Prop := ⟨[], .acquired⟩ ∈ p.threads → p.shared.lifo ≠ []

namespace Weights.Balanced
variable {w : Weights} {cfg : Config} {p p' : State} {a : Action}

theorem total_start (h : w.Balanced cfg) (store : StoreInner) (now : Int) :
    w.total (start cfg store now) = 0 := by
  have hm : Metrics.weigh w.counter (fun _ => 0) = 0 := by simp [Metrics.weigh]
  have ht : w.thread ⟨[], .idle⟩ = 0 := by simp [Weights.thread, h.idle]
  simp [Weights.total, Pool.total, Weights.shared, start, hm, ht]

theorem total_step (h : w.Balanced cfg) (hs : Moves cfg p a p') (hf : FindsItems p) :
    w.total p' = w.total p := by
  cases hs with
  | tick => rfl
  | check => rw [Weights.total, Pool.total_spawn, h.check, add_zero, Weights.total]
  | effect ht =>
    apply Pool.total_update ht
    simp only [Weights.thread, shared_run, todo_cons]
    ring
  | advance ht ha =>
    apply Pool.total_update ht
    rw [Weights.thread, Weights.thread, todo_nil, zero_add]
    apply h.advance ha
    rintro rfl
    exact hf (List.mem_of_getElem? ht)

end Weights.Balanced
end SolanaArbBot.Arbitrage
