import SolanaArbBot.Arbitrage.Queue

/-! The funnel. An opportunity is counted once when its quotes pass and once when
it is settled, and an item of the queue is submitted at most once. -/
namespace SolanaArbBot.Arbitrage
open Lib TemplateCache

/-- The counters that settle an opportunity without a submission that lands. -/
def drops : List Counter :=
  [.droppedMultiHop, .droppedMergeFail, .droppedNoServe, .swapIxFailed, .droppedStale,
    .txBuildFailed, .droppedAccountLocks, .txTooLarge, .jitoSendFailed]

def fates : List Counter := .jitoSent :: drops

/-- The thread has an opportunity in hand, from the quotes that passed to its fate. -/
def Pc.carries : Pc → Bool
  | .handle _ => true
  | .look _ _ _ => true
  | .promote _ _ _ => true
  | .checkHops _ => true
  | .hopIndex _ => true
  | .fallback _ => true
  | .awaitSwapIxs _ => true
  | .popped _ => true
  | .askJito _ => true
  | .askGrpc _ => true
  | .building _ _ _ => true
  | .ready _ _ _ => true
  | .awaitBundle => true
  | _ => false

/-- The operation counts a fate, or hands the opportunity to the queue. -/
def Effect.settles : Effect → Bool
  | .count c _ => fates.contains c
  | .enqueue _ _ => true
  | .requeue _ => true
  | _ => false

def Thread.carries (t : Thread) : Bool := t.pc.carries || t.todo.any Effect.settles

/-- The opportunities that have no fate yet: the items of the queue and what the threads carry. -/
def inFlight (p : State) : Nat := p.shared.lifo.length + p.threads.countP Thread.carries

/-- Nothing is in flight: the queue is empty, and no thread is in the middle of anything. -/
def Quiet (p : State) : Prop :=
  p.shared.lifo = [] ∧ ∀ t ∈ p.threads, t.todo = [] ∧ t.pc.carries = false

def Effect.counts : Effect → Bool
  | .count c n => c != .metisRespOk && (!fates.contains c || n == 1)
  | _ => true

/-- The thread has at most one opportunity in hand. -/
structure Single (t : Thread) : Prop where
  counts : t.todo.all Effect.counts
  one : t.todo.countP Effect.settles + t.pc.carries.toNat ≤ 1

section Lists
variable (cfg : Config)

@[simp] theorem all_counts_countToken (mint : String) (c : TokenCounter) (n : Nat) :
    (countToken cfg mint c n).all Effect.counts := by
  unfold countToken
  split <;> rfl

@[simp] theorem settles_countToken (mint : String) (c : TokenCounter) (n : Nat) :
    (countToken cfg mint c n).countP Effect.settles = 0 := by
  unfold countToken
  split <;> rfl

@[simp] theorem all_counts_saveRoute (job : Job) (ix : SwapInstructionsResponse) :
    (saveRoute cfg job ix).all Effect.counts := by
  unfold saveRoute
  split <;> rfl

@[simp] theorem settles_saveRoute (job : Job) (ix : SwapInstructionsResponse) :
    (saveRoute cfg job ix).countP Effect.settles = 0 := by
  unfold saveRoute
  split <;> rfl

end Lists

variable {cfg : Config} {s s' : Shared} {pc pc' : Pc} {es : List Effect}

/-- What a thread decides on settles what it has in hand, at most once. -/
theorem Advance.single (h : Advance cfg s pc s' es pc') : Single ⟨es, pc'⟩ := by
  cases h with
  | @lookMissed tier | @promoteMissed tier => cases tier <;> exact ⟨rfl, le_rfl⟩
  | noQuote1 | noQuote2 => exact ⟨all_counts_countToken _ _ _ _, by simp [Pc.carries]⟩
  | notProfitable | samePool | profitable =>
    constructor
    · simp [countQuoted, Effect.counts, fates, drops]
    · simp [countQuoted, Effect.settles, Pc.carries, fates, drops]
  | pairDropped h | buildDropped h =>
    simp only [pairDrops, buildDrops, List.mem_cons, List.not_mem_nil, or_false] at h
    casesm* _ ∨ _ <;> subst h <;> exact ⟨rfl, le_rfl⟩
  | @swapIxsFailed _ e => cases e <;> exact ⟨rfl, le_rfl⟩
  | swapIxs =>
    constructor
    · simp [takeFromMetis, pushToQueue, Effect.counts, fates, drops]
    · simp [takeFromMetis, pushToQueue, Effect.settles, Pc.carries, List.countP_cons, fates, drops]
  | @noGrpc item | @grpcRefused item =>
    constructor
    · cases hw : item.waitedForSlot <;> simp [putBack, hw, Effect.counts, fates, drops]
    · cases hw : item.waitedForSlot <;>
        simp [putBack, hw, Effect.settles, Pc.carries, List.countP_cons, fates, drops]
  | _ => exact ⟨rfl, Nat.le_of_ble_eq_true rfl⟩

/-- Fates, queued items and what the threads carry, against the opportunities counted. -/
def fateWeights : Weights where
  counter c := if fates.contains c then 1 else if c = .metisRespOk then -1 else 0
  item := 1
  depth := 0
  permit := 0
  pc pc := if pc.carries then 1 else 0

theorem fateWeights_balanced : fateWeights.Balanced cfg where
  idle := rfl
  check mint amount onlyDirect := by
    simp [Weights.thread, quoteCheck, fateWeights, fates, drops, Pc.carries]
  advance {s pc s' es pc'} h hf := by
    cases h with
    | @lookMissed tier | @promoteMissed tier => cases tier <;> rfl
    | pairDropped h | buildDropped h =>
      simp only [pairDrops, buildDrops, List.mem_cons, List.not_mem_nil, or_false] at h
      casesm* _ ∨ _ <;> subst h <;> simp [fateWeights, fates, drops, Pc.carries]
    | @swapIxsFailed _ e =>
      cases e <;> simp [fateWeights, fates, drops, swapIxErrorCounter, Pc.carries]
    | acquire h => simp [Weights.shared_acquire _ h, fateWeights, Pc.carries]
    | pop h => simp [Weights.shared_pop _ h, fateWeights, Pc.carries]
    | _ => simp [fateWeights, fates, drops, Pc.carries]

private theorem fateWeights_effect {e : Effect} (h : e.counts) :
    fateWeights.effect e = if e.settles then 1 else 0 := by
  cases e with
  | count c n =>
    simp only [Effect.counts, Bool.and_eq_true, bne_iff_ne, Bool.or_eq_true, Bool.not_eq_true',
      beq_iff_eq] at h
    obtain ⟨hc, hf | rfl⟩ := h
    · simp only [Weights.effect, fateWeights, Effect.settles, hf, if_neg hc]
      simp
    · simp [fateWeights, Effect.settles, hc]
  | _ => rfl

private theorem fateWeights_todo {es : List Effect} (h : es.all Effect.counts) :
    fateWeights.todo es = es.countP Effect.settles := by
  induction es with
  | nil => rfl
  | cons e es ih =>
    obtain ⟨he, hes⟩ := Bool.and_eq_true_iff.mp h
    rw [Weights.todo_cons, ih hes, fateWeights_effect he, List.countP_cons]
    split <;> push_cast <;> omega

private theorem fateWeights_thread {t : Thread} (h : Single t) :
    fateWeights.thread t = if t.carries then 1 else 0 := by
  obtain ⟨hc, h1⟩ := h
  rw [Weights.thread, fateWeights_todo hc, Thread.carries, any_eq]
  simp only [fateWeights]
  cases hpc : t.pc.carries with
  | true =>
    rw [hpc, Bool.toNat_true] at h1
    simp only [Bool.true_or, if_true]
    omega
  | false =>
    rw [hpc, Bool.toNat_false] at h1
    simp only [Bool.false_or, decide_eq_true_iff, Bool.false_eq_true, if_false]
    split <;> omega

theorem Reachable.single {p : State} (h : Reachable cfg p) : ∀ t ∈ p.threads, Single t := by
  apply h.invariant
  · intro store now t ht
    rw [List.eq_of_mem_replicate ht]
    exact ⟨rfl, Nat.zero_le 1⟩
  · intro p a p' hp hs
    apply hs.forall_threads hp
    · intro mint amount onlyDirect
      constructor
      · exact all_counts_countToken cfg mint .qSent 2
      · simp [quoteCheck, Pc.carries, Effect.settles, fates, drops]
    · intro e es pc he
      refine ⟨(Bool.and_eq_true_iff.mp he.counts).2, ?_⟩
      exact le_trans (Nat.add_le_add_right (List.sublist_cons_self e es).countP_le _) he.one
    · intro s pc s' es pc' ha _
      exact ha.single

/-- Every opportunity is in flight or has exactly one fate. -/
theorem Reachable.fate {p : State} (h : Reachable cfg p) :
    p.shared.metrics .metisRespOk = (fates.map p.shared.metrics).sum + inFlight p := by
  have hb := fateWeights_balanced.total_eq_zero h
  have ht : p.threads.map fateWeights.thread = p.threads.map fun t =>
      if t.carries then (1 : Int) else 0 :=
    List.map_congr_left fun t ht => fateWeights_thread (h.single t ht)
  rw [Weights.total, Pool.total, ht, Pool.sum_indicator] at hb
  have hk : fateWeights.counter = tally fates [.metisRespOk] := by
    funext c
    cases c <;> rfl
  simp only [Weights.shared, hk, Metrics.weigh_tally, List.map_singleton, List.sum_singleton] at hb
  simp only [fateWeights] at hb
  rw [inFlight]
  omega

/-- The counters that are raised alone. -/
def loners : List Counter :=
  [.metisReqSent, .metisRespTotal, .metisRespOk, .hopTemplateAllHit, .hopTemplateMissing,
    .droppedSamePool, .calcDone, .rateRequeued, .jitoSent, .metisFetchMsTotal, .metisFetchSamples]

def swapIxErrors : List Counter := [.swapIxTimeout, .swapIxHttp, .swapIxNetwork, .swapIxParse]

theorem swapIxErrorCounter_mem (e : SwapIxError) : swapIxErrorCounter e ∈ swapIxErrors := by
  cases e <;> simp [swapIxErrorCounter, swapIxErrors]

/-- The weights cancel out in each group of counters that a branch raises together. -/
structure InStep (k : Counter → Int) : Prop where
  alone : ∀ c ∈ loners, k c = 0
  ram : k .routeTemplateHit + k .ixFromRam + k .swapIxOk + k .queueIn = 0
  metis : k .swapIxOk + k .ixFromMetis + k .queueIn = 0
  dropped : ∀ c ∈ drops, c ≠ .swapIxFailed → k c + k .txDropped = 0
  failed : ∀ c ∈ swapIxErrors, k .swapIxFailed + k .txDropped + k c = 0

def counterWeights (k : Counter → Int) : Weights where
  counter := k
  item := 0
  depth := 0
  permit := 0
  pc _ := 0

private theorem pairDrops_drops : ∀ c ∈ pairDrops, c ∈ drops ∧ c ≠ .swapIxFailed := by decide

private theorem buildDrops_drops : ∀ c ∈ buildDrops, c ∈ drops ∧ c ≠ .swapIxFailed := by decide

theorem InStep.balanced {k : Counter → Int} (h : InStep k) : (counterWeights k).Balanced cfg where
  idle := rfl
  check mint amount onlyDirect := by
    simp [Weights.thread, quoteCheck, counterWeights, h.alone .metisReqSent (by decide)]
  advance {s pc s' es pc'} ha hf := by
    have hdropped (c : Counter) (hc : c ∈ drops ∧ c ≠ .swapIxFailed) := h.dropped c hc.1 hc.2
    have halone := h.alone
    simp only [loners, List.forall_mem_cons, List.not_mem_nil, false_imp_iff, implies_true, and_true]
      at halone
    cases ha with
    | acquire hp => simp [Weights.shared_acquire _ hp, counterWeights]
    | pop hl => simp [Weights.shared_pop _ hl, counterWeights]
    | pairDropped hr => simp [counterWeights, hdropped _ (pairDrops_drops _ hr)]
    | buildDropped hr => simp [counterWeights, hdropped _ (buildDrops_drops _ hr)]
    | noServe => simp [counterWeights, hdropped .droppedNoServe (by decide)]
    | stale => simp [counterWeights, hdropped .droppedStale (by decide)]
    | notSent => simp [counterWeights, hdropped .jitoSendFailed (by decide)]
    | @swapIxsFailed _ e => simp [counterWeights, h.failed _ (swapIxErrorCounter_mem e)]
    | lookServed | promoteServed =>
      have hram := h.ram
      simp [counterWeights]
      omega
    | swapIxs =>
      have hmetis := h.metis
      simp [counterWeights, halone]
      omega
    | _ => simp [counterWeights, halone]

theorem InStep.quiet {k : Counter → Int} (hk : InStep k) {p : State} (h : Reachable cfg p)
    (hq : Quiet p) : p.shared.metrics.weigh k = 0 := by
  have hb := hk.balanced.total_eq_zero h
  have ht : (p.threads.map (counterWeights k).thread).sum = 0 := by
    apply Pool.sum_eq_zero
    intro t ht
    simp [Weights.thread, (hq.2 t ht).1, counterWeights]
  rw [Weights.total, Pool.total, ht] at hb
  simpa [Weights.shared, counterWeights] using hb

theorem queued_inStep : InStep (tally [.swapIxOk] [.queueIn]) :=
  ⟨by decide, rfl, rfl, by decide, by decide⟩

theorem served_inStep : InStep (tally [.swapIxOk] [.ixFromRam, .ixFromMetis]) :=
  ⟨by decide, rfl, rfl, by decide, by decide⟩

theorem failed_inStep : InStep (tally [.swapIxFailed] swapIxErrors) :=
  ⟨by decide, rfl, rfl, by decide, by decide⟩

theorem dropped_inStep : InStep (tally [.txDropped] drops) :=
  ⟨by decide, rfl, rfl, by decide, by decide⟩

/-- The item that a worker holds and that no one else can submit. -/
def Pc.item : Pc → Option ReadyInstruction
  | .popped item => some item
  | .askJito item => some item
  | .askGrpc item => some item
  | .building item _ _ => some item
  | .ready item _ _ => some item
  | _ => none

def Effect.item : Effect → Option ReadyInstruction
  | .requeue item => some item
  | _ => none

/-- The numbers of the items that are queued or submitted. -/
def Shared.numbers (s : Shared) : List Nat :=
  s.lifo.map ReadyInstruction.number ++ s.sent.map Submission.number

/-- The numbers of the items that only this thread can queue or submit. -/
def Thread.numbers (t : Thread) : List Nat :=
  (t.todo.filterMap Effect.item ++ t.pc.item.toList).map ReadyInstruction.number

/-- One while the number is not assigned yet. -/
def free (n next : Nat) : Nat := if n < next then 0 else 1

theorem free_succ (n next : Nat) : free n (next + 1) + [next].count n = free n next := by
  simp only [free, List.count_singleton, beq_iff_eq]
  split <;> split <;> split <;> omega

section Number
variable (n : Nat)

/-- How often the number is queued, submitted or still free. -/
def Shared.holds (s : Shared) : Nat := s.numbers.count n + free n s.nextNumber

def Thread.holds (t : Thread) : Nat := t.numbers.count n

theorem holds_run (e : Effect) (s : Shared) (es : List Effect) (pc : Pc) :
    (e.run s).holds n + Thread.holds n ⟨es, pc⟩ ≤ s.holds n + Thread.holds n ⟨e :: es, pc⟩ := by
  cases e with
  | enqueue ix hopCount =>
    have hfree := free_succ n s.nextNumber
    rw [List.count_singleton] at hfree
    simp only [Shared.holds, Shared.numbers, Effect.run, Thread.holds, Thread.numbers, Effect.item,
      List.filterMap_cons, List.map_cons, List.cons_append, List.count_cons]
    omega
  | requeue item =>
    simp only [Shared.holds, Shared.numbers, Effect.run, Thread.holds, Thread.numbers, Effect.item,
      List.filterMap_cons, List.map_cons, List.cons_append, List.count_cons]
    omega
  | _ => exact le_rfl

theorem items_countToken (cfg : Config) (mint : String) (c : TokenCounter) (k : Nat) :
    (countToken cfg mint c k).filterMap Effect.item = [] := by
  unfold countToken
  split <;> rfl

theorem items_saveRoute (cfg : Config) (job : Job) (ix : SwapInstructionsResponse) :
    (saveRoute cfg job ix).filterMap Effect.item = [] := by
  unfold saveRoute
  split <;> rfl

theorem items_putBack (item : ReadyInstruction) :
    (putBack item).filterMap Effect.item = [{ item with waitedForSlot := true }] := by
  unfold putBack
  split <;> rfl

theorem holds_advance {cfg : Config} {s s' : Shared} {pc pc' : Pc} {es : List Effect}
    (h : Advance cfg s pc s' es pc') :
    s'.holds n + Thread.holds n ⟨es, pc'⟩ ≤ s.holds n + Thread.holds n ⟨[], pc⟩ := by
  cases h with
  | @lookMissed tier | @promoteMissed tier => cases tier <;> exact le_rfl
  | noQuote1 | noQuote2 | notProfitable | samePool | profitable =>
    simp [Thread.holds, Thread.numbers, countQuoted, items_countToken, Pc.item, Effect.item,
      List.filterMap_cons]
  | swapIxs =>
    simp [Thread.holds, Thread.numbers, takeFromMetis, pushToQueue, items_saveRoute, Pc.item, Effect.item,
      List.filterMap_cons]
  | noGrpc | grpcRefused =>
    simp [Shared.holds, Shared.numbers, Thread.holds, Thread.numbers, items_putBack, Pc.item]
  | pop hl =>
    simp only [Shared.holds, Shared.numbers, hl, List.map_cons, List.cons_append, List.count_cons]
    simp [Thread.holds, Thread.numbers, Effect.item, List.filterMap_cons, Pc.item,
      List.count_singleton]
    omega
  | submit =>
    simp [Shared.holds, Shared.numbers, Thread.holds, Thread.numbers, submit, Effect.item, Pc.item,
      List.count_cons]
    omega
  | stale | buildDropped => exact Nat.add_le_add_left (Nat.zero_le _) _
  | _ => exact le_rfl

theorem Reachable.holds_le {cfg : Config} {p : State} (h : Reachable cfg p) :
    p.total (Shared.holds n) (Thread.holds n) ≤ 1 := by
  apply h.invariant
  · intro store now
    have ht : ((start cfg store now).threads.map (Thread.holds n)).sum = 0 := by
      apply Pool.sum_eq_zero
      intro t ht
      rw [List.eq_of_mem_replicate ht]
      rfl
    rw [Pool.total, ht]
    exact le_rfl
  · intro p a p' hp hs
    refine le_trans (hs.total_le ?_ ?_ ?_ ?_) hp
    · intro s now
      rfl
    · intro mint amount onlyDirect
      simp [Thread.holds, Thread.numbers, quoteCheck, Pc.item, Effect.item, items_countToken,
        List.filterMap_cons]
    · intro s e es pc
      exact holds_run n e s es pc
    · intro pc s' es pc' _ ha
      exact holds_advance n ha

end Number

/-- No item is submitted twice, on whichever path. -/
theorem Reachable.once {cfg : Config} {p : State} (h : Reachable cfg p) :
    (p.shared.sent.map Submission.number).Nodup := by
  apply List.nodup_iff_count_le_one.mpr
  intro n
  have hle := h.holds_le n
  simp only [Pool.total, Shared.holds, Shared.numbers, List.count_append] at hle
  omega

/-- What is submitted has been queued. -/
theorem Reachable.queued {cfg : Config} {p : State} (h : Reachable cfg p) :
    ∀ e ∈ p.shared.sent, e.number < p.shared.nextNumber := by
  intro e he
  have hle := h.holds_le e.number
  have hpos : 0 < (p.shared.sent.map Submission.number).count e.number :=
    List.count_pos_iff.mpr (List.mem_map_of_mem he)
  simp only [Pool.total, Shared.holds, Shared.numbers, List.count_append, free] at hle
  split at hle
  · assumption
  · omega

/-- What the funnel promises. -/
structure Counted (p : State) : Prop where
  /-- Every opportunity has one fate or is still in flight. -/
  fate : p.shared.metrics .metisRespOk =
    p.shared.metrics .droppedMultiHop + p.shared.metrics .droppedMergeFail +
      p.shared.metrics .droppedNoServe + p.shared.metrics .swapIxFailed +
      p.shared.metrics .droppedStale + p.shared.metrics .txBuildFailed +
      p.shared.metrics .droppedAccountLocks + p.shared.metrics .txTooLarge +
      p.shared.metrics .jitoSendFailed + p.shared.metrics .jitoSent + inFlight p
  served : Quiet p → p.shared.metrics .swapIxOk = p.shared.metrics .queueIn ∧
    p.shared.metrics .queueIn = p.shared.metrics .ixFromRam + p.shared.metrics .ixFromMetis
  failed : Quiet p → p.shared.metrics .swapIxFailed =
    p.shared.metrics .swapIxTimeout + p.shared.metrics .swapIxHttp +
      p.shared.metrics .swapIxNetwork + p.shared.metrics .swapIxParse
  settled : Quiet p →
    p.shared.metrics .metisRespOk = p.shared.metrics .txDropped + p.shared.metrics .jitoSent
  /-- Each item of the queue is submitted at most once, so on one path only. -/
  once : (p.shared.sent.map Submission.number).Nodup ∧
    ∀ e ∈ p.shared.sent, e.number < p.shared.nextNumber

/-- The funnel keeps its promise in every reachable state. -/
theorem funnel_counted {cfg : Config} {p : State} (h : Reachable cfg p) : Counted p where
  fate := by
    have hf := h.fate
    simp [fates, drops] at hf
    omega
  served hq := by
    have h1 := queued_inStep.quiet h hq
    have h2 := served_inStep.quiet h hq
    simp [Metrics.weigh_tally] at h1 h2
    omega
  failed hq := by
    have h1 := failed_inStep.quiet h hq
    simp [Metrics.weigh_tally, swapIxErrors] at h1
    omega
  settled hq := by
    have hf := h.fate
    have h1 := dropped_inStep.quiet h hq
    have h2 : p.threads.countP Thread.carries = 0 := by
      apply List.countP_eq_zero.mpr
      intro t ht
      simp [Thread.carries, (hq.2 t ht).1, (hq.2 t ht).2]
    simp [Metrics.weigh_tally, drops] at h1
    simp [inFlight, hq.1, h2, fates, drops] at hf
    omega
  once := ⟨h.once, h.queued⟩

example : Quiet (sampleState (sampleTrade 2 ++ sampleAcquire 0 ++ sampleSend 0)) := ⟨rfl, by decide⟩

/-- One trade has been sent, and a second one waits for a slot. -/
def sentAndWaiting : State :=
  sampleState (sampleTrade 2 ++ sampleAcquire 0 ++ sampleSend 0 ++ sampleTrade 3 ++ sampleAcquire 1 ++
    List.replicate 5 (.act 1 .go))

theorem funnel_counted_waiting :
    Counted sentAndWaiting ∧ sentAndWaiting.shared.metrics .metisRespOk = 2 ∧
      sentAndWaiting.shared.metrics .jitoSent = 1 ∧ sentAndWaiting.shared.metrics .rateRequeued = 1 ∧
      inFlight sentAndWaiting = 1 :=
  ⟨funnel_counted (sampleState_reachable _), by decide, by decide, by decide, by decide⟩

end SolanaArbBot.Arbitrage
