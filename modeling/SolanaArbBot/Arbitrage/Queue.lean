import SolanaArbBot.Arbitrage.Balance

/-! The queue and its permits. A push, its gauge update and its permit are three
operations, and so are an acquire, a pop and the gauge update after it. -/
namespace SolanaArbBot.Arbitrage
open Lib TemplateCache

def Effect.pushes : Effect → Bool
  | .enqueue _ _ => true
  | .requeue _ => true
  | _ => false

def Effect.raisesGauge : Effect → Bool
  | .depthUp => true
  | _ => false

def Effect.lowersGauge : Effect → Bool
  | .depthDown => true
  | _ => false

def Effect.addsPermit : Effect → Bool
  | .addPermit => true
  | _ => false

def Thread.hasAcquired (t : Thread) : Bool :=
  match t.pc with
  | .acquired => true
  | _ => false

def Thread.pushHalfDone (t : Thread) : Bool :=
  t.todo.any Effect.addsPermit && !t.todo.any Effect.pushes

def Thread.popHalfDone (t : Thread) : Bool := t.todo.any Effect.lowersGauge

/-- What is pushed is counted by the gauge, and then gets its one permit. -/
@[mk_iff] structure InOrder (es : List Effect) : Prop where
  gauge : es.countP Effect.pushes ≤ es.countP Effect.raisesGauge
  permit : es.countP Effect.raisesGauge ≤ es.countP Effect.addsPermit
  one : es.countP Effect.addsPermit ≤ 1

/-- The operations are in order from every point on. -/
def Orderly : List Effect → Prop
  | [] => True
  | e :: es => InOrder (e :: es) ∧ Orderly es

theorem Orderly.inOrder {es : List Effect} (h : Orderly es) : InOrder es := by
  cases es with
  | nil => exact ⟨le_rfl, le_rfl, Nat.zero_le 1⟩
  | cons e es => exact h.1

/-- The operation touches neither the queue nor the permits. -/
def Effect.aside (e : Effect) : Bool := !e.pushes && !e.raisesGauge && !e.addsPermit

@[simp] theorem orderly_cons_of_aside {e : Effect} {es : List Effect} (he : e.aside) :
    Orderly (e :: es) ↔ Orderly es := by
  refine ⟨fun h => h.2, fun h => ⟨?_, h⟩⟩
  obtain ⟨h1, h2, h3⟩ := h.inOrder
  simp only [Effect.aside, Bool.and_eq_true, Bool.not_eq_true'] at he
  constructor <;> simpa [List.countP_cons, he]

@[simp] theorem orderly_append_of_aside {es es' : List Effect} (he : es.all Effect.aside) :
    Orderly (es ++ es') ↔ Orderly es' := by
  induction es with
  | nil => exact Iff.rfl
  | cons e es ih =>
    simp only [List.all_cons, Bool.and_eq_true] at he
    exact (orderly_cons_of_aside he.1).trans (ih he.2)

theorem orderly_of_aside {es : List Effect} (he : es.all Effect.aside) : Orderly es := by
  have h := (@orderly_append_of_aside es [] he).mpr trivial
  rwa [List.append_nil] at h

theorem orderly_pushToQueue (ix : SwapInstructionsResponse) (hopCount : Nat) :
    Orderly (pushToQueue ix hopCount) := by
  simp [pushToQueue, Orderly, inOrder_iff, List.countP_cons, Effect.pushes, Effect.raisesGauge,
    Effect.addsPermit]

theorem orderly_putBack (item : ReadyInstruction) : Orderly (putBack item) := by
  apply (orderly_append_of_aside _).mpr
  · simp [Orderly, inOrder_iff, List.countP_cons, Effect.pushes, Effect.raisesGauge, Effect.addsPermit]
  · split <;> rfl

section Aside
variable (cfg : Config)

theorem aside_countToken (mint : String) (c : TokenCounter) (n : Nat) :
    (countToken cfg mint c n).all Effect.aside := by
  unfold countToken
  split <;> rfl

theorem aside_countQuoted (mint : String) : (countQuoted cfg mint).all Effect.aside :=
  aside_countToken cfg mint _ _

theorem aside_saveRoute (job : Job) (ix : SwapInstructionsResponse) :
    (saveRoute cfg job ix).all Effect.aside := by
  unfold saveRoute
  split <;> rfl

end Aside

variable {cfg : Config} {s s' : Shared} {pc pc' : Pc} {es : List Effect}

/-- What a thread decides on is in order. -/
theorem Advance.orderly (h : Advance cfg s pc s' es pc') : Orderly es := by
  cases h with
  | noQuote1 | noQuote2 => exact orderly_of_aside (aside_countToken cfg _ _ _)
  | notProfitable | profitable =>
    apply orderly_of_aside
    rw [List.all_append, aside_countQuoted, aside_countToken, Bool.and_self]
  | samePool =>
    apply orderly_of_aside
    rw [List.all_append, List.all_cons, aside_countQuoted, aside_countToken]
    rfl
  | lookServed | promoteServed =>
    exact (orderly_append_of_aside rfl).mpr (orderly_pushToQueue _ _)
  | swapIxs =>
    apply (orderly_append_of_aside _).mpr (orderly_pushToQueue _ _)
    rw [List.all_append, aside_saveRoute]
    rfl
  | noGrpc | grpcRefused => exact orderly_putBack _
  | _ => exact orderly_of_aside rfl

/-- A worker that has acquired pops next. -/
theorem Advance.acquired_todo (h : Advance cfg s pc s' es pc') (hpc : pc' = .acquired) : es = [] := by
  cases h with
  | lookMissed | promoteMissed => rfl
  | acquire => rfl
  | _ => cases hpc

/-- Queued items, or the gauge, against permits and the workers that hold one. -/
def againstPermits (item depth : Int) : Weights where
  counter _ := 0
  item := item
  depth := depth
  permit := -(item + depth)
  pc
    | .acquired => -(item + depth)
    | _ => 0

theorem againstPermits_balanced (item depth : Int) : (againstPermits item depth).Balanced cfg where
  idle := rfl
  check mint amount onlyDirect := by simp [Weights.thread, quoteCheck, againstPermits]
  advance {s pc s' es pc'} h hf := by
    cases h with
    | @lookMissed tier | @promoteMissed tier => cases tier <;> rfl
    | acquire h => simp [Weights.shared_acquire _ h, againstPermits]
    | popNothing h => exact absurd h (hf rfl)
    | pop h =>
      simp only [Weights.shared_pop _ h, againstPermits, Weights.todo_cons, Weights.todo_nil,
        Weights.effect]
      ring
    | noGrpc | grpcRefused =>
      simp only [Weights.todo_putBack, Weights.shared_jitoGrpcLimiter, againstPermits, ite_self]
      ring
    | _ => simp [againstPermits]

/-- What is left to do, as numbers of operations. -/
theorem againstPermits_todo (item depth : Int) (es : List Effect) :
    (againstPermits item depth).todo es =
      item * es.countP Effect.pushes +
        depth * (es.countP Effect.raisesGauge - es.countP Effect.lowersGauge) -
        (item + depth) * es.countP Effect.addsPermit := by
  induction es with
  | nil => simp
  | cons e es ih =>
    rw [Weights.todo_cons, ih]
    simp only [List.countP_cons]
    cases e <;>
      simp [againstPermits, Effect.pushes, Effect.raisesGauge, Effect.lowersGauge, Effect.addsPermit] <;>
      ring

/-- The permits and the threads account for every item and for the gauge. -/
structure Served (p : State) : Prop where
  orderly : ∀ t ∈ p.threads, Orderly t.todo
  acquired : ∀ t ∈ p.threads, t.pc = .acquired → t.todo = []
  balanced : ∀ item depth, (againstPermits item depth).total p = 0

theorem any_eq (q : Effect → Bool) (es : List Effect) : es.any q = decide (0 < es.countP q) := by
  rw [Bool.eq_iff_iff, List.any_eq_true, decide_eq_true_iff, List.countP_pos_iff]

private theorem pushHalfDone_eq {t : Thread} (h : InOrder t.todo) :
    (if t.pushHalfDone then (1 : Int) else 0) =
      t.todo.countP Effect.addsPermit - t.todo.countP Effect.pushes := by
  obtain ⟨h1, h2, h3⟩ := h
  simp only [Thread.pushHalfDone, any_eq, Bool.and_eq_true, Bool.not_eq_true', decide_eq_true_iff,
    decide_eq_false_iff_not]
  split <;> omega

private theorem hasAcquired_eq (t : Thread) (item depth : Int) :
    (againstPermits item depth).pc t.pc = if t.hasAcquired then -(item + depth) else 0 := by
  unfold Thread.hasAcquired
  cases t.pc <;> rfl

namespace Served
variable {p p' : State} {a : Action}

theorem length_eq (h : Served p) : p.shared.lifo.length =
    p.shared.permits + p.threads.countP Thread.hasAcquired + p.threads.countP Thread.pushHalfDone := by
  have hb := h.balanced (-1) 0
  have ht : p.threads.map (againstPermits (-1) 0).thread = p.threads.map fun t =>
      (if t.hasAcquired then (1 : Int) else 0) + if t.pushHalfDone then (1 : Int) else 0 := by
    apply List.map_congr_left
    intro t ht
    rw [pushHalfDone_eq (h.orderly t ht).inOrder, Weights.thread, againstPermits_todo, hasAcquired_eq]
    split <;> omega
  rw [Weights.total, Pool.total, ht, List.sum_map_add, Pool.sum_indicator, Pool.sum_indicator] at hb
  simp [Weights.shared, againstPermits, Metrics.weigh] at hb
  omega

theorem findsItems (h : Served p) : FindsItems p := by
  intro hm hl
  have hpos : 0 < p.threads.countP Thread.hasAcquired := List.countP_pos_iff.mpr ⟨_, hm, rfl⟩
  have hlen := h.length_eq
  rw [hl, List.length_nil] at hlen
  omega

theorem gauge_nonneg (h : Served p) : 0 ≤ p.shared.queueDepth := by
  have hb := h.balanced 0 (-1)
  have ht : 0 ≤ (p.threads.map (againstPermits 0 (-1)).thread).sum := by
    apply List.sum_nonneg
    intro x hx
    obtain ⟨t, ht, rfl⟩ := List.mem_map.mp hx
    have hle := (h.orderly t ht).inOrder.permit
    rw [Weights.thread, againstPermits_todo, hasAcquired_eq]
    split <;> omega
  simp [Weights.total, Pool.total, Weights.shared, againstPermits, Metrics.weigh] at hb ht
  omega

theorem gauge_eq (h : Served p)
    (hq : ∀ t ∈ p.threads, t.pushHalfDone = false ∧ t.popHalfDone = false) :
    p.shared.queueDepth = p.shared.lifo.length := by
  have hb := h.balanced 1 (-1)
  have ht : (p.threads.map (againstPermits 1 (-1)).thread).sum = 0 := by
    apply Pool.sum_eq_zero
    intro t ht
    have hpush := pushHalfDone_eq (h.orderly t ht).inOrder
    obtain ⟨h1, h2, _⟩ := (h.orderly t ht).inOrder
    have hpop := (hq t ht).2
    rw [Thread.popHalfDone, any_eq, decide_eq_false_iff_not] at hpop
    rw [(hq t ht).1, if_neg Bool.false_ne_true] at hpush
    rw [Weights.thread, againstPermits_todo, hasAcquired_eq]
    split <;> omega
  rw [Weights.total, Pool.total, ht] at hb
  simp [Weights.shared, againstPermits, Metrics.weigh] at hb
  omega

theorem init (store : StoreInner) (now : Int) : Served (start cfg store now) where
  orderly t ht := by
    rw [List.eq_of_mem_replicate ht]
    trivial
  acquired t ht _ := by rw [List.eq_of_mem_replicate ht]
  balanced item depth := (againstPermits_balanced item depth).total_start store now

theorem step (h : Served p) (hs : Moves cfg p a p') : Served p' where
  orderly := by
    apply hs.forall_threads h.orderly
    · intro mint amount onlyDirect
      exact orderly_of_aside (aside_countToken cfg mint .qSent 2)
    · intro e es pc he
      exact he.2
    · intro s pc s' es pc' ha _
      exact ha.orderly
  acquired := by
    apply hs.forall_threads h.acquired
    · intro mint amount onlyDirect hpc
      cases hpc
    · intro e es pc he hpc
      cases he hpc
    · intro s pc s' es pc' ha _
      exact ha.acquired_todo
  balanced item depth := by
    rw [(againstPermits_balanced item depth).total_step hs h.findsItems]
    exact h.balanced item depth

end Served

theorem Reachable.served {p : State} (h : Reachable cfg p) : Served p :=
  h.invariant Served.init fun _ _ _ hp hs => hp.step hs

/-- A total that no branch changes stays where it was at the start. -/
theorem Weights.Balanced.total_eq_zero {w : Weights} (hb : w.Balanced cfg) {p : State}
    (h : Reachable cfg p) : w.total p = 0 := by
  have hi : Served p ∧ w.total p = 0 := by
    apply h.invariant (I := fun p => Served p ∧ w.total p = 0)
    · intro store now
      exact ⟨Served.init store now, hb.total_start store now⟩
    · rintro p a p' ⟨hp, h0⟩ hs
      exact ⟨hp.step hs, (hb.total_step hs hp.findsItems).trans h0⟩
  exact hi.2

/-- What the queue promises: every item has a permit in sight, and the gauge is right. -/
structure Accounted (p : State) : Prop where
  length : p.shared.lifo.length =
    p.shared.permits + p.threads.countP Thread.hasAcquired + p.threads.countP Thread.pushHalfDone
  /-- A worker that pops never finds the queue empty. -/
  found : ∀ t ∈ p.threads, t.hasAcquired → p.shared.lifo ≠ []
  /-- An item that waits has a permit, a worker on its way, or a thread about to add its permit. -/
  served : p.shared.lifo ≠ [] →
    0 < p.shared.permits ∨ ∃ t ∈ p.threads, t.hasAcquired ∨ t.pushHalfDone
  depth_nonneg : 0 ≤ p.shared.queueDepth
  depth_eq : (∀ t ∈ p.threads, t.pushHalfDone = false ∧ t.popHalfDone = false) →
    p.shared.queueDepth = p.shared.lifo.length

/-- The queue keeps its promise in every reachable state. -/
theorem queue_accounted {p : State} (h : Reachable cfg p) : Accounted p where
  length := h.served.length_eq
  found t ht hta := by
    have hpos : 0 < p.threads.countP Thread.hasAcquired := List.countP_pos_iff.mpr ⟨t, ht, hta⟩
    have hlen := h.served.length_eq
    apply List.ne_nil_of_length_pos
    omega
  served hl := by
    have hlen := h.served.length_eq
    have hpos := List.length_pos_of_ne_nil hl
    by_contra hno
    obtain ⟨hperm, hno⟩ := not_or.mp hno
    have h1 : p.threads.countP Thread.hasAcquired = 0 :=
      List.countP_eq_zero.mpr fun t ht ha => hno ⟨t, ht, Or.inl ha⟩
    have h2 : p.threads.countP Thread.pushHalfDone = 0 :=
      List.countP_eq_zero.mpr fun t ht ha => hno ⟨t, ht, Or.inr ha⟩
    omega
  depth_nonneg := h.served.gauge_nonneg
  depth_eq := h.served.gauge_eq

/-- One trade is queued and a worker holds its permit, while a second is pushed. -/
def halfway : State :=
  sampleState (sampleTrade 2 ++ [.act 0 .go] ++ (sampleTrade 3).dropLast.dropLast.dropLast)

theorem queue_accounted_halfway :
    Accounted halfway ∧ halfway.shared.lifo.length = 2 ∧
      halfway.threads.countP Thread.hasAcquired = 1 ∧
      halfway.threads.countP Thread.pushHalfDone = 1 :=
  ⟨queue_accounted (sampleState_reachable _), by decide, by decide, by decide⟩

end SolanaArbBot.Arbitrage
