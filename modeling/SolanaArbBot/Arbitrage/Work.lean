import SolanaArbBot.Arbitrage.Steps
import SolanaArbBot.Lib.Potential

/-! How much the bot does. A worker that gets no slot sleeps before it looks at the queue
again, so that whatever the scheduling the steps of a run are bounded by its quote checks
and by the time it takes. -/
namespace SolanaArbBot.Arbitrage
open Lib TemplateCache

/-- How often a worker can still sleep through by the horizon. -/
def naps (horizon now : Int) : Nat := ((horizon - now) / rateRetryBackoff).toNat

/-- The steps that an operation stands for: itself, and what the workers do with an item or
a permit before one of them sleeps. -/
def Effect.work : Effect → Nat
  | .enqueue _ _ | .requeue _ => 11
  | .addPermit => 3
  | _ => 1

def todoWork (es : List Effect) : Nat := (es.map Effect.work).sum

section Horizon
variable (horizon : Int)

/-- The steps that a thread may still take from where it stands until the horizon, other
than with items that it has yet to find in the queue. -/
def Pc.work (now : Int) : Pc → Nat
  | .awaitQuote1 _ _ _ => 39
  | .awaitQuote2 _ _ _ _ => 38
  | .passed _ => 34
  | .handle _ => 33
  | .look .first _ _ => 32
  | .promote .first _ _ => 31
  | .checkHops _ => 30
  | .hopIndex _ => 28
  | .look .second _ _ => 27
  | .promote .second _ _ => 26
  | .fallback _ => 25
  | .awaitSwapIxs _ => 23
  | .done => 0
  | .idle => 11 + 12 * naps horizon now
  | .acquired => 12 + 12 * naps horizon now
  | .popped _ => 20 + 12 * naps horizon now
  | .askJito _ => 19 + 12 * naps horizon now
  | .askGrpc _ => 18 + 12 * naps horizon now
  | .backoff => 1 + 12 * naps horizon now
  | .sleeping wake => if wake ≤ horizon then 12 * (naps horizon wake + 1) else 0
  | .building _ _ _ => 17 + 12 * naps horizon now
  | .ready _ _ _ => 15 + 12 * naps horizon now
  | .awaitBundle => 14 + 12 * naps horizon now

def Shared.work (s : Shared) : Nat := 10 * s.lifo.length + 2 * s.permits

def Thread.work (now : Int) (t : Thread) : Nat := todoWork t.todo + t.pc.work horizon now

def State.work (p : State) : Nat := p.total Shared.work (Thread.work horizon p.shared.now)

end Horizon

variable {cfg : Config} {horizon now now' : Int} {s s' : Shared} {pc pc' : Pc} {es : List Effect}
  {p p' : State} {a : Action}

theorem todoWork_cons (e : Effect) (es : List Effect) : todoWork (e :: es) = e.work + todoWork es := by
  rw [todoWork, List.map_cons, List.sum_cons, todoWork]

theorem todoWork_append (es es' : List Effect) : todoWork (es ++ es') = todoWork es + todoWork es' := by
  rw [todoWork, List.map_append, List.sum_append, todoWork, todoWork]

theorem todoWork_serveFromRam (sig : Sig) (ix : SwapInstructionsResponse) (hopCount : Nat) :
    todoWork (serveFromRam sig ix hopCount) = 20 := rfl

theorem todoWork_swapIxsFailed (job : Job) (fetchMs : Nat) (e : SwapIxError) :
    todoWork (afterSwapIxs cfg job fetchMs (.error e)) = 3 := rfl

theorem todoWork_countDropped (reason : Counter) : todoWork (countDropped reason) = 2 := rfl

theorem todoWork_countToken (cfg : Config) (mint : String) (c : TokenCounter) (n : Nat) :
    todoWork (countToken cfg mint c n) ≤ 1 := by
  unfold countToken
  split
  · exact le_rfl
  · exact Nat.zero_le 1

theorem todoWork_countQuoted (cfg : Config) (mint : String) : todoWork (countQuoted cfg mint) ≤ 2 := by
  have h := todoWork_countToken cfg mint .routeOk 1
  rw [countQuoted, todoWork_cons]
  exact Nat.add_le_add_left h 1

theorem todoWork_putBack (item : ReadyInstruction) : todoWork (putBack item) ≤ 16 := by
  unfold putBack
  split
  · exact (by decide : 15 ≤ 16)
  · exact le_rfl

theorem todoWork_takeFromMetis (cfg : Config) (job : Job) (ix : SwapInstructionsResponse) (fetchMs : Nat) :
    todoWork (takeFromMetis cfg job ix fetchMs) ≤ 22 := by
  unfold takeFromMetis saveRoute
  split
  · exact le_rfl
  · exact (by decide : 20 ≤ 22)

theorem naps_mono (horizon : Int) (h : now ≤ now') : naps horizon now' ≤ naps horizon now := by
  unfold naps rateRetryBackoff
  omega

/-- Going to sleep spends a nap. -/
theorem Pc.work_sleeping_le (horizon now : Int) :
    (Pc.sleeping (now + rateRetryBackoff)).work horizon now ≤ 12 * naps horizon now := by
  unfold naps
  by_cases h : now + rateRetryBackoff ≤ horizon
  · simp only [Pc.work, if_pos h, naps]
    unfold rateRetryBackoff at h ⊢
    omega
  · simp only [Pc.work, if_neg h, Nat.zero_le]

/-- Waking up is within a nap. -/
theorem Pc.work_wake_lt {wake : Int} (hw : wake ≤ now) (hnow : now ≤ horizon) :
    Pc.idle.work horizon now < (Pc.sleeping wake).work horizon now := by
  have hle := naps_mono horizon hw
  simp only [Pc.work, if_pos (hw.trans hnow)]
  omega

theorem work_run (e : Effect) (s : Shared) : Shared.work (e.run s) + 1 = Shared.work s + e.work := by
  cases e <;> simp only [Effect.run, Shared.work, Effect.work, List.length_cons] <;> omega

/-- A branch takes at least one step's worth of work. -/
theorem Advance.work (h : Advance cfg s pc s' es pc') (hnow : s.now ≤ horizon) :
    Shared.work s' + Thread.work horizon s.now ⟨es, pc'⟩ + 1 ≤
      Shared.work s + Thread.work horizon s.now ⟨[], pc⟩ := by
  have hnil : todoWork [] = 0 := rfl
  have hone (c : Counter) (n : Nat) : todoWork [.count c n] = 1 := rfl
  simp only [Thread.work, hnil, Nat.zero_add]
  cases h with
  | @noQuote1 mint | @noQuote2 mint =>
    have hc := todoWork_countToken cfg mint .routeFail 1
    simp only [Pc.work]
    omega
  | @notProfitable mint =>
    have hq := todoWork_countQuoted cfg mint
    have hc := todoWork_countToken cfg mint .notProfitable 1
    simp only [todoWork_append, Pc.work]
    omega
  | @samePool mint =>
    have hq := todoWork_countQuoted cfg mint
    have hc := todoWork_countToken cfg mint .notProfitable 1
    simp only [todoWork_append, todoWork_cons, Effect.work, Pc.work]
    omega
  | @profitable mint =>
    have hq := todoWork_countQuoted cfg mint
    have hc := todoWork_countToken cfg mint .profitable 1
    simp only [todoWork_append, Pc.work]
    omega
  | @inCold tier | @lookMissed tier | @promoteMissed tier =>
    cases tier <;> simp only [Tier.next, Pc.work, hnil, Shared.work] <;> omega
  | @lookServed tier | @promoteServed tier =>
    rw [todoWork_serveFromRam]
    cases tier <;> simp only [Pc.work, Shared.work] <;> omega
  | quote1 | passed | tryRoute | skipRoute | noHops | notIndexed | indexed | fresh | jitoGranted
  | jitoRefused | grpcGranted | submit | popNothing =>
    simp only [hnil, Pc.work, Shared.work, Shared.grant, Arbitrage.submit]
    omega
  | pairDropped | noServe | stale | buildDropped | notSent =>
    rw [todoWork_countDropped]
    simp only [Pc.work]
    omega
  | tryHops | skipHops | hopsMissing | ask | built | sent =>
    rw [hone]
    simp only [Pc.work]
    omega
  | swapIxsFailed =>
    rw [todoWork_swapIxsFailed]
    simp only [Pc.work]
    omega
  | @swapIxs job ix fetchMs =>
    have ht := todoWork_takeFromMetis cfg job ix fetchMs
    simp only [Pc.work]
    omega
  | acquire hp =>
    simp only [hnil, Pc.work, Shared.work]
    omega
  | pop hl =>
    simp only [todoWork_cons, Effect.work, hnil, Pc.work, Shared.work, hl, List.length_cons]
    omega
  | @noGrpc item | @grpcRefused item =>
    have hb := todoWork_putBack item
    simp only [Pc.work, Shared.work]
    omega
  | sleep =>
    have hs := Pc.work_sleeping_le horizon s.now
    have hb : (Pc.backoff).work horizon s.now = 1 + 12 * naps horizon s.now := rfl
    omega
  | wake hw =>
    have hlt := Pc.work_wake_lt hw hnow
    omega

/-- The steps of threads are counted, and the checks that are started. -/
def Action.isAct : Action → Bool
  | .act _ _ => true
  | _ => false

def Action.isCheck : Action → Bool
  | .check _ _ _ => true
  | _ => false

theorem Pc.work_mono (pc : Pc) (h : now ≤ now') : pc.work horizon now' ≤ pc.work horizon now := by
  have hn := naps_mono horizon h
  unfold Pc.work
  split <;> omega

/-- As time goes on there is less to do. -/
theorem work_tick (horizon : Int) (ts : List Thread) (h : now ≤ now') :
    (ts.map (Thread.work horizon now')).sum ≤ (ts.map (Thread.work horizon now)).sum := by
  apply List.sum_le_sum
  intro t _
  exact Nat.add_le_add_left (t.pc.work_mono h) _

theorem Advance.now_eq (h : Advance cfg s pc s' es pc') : s'.now = s.now := by
  cases h <;> rfl

theorem run_now (e : Effect) (s : Shared) : (e.run s).now = s.now := by
  cases e <;> rfl

/-- A step of a thread is paid for from the work, and a check brings its own. -/
theorem Moves.work (h : Moves cfg p a p') (hnow : p.shared.now ≤ horizon) :
    (if a.isAct then 1 else 0) + State.work horizon p' ≤
      State.work horizon p + if a.isCheck then 41 else 0 := by
  unfold State.work
  cases h with
  | @tick elapsed =>
    have hle : p.shared.now ≤ p.shared.now + elapsed := by omega
    have ht := work_tick horizon p.threads hle
    simp only [Action.isAct, Action.isCheck, Pool.total, Shared.work, Bool.false_eq_true, if_false]
    omega
  | @check mint amount onlyDirect =>
    have hq := todoWork_countToken cfg mint .qSent 2
    have ht : Thread.work horizon p.shared.now (quoteCheck cfg mint amount onlyDirect) ≤ 41 := by
      rw [Thread.work, quoteCheck, todoWork_cons]
      simp only [Effect.work, Pc.work]
      omega
    rw [Pool.total_spawn]
    simp only [Action.isAct, Action.isCheck, Bool.false_eq_true, if_false, if_true, Pool.spawn]
    omega
  | @effect i o e es pc hi =>
    have hshared := work_run e p.shared
    have htotal := Pool.total_update_add Shared.work (Thread.work horizon p.shared.now) hi
      (e.run p.shared) ⟨es, pc⟩
    have hnow' : (p.update i (e.run p.shared) ⟨es, pc⟩).shared.now = p.shared.now := run_now e p.shared
    rw [hnow']
    simp only [Thread.work, todoWork_cons] at htotal
    simp only [Action.isAct, Action.isCheck, Bool.false_eq_true, if_false, if_true]
    omega
  | @advance i o pc s' es pc' hi ha =>
    have hwork := ha.work hnow
    have htotal := Pool.total_update_add Shared.work (Thread.work horizon p.shared.now) hi s' ⟨es, pc'⟩
    have hnow' : (p.update i s' ⟨es, pc'⟩).shared.now = p.shared.now := ha.now_eq
    rw [hnow']
    simp only [Action.isAct, Action.isCheck, Bool.false_eq_true, if_false, if_true]
    omega

theorem Moves.now_le (h : Moves cfg p a p') : p.shared.now ≤ p'.shared.now := by
  cases h with
  | tick =>
    dsimp only
    omega
  | check => exact le_rfl
  | effect => exact (run_now _ _).ge
  | advance _ ha => exact ha.now_eq.ge

theorem IsRun.now_le {tr : List (Action × State)} (h : IsRun cfg p tr) :
    p.shared.now ≤ (lastState p tr).shared.now := by
  induction tr generalizing p with
  | nil => exact le_rfl
  | cons e tr ih => exact (step_cases h.1).now_le.trans (ih h.2)

/-- Every state of a run is no later than its end. -/
theorem IsRun.now_le_last {tr : List (Action × State)} (h : IsRun cfg p tr) :
    AllSteps (fun q a q' => Moves cfg q a q' ∧ q.shared.now ≤ (lastState p tr).shared.now) p tr := by
  induction tr generalizing p with
  | nil => trivial
  | cons e tr ih =>
    have hle : e.2.shared.now ≤ (lastState e.2 tr).shared.now := IsRun.now_le h.2
    exact ⟨⟨step_cases h.1, (step_cases h.1).now_le.trans hle⟩, ih h.2⟩

theorem work_start (cfg : Config) (horizon : Int) (store : StoreInner) (now : Int) :
    State.work horizon (start cfg store now) = max cfg.calcWorkers 1 * (11 + 12 * naps horizon now) := by
  have hidle : Thread.work horizon now ⟨[], .idle⟩ = 11 + 12 * naps horizon now := Nat.zero_add _
  change 0 + ((List.replicate (max cfg.calcWorkers 1) ⟨[], .idle⟩).map (Thread.work horizon now)).sum = _
  rw [List.map_replicate, List.sum_replicate, hidle, Nat.zero_add, smul_eq_mul]

/-! How often a worker puts an item back. -/

def Effect.isRequeue : Effect → Bool
  | .requeue _ => true
  | _ => false

/-- How often a thread may still decide to put an item back until the horizon. -/
def Pc.requeues (horizon now : Int) : Pc → Nat
  | .idle | .acquired | .popped _ | .askJito _ | .askGrpc _ | .building _ _ _ | .ready _ _ _ | .awaitBundle =>
    1 + naps horizon now
  | .backoff => naps horizon now
  | .sleeping wake => if wake ≤ horizon then 1 + naps horizon wake else 0
  | _ => 0

def Thread.requeues (horizon now : Int) (t : Thread) : Nat :=
  t.todo.countP Effect.isRequeue + t.pc.requeues horizon now

def State.requeues (horizon : Int) (i : Nat) (p : State) : Nat :=
  ((p.threads[i]?).map (Thread.requeues horizon p.shared.now)).getD 0

def putsBack (i : Nat) (p : State) : Action → Bool
  | .act j _ => decide (j = i) && (p.threads[i]?).any fun t => t.todo.head?.any Effect.isRequeue
  | _ => false

theorem Pc.requeues_mono (pc : Pc) (h : now ≤ now') : pc.requeues horizon now' ≤ pc.requeues horizon now := by
  have hn := naps_mono horizon h
  unfold Pc.requeues
  split <;> omega

private theorem requeues_countToken (cfg : Config) (mint : String) (c : TokenCounter) (n : Nat) :
    (countToken cfg mint c n).countP Effect.isRequeue = 0 := by
  unfold countToken
  split <;> rfl

private theorem requeues_putBack (item : ReadyInstruction) : (putBack item).countP Effect.isRequeue = 1 := by
  unfold putBack
  split <;> rfl

private theorem requeues_takeFromMetis (cfg : Config) (job : Job) (ix : SwapInstructionsResponse)
    (fetchMs : Nat) : (takeFromMetis cfg job ix fetchMs).countP Effect.isRequeue = 0 := by
  unfold takeFromMetis saveRoute
  split <;> rfl

/-- A worker that has put an item back sleeps before it can put back another. -/
theorem Advance.requeues (h : Advance cfg s pc s' es pc') (hnow : s.now ≤ horizon) :
    Thread.requeues horizon s.now ⟨es, pc'⟩ ≤ pc.requeues horizon s.now := by
  unfold Thread.requeues
  dsimp only
  cases h with
  | noQuote1 | noQuote2 =>
    rw [requeues_countToken]
    exact Nat.le_refl 0
  | notProfitable | samePool | profitable =>
    simp [countQuoted, requeues_countToken, Effect.isRequeue, Pc.requeues]
  | inCold | lookMissed | promoteMissed =>
    next tier _ _ => cases tier <;> exact Nat.le_refl 0
  | swapIxs =>
    rw [requeues_takeFromMetis]
    exact Nat.le_refl 0
  | noGrpc | grpcRefused =>
    rw [requeues_putBack]
    exact Nat.le_refl _
  | sleep =>
    simp only [Pc.requeues, List.countP_nil, Nat.zero_add]
    unfold naps rateRetryBackoff
    split <;> omega
  | @wake wake hw =>
    have hle := naps_mono horizon hw
    simp only [Pc.requeues, List.countP_nil, Nat.zero_add, if_pos (hw.trans hnow)]
    omega
  | _ => exact (Nat.zero_add _).le

/-- A step in which the thread puts an item back leaves it one less to put back. -/
theorem Moves.requeues (h : Moves cfg p a p') (hnow : p.shared.now ≤ horizon) (i : Nat) :
    (if putsBack i p a then 1 else 0) + State.requeues horizon i p' ≤ State.requeues horizon i p := by
  unfold State.requeues
  cases h with
  | @tick elapsed =>
    have hle : p.shared.now ≤ p.shared.now + elapsed := by omega
    simp only [putsBack, Bool.false_eq_true, if_false, Nat.zero_add]
    cases p.threads[i]? with
    | none => exact le_rfl
    | some t => exact Nat.add_le_add_left (t.pc.requeues_mono hle) _
  | @check mint amount onlyDirect =>
    simp only [putsBack, Bool.false_eq_true, if_false, Nat.zero_add]
    cases ht : (p.spawn (quoteCheck cfg mint amount onlyDirect)).threads[i]? with
    | none => exact Nat.zero_le _
    | some t =>
      rcases Pool.getElem?_spawn ht with ⟨_, rfl⟩ | hi
      · have hnone := requeues_countToken cfg mint .qSent 2
        simp [Thread.requeues, quoteCheck, Effect.isRequeue, Pc.requeues, hnone]
      · rw [hi]
        exact le_rfl
  | @effect j o e es pc hj =>
    have hsame : (p.update j (e.run p.shared) ⟨es, pc⟩).shared.now = p.shared.now := run_now e p.shared
    rw [hsame]
    by_cases hji : j = i
    · subst hji
      simp only [putsBack, hj, Pool.getElem?_update_self hj, decide_true, Bool.true_and, Option.any_some,
        List.head?_cons, Option.map_some, Option.getD_some, Thread.requeues, List.countP_cons]
      omega
    · simp only [putsBack, Pool.getElem?_update_ne hji, hji, decide_false, Bool.false_and, Bool.false_eq_true,
        if_false, Nat.zero_add, le_refl]
  | @advance j o pc s' es pc' hj ha =>
    have hsame : (p.update j s' ⟨es, pc'⟩).shared.now = p.shared.now := ha.now_eq
    rw [hsame]
    by_cases hji : j = i
    · subst hji
      have hle := ha.requeues hnow
      simp only [putsBack, hj, Pool.getElem?_update_self hj, Option.any_some, List.head?_nil, Option.any_none,
        Bool.and_false, Bool.false_eq_true, if_false, Nat.zero_add, Option.map_some, Option.getD_some]
      exact hle.trans (Nat.le_add_left _ _)
    · simp only [putsBack, Pool.getElem?_update_ne hji, hji, decide_false, Bool.false_and, Bool.false_eq_true,
        if_false, Nat.zero_add, le_refl]

theorem requeues_start_le (cfg : Config) (horizon : Int) (i : Nat) (store : StoreInner) (now : Int) :
    State.requeues horizon i (start cfg store now) ≤ 1 + naps horizon now := by
  unfold State.requeues
  cases hi : (start cfg store now).threads[i]? with
  | none => exact Nat.zero_le _
  | some t =>
    have ht : t = ⟨[], .idle⟩ := List.eq_of_mem_replicate (List.mem_of_getElem? hi)
    rw [ht]
    exact (Nat.zero_add _).le

/-- However the threads are scheduled and whatever they wait for, the steps of a run are
bounded by a constant for each quote check and for each backoff period that passes and each
worker, and no thread puts items back more often than once and for each such period. -/
theorem work_bounded {store : StoreInner} {now : Int} {tr : List (Action × State)}
    (h : IsRun cfg (start cfg store now) tr) :
    (labels tr).countP Action.isAct ≤ 41 * (labels tr).countP Action.isCheck +
      max cfg.calcWorkers 1 *
        (11 + 12 * (((lastState (start cfg store now) tr).shared.now - now) / rateRetryBackoff).toNat) ∧
    ∀ i, charge (fun p a => if putsBack i p a then 1 else 0) (start cfg store now) tr ≤
      1 + (((lastState (start cfg store now) tr).shared.now - now) / rateRetryBackoff).toNat := by
  let horizon := (lastState (start cfg store now) tr).shared.now
  constructor
  · have hstep : ∀ p a p', Moves cfg p a p' ∧ p.shared.now ≤ horizon →
        (if a.isAct then 1 else 0) + State.work horizon p' ≤
          State.work horizon p + if a.isCheck then 41 else 0 := fun _ _ _ hs => hs.1.work hs.2
    have hpaid := h.now_le_last.paid hstep
    rw [charge_countP, charge_countP, Nat.one_mul] at hpaid
    have hstart := work_start cfg horizon store now
    unfold naps at hstart
    dsimp only [horizon] at hpaid hstart
    omega
  · intro i
    have hstep : ∀ p a p', Moves cfg p a p' ∧ p.shared.now ≤ horizon →
        (if putsBack i p a then 1 else 0) + State.requeues horizon i p' ≤ State.requeues horizon i p + 0 :=
      fun _ _ _ hs => hs.1.requeues hs.2 i
    have hpaid := h.now_le_last.paid hstep
    rw [charge_zero] at hpaid
    have hstart := requeues_start_le cfg horizon i store now
    unfold naps at hstart
    dsimp only [horizon] at hpaid hstart
    omega

/-- Two workers, a trade that waits for a slot, and a tenth of a second. -/
def waiting : List Action :=
  sampleTrade 2 ++ sampleTrade 3 ++ sampleAcquire 0 ++ sampleAcquire 1 ++ List.replicate 6 (.act 1 .go) ++
    [.tick 100000000, .act 1 .go]

theorem work_bounded_waiting :
    (labels (sampleTrace waiting)).countP Action.isAct ≤ 41 * 2 + 2 * (11 + 12 * 5) ∧
    ∀ i, charge (fun p a => if putsBack i p a then 1 else 0) (start sampleConfig .new 0) (sampleTrace waiting) ≤
      1 + 5 := by
  have h := work_bounded (trace_isRun sampleConfig (start sampleConfig .new 0) waiting)
  have hchecks : (labels (sampleTrace waiting)).countP Action.isCheck = 2 := by decide +kernel
  have hlast : (lastState (start sampleConfig .new 0) (sampleTrace waiting)).shared.now = 100000000 := by
    decide +kernel
  unfold sampleTrace at hchecks hlast ⊢
  rw [hchecks, hlast] at h
  exact h

end SolanaArbBot.Arbitrage
