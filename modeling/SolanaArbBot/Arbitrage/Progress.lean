import SolanaArbBot.Arbitrage.CachedService
import SolanaArbBot.Arbitrage.Queue
import SolanaArbBot.Arbitrage.Work
import SolanaArbBot.TemplateCache.Offsets

/-! When the bot comes to rest. A thread that is not done and not a resting worker can
always go on, lookups included, since no template that was stored panics when it serves. -/
namespace SolanaArbBot.Arbitrage
open Lib TemplateCache

/-! Serving without a panic. -/

def InMemory (ix : SwapInstructionsResponse) : Prop :=
  ∀ d, Base64.decode ix.swapInstruction.data = some d → d.length < 2 ^ 64

/-- The template looks for its amounts where they stand in its own data. -/
structure Located (t : RouteTemplate) : Prop where
  inMemory : InMemory t.swapIxs
  inOffset : t.inAmountOffset =
    (responseOffsets t.swapIxs t.templateInAmount t.templateQuotedOut).map Prod.fst
  outOffset : t.quotedOutOffset =
    (responseOffsets t.swapIxs t.templateInAmount t.templateQuotedOut).map Prod.snd

private theorem responseOffsets_le {ix : SwapInstructionsResponse} {a q : UInt64} {inOff outOff : Nat}
    (h : responseOffsets ix a q = some (inOff, outOff)) :
    outOff = inOff + 8 ∧ ∃ d, Base64.decode ix.swapInstruction.data = some d ∧ inOff + 16 ≤ d.length := by
  obtain ⟨d, hd, hfound⟩ := Option.bind_eq_some_iff.mp h
  obtain ⟨hout, hat⟩ := discoverOffsets_eq_some.mp hfound
  refine ⟨hout, d, hd, ?_⟩
  rcases hat with ⟨hpair, _⟩ | ⟨_, hin, _⟩
  · have hle := hpair.1
    rw [List.length_append, leBytes_length, leBytes_length] at hle
    exact hle
  · exact hin.2

private theorem copyIntoSlice_ok (data : List UInt8) {w : List UInt8} {off : Nat} (hw : w.length = 8)
    (h : off + 8 ≤ data.length) (hd : data.length < 2 ^ 64) :
    copyIntoSlice data off (usizeAdd off 8) w = .ok (splice data off w) ∧
      (splice data off w).length = data.length := by
  have hadd : usizeAdd off 8 = off + 8 := Nat.mod_eq_of_lt (by omega)
  rw [copyIntoSlice, hadd, if_pos ⟨Nat.le_add_right _ _, h⟩]
  exact ⟨rfl, splice_length _ _ _ (by omega)⟩

private theorem patchAmountsB64_ok {dataB64 : String} {d : List UInt8} {off : Nat} (newIn newOut : UInt64)
    (hd : Base64.decode dataB64 = some d) (hle : off + 16 ≤ d.length) (hlt : d.length < 2 ^ 64) :
    ∃ r, patchAmountsB64 dataB64 off (off + 8) newIn newOut = .ok r := by
  obtain ⟨hin, hlen⟩ := copyIntoSlice_ok d (leBytes_length newIn) (by omega : off + 8 ≤ d.length) hlt
  obtain ⟨hout, _⟩ := copyIntoSlice_ok (splice d off (leBytes newIn)) (leBytes_length newOut)
    (by omega : off + 8 + 8 ≤ _) (by omega)
  simp only [patchAmountsB64, hd]
  split
  · exact ⟨_, rfl⟩
  · refine ⟨some (Base64.encode (splice (splice d off (leBytes newIn)) (off + 8) (leBytes newOut))), ?_⟩
    rw [hin]
    exact congrArg (fun x => x.bind fun data => .ok (some (Base64.encode data))) hout

/-- A template that looks in its own data serves every amount, or declines. -/
theorem Located.serves {t : RouteTemplate} (h : Located t) (amount newOut : UInt64) :
    ∃ r, TemplateCache.serveRoute t amount newOut = .ok r := by
  unfold TemplateCache.serveRoute
  split
  · exact ⟨_, rfl⟩
  · split
    · next inOff outOff hi ho =>
      rw [h.inOffset] at hi
      rw [h.outOffset] at ho
      obtain ⟨⟨inOff', outOff'⟩, hfound, rfl⟩ := Option.map_eq_some_iff.mp hi
      rw [hfound] at ho
      cases ho
      obtain ⟨hout, d, hd, hle⟩ := responseOffsets_le hfound
      obtain ⟨r, hr⟩ := patchAmountsB64_ok amount (amount + (t.templateQuotedOut - t.templateInAmount)) hd
        hle (h.inMemory d hd)
      rw [← hout] at hr
      dsimp only
      rw [hr]
      cases r with
      | none => exact ⟨_, rfl⟩
      | some data => exact ⟨_, rfl⟩
    · exact ⟨_, rfl⟩

/-! Every lookup of the bot serves or goes on. -/

def InsertsInMemory (op : Op) : Prop := ∀ sig ix a q plan, op = .insertRoute sig ix a q plan → InMemory ix

def RepliesInMemory (_ : State) (a : Action) : Prop :=
  ∀ i ix fetchMs, a = .act i (.swapIxs (.ok ix) fetchMs) → InMemory ix

theorem insertsInMemory_insertsOnly : InsertsOnly InsertsInMemory :=
  fun _ h sig ix a q plan he => absurd he (h sig ix a q plan)

theorem RepliesInMemory.repliesWell {p : State} {a : Action} (h : RepliesInMemory p a) :
    RepliesWell InsertsInMemory p a := by
  intro i job ix fetchMs ha _ _ sig ix' a' q plan he
  cases he
  exact h i ix fetchMs ha

theorem LeftBy.located {g : StoreInner} (h : LeftBy InsertsInMemory g) {sig : Sig} {t : RouteTemplate}
    (hf : g.find sig = some t) : Located t := by
  obtain ⟨tr, hrun, rfl, hall⟩ := h
  have hprov := hrun.provenance hf
  obtain ⟨plan, hm⟩ := hprov.base
  exact ⟨hall _ hm _ _ _ _ _ rfl, hprov.inOffset, hprov.outOffset⟩

/-- The thread is done, is an idle worker without a permit, or sleeps. -/
def Rests (s : Shared) (t : Thread) : Prop :=
  t.todo = [] ∧ (t.pc = .done ∨ (t.pc = .idle ∧ s.permits = 0) ∨
    ∃ wake, t.pc = .sleeping wake ∧ s.now < wake)

/-- Whether a thread stands still here, as a test. -/
def Pc.still (s : Shared) : Pc → Bool
  | .done => true
  | .idle => s.permits == 0
  | .sleeping wake => s.now < wake
  | _ => false

instance (s : Shared) (t : Thread) : Decidable (Rests s t) :=
  decidable_of_iff (t.todo.isEmpty ∧ t.pc.still s) (by
    obtain ⟨todo, pc⟩ := t
    cases pc <;> simp [Rests, Pc.still])

section Blocked
variable {s : Shared}

private theorem serveFound_isSome {tier : Tier} {job : Job} {sig : Sig} {r : Option RouteTemplate}
    (h : ∀ t ∈ r, Located t) : (serveFound tier job sig r).isSome := by
  cases r with
  | none => rfl
  | some t =>
    obtain ⟨r, hr⟩ := (h t rfl).serves job.pair.amount (onChainFloor job.pair.amount)
    simp only [serveFound, hr]
    cases r <;> rfl

private theorem promoted_located (h : LeftBy InsertsInMemory s.store) {sig : Sig} :
    ∀ t ∈ (getRouteWrite s.store sig).2, Located t := by
  intro t ht
  rcases getRouteWrite_cases s.store sig with ⟨_, he⟩ | ⟨u, hc, he⟩
  · rw [he] at ht
    exact h.located (StoreInner.Inv.find_hot ht)
  · rw [he] at ht
    cases ht
    have hu := h.located (h.inv.find_cold hc)
    exact ⟨hu.inMemory, hu.inOffset, hu.outOffset⟩

/-- A thread that does not rest can go on with some outcome. -/
theorem advance_isSome (cfg : Config) (h : LeftBy InsertsInMemory s.store) {pc : Pc}
    (hpc : ¬ Rests s ⟨[], pc⟩) :
    ∃ o, (advance cfg s pc o).isSome := by
  cases pc with
  | awaitQuote1 | awaitQuote2 => exact ⟨.quote none, rfl⟩
  | awaitSwapIxs => exact ⟨.swapIxs (.error .timeout) 0, rfl⟩
  | building => exact ⟨.built none, rfl⟩
  | awaitBundle => exact ⟨.bundle true, rfl⟩
  | done => exact absurd ⟨rfl, Or.inl rfl⟩ hpc
  | idle =>
    have hpos : 0 < s.permits := by
      by_contra hno
      exact hpc ⟨rfl, Or.inr (Or.inl ⟨rfl, by omega⟩)⟩
    exact ⟨.go, by simp only [advance, if_pos hpos, Option.isSome_some]⟩
  | sleeping wake =>
    have hwake : wake ≤ s.now := by
      by_contra hno
      exact hpc ⟨rfl, Or.inr (Or.inr ⟨wake, rfl, by omega⟩)⟩
    exact ⟨.go, by simp only [advance, if_pos hwake, Option.isSome_some]⟩
  | look tier job sig =>
    refine ⟨.go, ?_⟩
    cases hr : getRouteRead s.store sig with
    | inCold => simp only [advance, hr, Option.isSome_some]
    | answer r =>
      have hfound : ∀ t ∈ r, Located t := by
        intro t ht
        rw [(getRouteRead_answer hr).1] at ht
        exact h.located ht
      simp only [advance, hr, Option.isSome_map]
      exact serveFound_isSome hfound
  | promote tier job sig =>
    refine ⟨.go, ?_⟩
    simp only [advance, Option.isSome_map]
    exact serveFound_isSome (promoted_located h)
  | hopIndex job =>
    refine ⟨.go, ?_⟩
    simp only [advance]
    split <;> rfl
  | fallback job =>
    refine ⟨.go, ?_⟩
    simp only [advance]
    split <;> rfl
  | acquired =>
    refine ⟨.go, ?_⟩
    simp only [advance]
    split <;> rfl
  | _ => exact ⟨.go, rfl⟩

theorem step_isSome (cfg : Config) {p : State} (h : LeftBy InsertsInMemory p.shared.store) {i : Nat}
    {t : Thread} (hi : p.threads[i]? = some t) (ht : ¬ Rests p.shared t) : ∃ o, (step cfg p (.act i o)).isSome := by
  obtain ⟨todo, pc⟩ := t
  cases todo with
  | cons e es => exact ⟨.go, by simp only [step, hi, Option.isSome_some]⟩
  | nil =>
    obtain ⟨o, ho⟩ := advance_isSome cfg h ht
    exact ⟨o, by simp only [step, hi, Option.isSome_map, ho]⟩

end Blocked

/-- No thread can take a step, whatever it gets from outside. -/
def Blocked (cfg : Config) (p : State) : Prop := ∀ i o, step cfg p (.act i o) = none

theorem blocked_of_rests {cfg : Config} {p : State} (h : ∀ t ∈ p.threads, Rests p.shared t) :
    Blocked cfg p := by
  intro i o
  cases hi : p.threads[i]? with
  | none => simp only [step, hi]
  | some t =>
    obtain ⟨todo, pc⟩ := t
    obtain ⟨rfl, hpc⟩ := h _ (List.mem_of_getElem? hi)
    have hnone : advance cfg p.shared pc o = none := by
      rcases hpc with rfl | ⟨rfl, hpermits⟩ | ⟨wake, rfl, hwake⟩
      · cases o <;> rfl
      · cases o <;> simp [advance, hpermits]
      · cases o <;> simp [advance, hwake]
    simp only [step, hi, hnone, Option.map_none]

/-! The workers. -/

def Pc.isWorker : Pc → Bool
  | .idle | .acquired | .popped _ | .askJito _ | .askGrpc _ | .backoff | .sleeping _ => true
  | .building _ _ _ | .ready _ _ _ | .awaitBundle => true
  | _ => false

/-- The first threads are the workers, and no pause is longer than the backoff. -/
structure Staffed (cfg : Config) (p : State) : Prop where
  enough : max cfg.calcWorkers 1 ≤ p.threads.length
  workers : ∀ i t, i < max cfg.calcWorkers 1 → p.threads[i]? = some t → t.pc.isWorker
  pauses : ∀ t ∈ p.threads, ∀ wake, t.pc = .sleeping wake → wake ≤ p.shared.now + rateRetryBackoff

section Workers
variable {cfg : Config} {s s' : Shared} {pc pc' : Pc} {es : List Effect} {p p' : State} {a : Action}

theorem Advance.isWorker (h : Advance cfg s pc s' es pc') (hpc : pc.isWorker) : pc'.isWorker := by
  cases h <;> first | rfl | cases hpc

theorem Advance.pauses (h : Advance cfg s pc s' es pc') {wake : Int} (hpc : pc' = .sleeping wake) :
    wake = s.now + rateRetryBackoff := by
  cases h with
  | sleep =>
    cases hpc
    rfl
  | @lookMissed tier | @promoteMissed tier => cases tier <;> cases hpc
  | _ => cases hpc

theorem Staffed.start (cfg : Config) (store : StoreInner) (now : Int) :
    Staffed cfg (Arbitrage.start cfg store now) where
  enough := (List.length_replicate ..).ge
  workers i t _ ht := by
    rw [List.eq_of_mem_replicate (List.mem_of_getElem? ht)]
    rfl
  pauses t ht wake hpc := by
    rw [List.eq_of_mem_replicate ht] at hpc
    cases hpc

theorem Staffed.step (h : Staffed cfg p) (hs : Moves cfg p a p') : Staffed cfg p' where
  enough := by
    have henough := h.enough
    cases hs with
    | tick => exact henough
    | check =>
      rw [Pool.spawn, List.length_append]
      exact henough.trans (Nat.le_add_right _ _)
    | effect | advance =>
      rw [Pool.update, List.length_set]
      exact henough
  workers i t hlt ht := by
    cases hs with
    | tick => exact h.workers i t hlt ht
    | check =>
      rcases Pool.getElem?_spawn ht with ⟨rfl, _⟩ | ht
      · exact absurd (hlt.trans_le h.enough) (Nat.lt_irrefl _)
      · exact h.workers i t hlt ht
    | effect hi =>
      rcases Pool.getElem?_update ht with ⟨rfl, rfl⟩ | ht
      · have hworker := h.workers i _ hlt hi
        exact hworker
      · exact h.workers i t hlt ht
    | advance hi ha =>
      rcases Pool.getElem?_update ht with ⟨rfl, rfl⟩ | ht
      · exact ha.isWorker (h.workers i _ hlt hi)
      · exact h.workers i t hlt ht
  pauses t ht wake hpc := by
    have hlater := hs.now_le
    have hold : t ∈ p.threads → wake ≤ p'.shared.now + rateRetryBackoff := by
      intro ht
      have hle := h.pauses t ht wake hpc
      omega
    cases hs with
    | tick => exact hold ht
    | check =>
      rcases List.mem_append.mp ht with ht | ht
      · exact hold ht
      · rw [List.mem_singleton.mp ht] at hpc
        cases hpc
    | effect hi =>
      rcases Pool.mem_set ht with rfl | ht
      · have hle := h.pauses _ (List.mem_of_getElem? hi) wake hpc
        omega
      · exact hold ht
    | advance hi ha =>
      rcases Pool.mem_set ht with rfl | ht
      · have heq := ha.pauses hpc
        omega
      · exact hold ht

end Workers

/-- A rate of one a second: two trades, one is sent, and the other waits for a slot. -/
def asleep : List Action :=
  sampleTrade 2 ++ sampleTrade 3 ++ sampleAcquire 0 ++ sampleSend 0 ++ List.replicate 11 (.act 0 .go) ++
    List.replicate 10 (.act 1 .go)

end SolanaArbBot.Arbitrage
