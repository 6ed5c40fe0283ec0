import SolanaArbBot.Arbitrage.SubmissionRate

/-! What becomes of the slots that the limiters grant. A worker takes its slot
before the build, and an item that the build turns down takes the slot with it. -/
namespace SolanaArbBot.Arbitrage
open Lib TemplateCache

/-- The transaction failed to build, locks too many accounts or does not fit a packet. -/
def unfit : Option BuiltTx → Bool
  | none => true
  | some tx =>
    decide (maxAccountLocks < tx.locks) || (tx.size.map fun size => decide (packetSize < size)).getD true

/-- A worker that holds a slot learns that its transaction cannot be sent. -/
def wastesSlot (p : State) : Action → Bool
  | .act i (.built r) =>
    match p.threads[i]? with
    | some ⟨[], .building _ _ _⟩ => unfit r
    | _ => false
  | _ => false

def Pc.holdsSlot : Pc → Bool
  | .building _ _ _ => true
  | .ready _ _ _ => true
  | _ => false

/-- As many slots granted on each path as submissions made. -/
def SlotsSpent (s : Shared) : Prop := ∀ path, (s.granted path).length = (s.sentOn path).length

section Total
variable (cfg : Config) (path : Path)

def slotTotal (p : State) : Int :=
  p.total (Shared.slots path fun _ => true) fun t => t.pc.slots cfg path fun _ => true

theorem slotTotal_quiet {p : State} (h : ∀ t ∈ p.threads, t.pc.holdsSlot = false) :
    slotTotal cfg path p = (p.shared.sentOn path).length - (p.shared.granted path).length := by
  have hz : (p.threads.map fun t => t.pc.slots cfg path fun _ => true).sum = 0 := by
    apply Pool.sum_eq_zero
    intro t ht
    have hh := h t ht
    cases hpc : t.pc with
    | building | ready => rw [hpc] at hh; cases hh
    | _ => rfl
  rw [slotTotal, Pool.total, hz, add_zero, Shared.slots, List.countP_true, List.length_map]

end Total

variable {cfg : Config} {p p' : State} {a : Action}

private theorem afterBuild_pc {item : ReadyInstruction} {useGrpc : Bool} {t : Int}
    (r : Option BuiltTx) :
    (afterBuild item useGrpc t r).2 = if unfit r then .idle else .ready item useGrpc t := by
  cases r with
  | none => rfl
  | some tx =>
    obtain ⟨locks, size⟩ := tx
    by_cases hl : maxAccountLocks < locks
    · simp [afterBuild, unfit, hl]
    · cases size with
      | none => simp [afterBuild, unfit, hl]
      | some size => by_cases hs : packetSize < size <;> simp [afterBuild, unfit, hl, hs]

private theorem step_building {i : Nat} {o : Outcome} {item : ReadyInstruction} {useGrpc : Bool}
    {t : Int} (hi : p.threads[i]? = some ⟨[], .building item useGrpc t⟩)
    (h : step cfg p (.act i o) = some p') :
    ∃ r, o = .built r ∧ p' = p.update i p.shared
      ⟨(afterBuild item useGrpc t r).1, (afterBuild item useGrpc t r).2⟩ := by
  rw [step, hi] at h
  cases o with
  | built r =>
    cases h
    exact ⟨r, rfl, rfl⟩
  | _ => cases h

def NoneWasted (cfg : Config) (p : State) : Prop := ∀ path, slotTotal cfg path p = 0

theorem NoneWasted.init (store : StoreInner) (now : Int) : NoneWasted cfg (start cfg store now) := by
  intro path
  have hq : ∀ t ∈ (start cfg store now).threads, t.pc.holdsSlot = false := by
    intro t ht
    rw [List.eq_of_mem_replicate ht]
    rfl
  rw [slotTotal_quiet cfg path hq]
  rfl

private theorem wastesSlot_of_thread {i : Nat} {t : Thread} (o : Outcome) (hi : p.threads[i]? = some t)
    (ht : ∀ item useGrpc at', t ≠ ⟨[], .building item useGrpc at'⟩) : wastesSlot p (.act i o) = false := by
  cases o with
  | built r =>
    simp only [wastesSlot, hi]
    split
    · next he => exact absurd (Option.some.inj he) (ht _ _ _)
    · rfl
  | _ => rfl

private theorem noneWasted_built (hg : Granted cfg p) {i : Nat} {item : ReadyInstruction}
    {useGrpc : Bool} {t : Int} (hi : p.threads[i]? = some ⟨[], .building item useGrpc t⟩)
    (r : Option BuiltTx) :
    NoneWasted cfg (p.update i p.shared
      ⟨(afterBuild item useGrpc t r).1, (afterBuild item useGrpc t r).2⟩) ↔
      NoneWasted cfg p ∧ unfit r = false := by
  have htotal (path : Path) : slotTotal cfg path (p.update i p.shared _) + _ = slotTotal cfg path p + _ :=
    Pool.total_update_add (Shared.slots path fun _ => true)
      (fun t => t.pc.slots cfg path fun _ => true) hi p.shared
      ⟨(afterBuild item useGrpc t r).1, (afterBuild item useGrpc t r).2⟩
  simp only [afterBuild_pc] at htotal ⊢
  cases hr : unfit r with
  | false =>
    simp only [hr, Bool.false_eq_true, if_false] at htotal ⊢
    have hkeep (path : Path) := add_right_cancel (htotal path)
    rw [and_true]
    exact forall_congr' fun path => by rw [hkeep path]
  | true =>
    refine iff_of_false ?_ fun h => Bool.noConfusion h.2
    intro h
    have hpath := htotal (submitPath cfg useGrpc)
    have hle : slotTotal cfg (submitPath cfg useGrpc) p ≤ 0 := hg.covers _ _
    have hz := h (submitPath cfg useGrpc)
    have hheld : Pc.slots cfg (submitPath cfg useGrpc) (fun _ => true)
        (.building item useGrpc t) = 1 := if_pos ⟨rfl, rfl⟩
    have hidle : Pc.slots cfg (submitPath cfg useGrpc) (fun _ => true) .idle = 0 := rfl
    rw [hr, if_pos rfl, hheld, hidle] at hpath
    rw [if_pos rfl] at hz
    omega

/-- No step makes up for a wasted slot, and only the end of a build wastes one. -/
theorem NoneWasted.step_iff (hg : Granted cfg p) (h : step cfg p a = some p') :
    NoneWasted cfg p' ↔ NoneWasted cfg p ∧ wastesSlot p a = false := by
  have hkeep (hw : wastesSlot p a = false) (ht : ∀ path, slotTotal cfg path p' = slotTotal cfg path p) :
      NoneWasted cfg p' ↔ NoneWasted cfg p ∧ wastesSlot p a = false := by
    rw [and_iff_left hw]
    exact forall_congr' fun path => by rw [ht path]
  cases step_cases h with
  | tick => exact hkeep rfl fun _ => rfl
  | check =>
    apply hkeep rfl
    intro path
    rw [slotTotal, Pool.total_spawn]
    exact add_zero _
  | @effect i o e es pc hi =>
    apply hkeep (wastesSlot_of_thread o hi fun _ _ _ he => by cases he)
    intro path
    apply Pool.total_update hi
    cases e <;> rfl
  | @advance i o pc s' es pc' hi ha =>
    by_cases hb : ∀ item useGrpc t, pc ≠ .building item useGrpc t
    · apply hkeep (wastesSlot_of_thread o hi ?_)
      · intro path
        exact Pool.total_update hi (slots_advance_eq path _ hg.limits ha hb)
      · intro item useGrpc t he
        cases he
        exact hb _ _ _ rfl
    · push Not at hb
      obtain ⟨item, useGrpc, t, rfl⟩ := hb
      obtain ⟨r, rfl, hp⟩ := step_building hi h
      have hw : wastesSlot p (.act i (.built r)) = unfit r := by simp only [wastesSlot, hi]
      rw [hp, hw]
      exact noneWasted_built hg hi r

/-- Once no worker has a slot in hand, the slots granted are the submissions made
exactly when no build of the run ended in an unfit transaction. -/
theorem slots_spent_iff {store : StoreInner} {now : Int} {tr : List (Action × State)}
    (h : IsRun cfg (start cfg store now) tr)
    (hq : ∀ t ∈ (lastState (start cfg store now) tr).threads, t.pc.holdsSlot = false) :
    SlotsSpent (lastState (start cfg store now) tr).shared ↔
      AllSteps (fun p a _ => wastesSlot p a = false) (start cfg store now) tr := by
  have h0 : Granted cfg (start cfg store now) := Granted.init store now
  have hrun := AllSteps.withInvariant h h0 fun p a p' hg hs => hg.step (step_cases hs)
  have hlast := last_iff_allSteps hrun (NoneWasted.init store now) fun p a p' hs =>
    NoneWasted.step_iff hs.1 hs.2.1
  rw [← hlast]
  simp only [NoneWasted, slotTotal_quiet cfg _ hq, SlotsSpent]
  refine forall_congr' fun path => ?_
  omega

theorem slots_spent_promptBuilds : SlotsSpent (sampleState promptBuilds).shared :=
  (slots_spent_iff (trace_isRun _ _ _) (by decide)).mpr (by decide)

/-- A worker takes the only slot of the second for a transaction of 1233 bytes. -/
def oversized : List Action :=
  sampleTrade 2 ++ sampleAcquire 0 ++
    [.act 0 (.built (some ⟨1, some 1233⟩)), .act 0 .go, .act 0 .go]

theorem oversized_spends_slot :
    Reachable sampleConfig (sampleState oversized) ∧
      (sampleState oversized).threads.all (fun t => !t.pc.holdsSlot) ∧
      ¬ SlotsSpent (sampleState oversized).shared := by
  refine ⟨sampleState_reachable _, by decide, ?_⟩
  intro h
  exact absurd (h .rest) (by decide)

end SolanaArbBot.Arbitrage
