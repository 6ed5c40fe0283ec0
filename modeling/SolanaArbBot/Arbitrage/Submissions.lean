import SolanaArbBot.Arbitrage.Admission
import SolanaArbBot.Arbitrage.SubmissionRate

/-! What lies behind a submission: the steps of the worker that sent the item, in their
order, and before them those of the check that the item comes from. -/
namespace SolanaArbBot.Arbitrage
open Lib TemplateCache

section Conditions
variable (cfg : Config) (w : Nat) (item : ReadyInstruction) (useGrpc : Bool) (grantedAt : Int)

def GoesOn (pc : Pc) (Q : Shared → Outcome → Prop) (p : State) (a : Action) (_ : State) : Prop :=
  ∃ o, a = .act w o ∧ p.threads[w]? = some ⟨[], pc⟩ ∧ Q p.shared o

def Pops : State → Action → State → Prop := GoesOn w .acquired fun s _ => ∃ rest, s.lifo = item :: rest

def FindsFresh : State → Action → State → Prop :=
  GoesOn w (.popped item) fun s _ => elapsedMs s item ≤ cfg.queueMaxAgeMs.toNat

def RestRefuses : State → Action → State → Prop :=
  GoesOn w (.askJito item) fun s _ => (s.jitoLimiter.tryAcquire s.now).2 = false

def RestGrants : State → Action → State → Prop :=
  GoesOn w (.askJito item) fun s _ => s.now = grantedAt ∧ (s.jitoLimiter.tryAcquire s.now).2

def GrpcGrants : State → Action → State → Prop :=
  GoesOn w (.askGrpc item) fun s _ =>
    s.now = grantedAt ∧ ∃ l, s.jitoGrpcLimiter = some l ∧ (l.tryAcquire s.now).2

def Builds : State → Action → State → Prop :=
  GoesOn w (.building item useGrpc grantedAt) fun _ o => ∃ tx size, o = .built (some tx) ∧
    tx.locks ≤ maxAccountLocks ∧ tx.size = some size ∧ size ≤ packetSize

def Sends (startedAt : Int) : State → Action → State → Prop :=
  GoesOn w (.ready item useGrpc grantedAt) fun s _ => s.now = startedAt

/-- The way to a slot, the last step first. -/
def slotSteps : List (State → Action → State → Prop) :=
  if useGrpc then
    [GrpcGrants w item grantedAt, RestRefuses w item, FindsFresh cfg w item, Pops w item]
  else [RestGrants w item grantedAt, FindsFresh cfg w item, Pops w item]

def sendSteps (startedAt : Int) : List (State → Action → State → Prop) :=
  Sends w item useGrpc grantedAt startedAt :: Builds w item useGrpc grantedAt ::
    slotSteps cfg w item useGrpc grantedAt

end Conditions

section Vetted
variable (cfg : Config) (p₀ : State) (tr : List (Action × State)) (w : Nat)

/-- The item came from an admitted pair, and then the worker took the steps. -/
def Follows (item : ReadyInstruction) : List (State → Action → State → Prop) → Prop :=
  fun Cs => InTurn (fun past => ItemOk p₀ past cfg item) p₀ Cs tr

def slotPath (useGrpc : Bool) : Path := if useGrpc then .grpc else .rest

/-- A worker is on its way to a submission. -/
def PcVetted : Pc → Prop
  | .popped item => Follows cfg p₀ tr item [Pops w item]
  | .askJito item => Follows cfg p₀ tr item [FindsFresh cfg w item, Pops w item]
  | .askGrpc item => Follows cfg p₀ tr item [RestRefuses w item, FindsFresh cfg w item, Pops w item]
  | .building item useGrpc grantedAt => submitPath cfg useGrpc = slotPath useGrpc ∧
    Follows cfg p₀ tr item (slotSteps cfg w item useGrpc grantedAt)
  | .ready item useGrpc grantedAt => submitPath cfg useGrpc = slotPath useGrpc ∧
    Follows cfg p₀ tr item (Builds w item useGrpc grantedAt :: slotSteps cfg w item useGrpc grantedAt)
  | _ => True

/-- A worker went all the way for the submission. -/
def SentVetted (e : Submission) : Prop :=
  ∃ w item useGrpc, e.number = item.number ∧ e.path = slotPath useGrpc ∧
    Follows cfg p₀ tr item (sendSteps cfg w item useGrpc e.grantedAt e.startedAt)

end Vetted

structure Vetted (cfg : Config) (p₀ : State) (tr : List (Action × State)) (p : State) : Prop where
  threads : ∀ i t, p.threads[i]? = some t → PcVetted cfg p₀ tr i t.pc
  sent : ∀ e ∈ p.shared.sent, SentVetted cfg p₀ tr e

section Steps
variable {cfg : Config} {p₀ p' : State} {tr : List (Action × State)} {w : Nat} {s' : Shared}
  {es : List Effect} {pc pc' : Pc} {o : Outcome} {a : Action}

theorem PcVetted.append (h : PcVetted cfg p₀ tr w pc) (tr' : List (Action × State)) :
    PcVetted cfg p₀ (tr ++ tr') w pc := by
  cases pc with
  | popped | askJito | askGrpc => exact InTurn.append h tr'
  | building | ready => exact ⟨h.1, h.2.append tr'⟩
  | _ => trivial

theorem SentVetted.append {e : Submission} (h : SentVetted cfg p₀ tr e) (tr' : List (Action × State)) :
    SentVetted cfg p₀ (tr ++ tr') e := by
  obtain ⟨w, item, useGrpc, hnumber, hpath, hsteps⟩ := h
  exact ⟨w, item, useGrpc, hnumber, hpath, hsteps.append tr'⟩

private theorem afterBuild_cases {item : ReadyInstruction} {useGrpc : Bool} {grantedAt : Int}
    (r : Option BuiltTx) : (afterBuild item useGrpc grantedAt r).2 = .idle ∨
      ((afterBuild item useGrpc grantedAt r).2 = .ready item useGrpc grantedAt ∧
        ∃ tx size, r = some tx ∧ tx.locks ≤ maxAccountLocks ∧ tx.size = some size ∧ size ≤ packetSize) := by
  cases r with
  | none => exact Or.inl rfl
  | some tx =>
    simp only [afterBuild]
    split
    · exact Or.inl rfl
    · next hlocks =>
      split
      · exact Or.inl rfl
      · next size hsize =>
        split
        · exact Or.inl rfl
        · next hfits => exact Or.inr ⟨rfl, tx, size, rfl, not_lt.mp hlocks, hsize, not_lt.mp hfits⟩

private theorem pcVetted_built {item : ReadyInstruction} {useGrpc : Bool} {grantedAt : Int}
    (hpc : PcVetted cfg p₀ tr w (.building item useGrpc grantedAt))
    (hi : (lastState p₀ tr).threads[w]? = some ⟨[], .building item useGrpc grantedAt⟩)
    {r : Option BuiltTx} (hr : (afterBuild item useGrpc grantedAt r).2 = pc') (p' : State) :
    PcVetted cfg p₀ (tr ++ [(.act w (.built r), p')]) w pc' := by
  subst hr
  rcases afterBuild_cases r with hidle | ⟨hready, tx, size, rfl, hfits⟩
  · rw [hidle]
    trivial
  · rw [hready]
    exact ⟨hpc.1, hpc.2.last ⟨_, rfl, hi, tx, size, rfl, hfits⟩⟩

private theorem pcVetted_advance (hpc : PcVetted cfg p₀ tr w pc) (hlim : Limits cfg (lastState p₀ tr).shared)
    (hitems : ∀ item ∈ (lastState p₀ tr).shared.lifo, ItemOk p₀ tr cfg item)
    (hi : (lastState p₀ tr).threads[w]? = some ⟨[], pc⟩)
    (h : advance cfg (lastState p₀ tr).shared pc o = some (s', es, pc')) (p' : State) :
    PcVetted cfg p₀ (tr ++ [(.act w o, p')]) w pc' := by
  cases advance_cases h with
  | @lookMissed tier | @promoteMissed tier => cases tier <;> trivial
  | @pop item rest hl =>
    have hitem : ItemOk p₀ tr cfg item := hitems item (hl ▸ List.mem_cons_self)
    have hpast : Follows cfg p₀ tr item [] := List.append_nil tr ▸ InTurn.past hitem []
    exact hpast.last ⟨o, rfl, hi, rest, hl⟩
  | fresh ha => exact InTurn.last hpc ⟨o, rfl, hi, ha⟩
  | jitoGranted hg => exact ⟨rfl, InTurn.last hpc ⟨o, rfl, hi, rfl, hg⟩⟩
  | jitoRefused hg => exact InTurn.last hpc ⟨o, rfl, hi, hg⟩
  | grpcGranted hl hg => exact ⟨submitPath_true hlim hl, InTurn.last hpc ⟨o, rfl, hi, rfl, _, hl, hg⟩⟩
  | buildDropped | built =>
    cases o with
    | built r => exact pcVetted_built hpc hi (congrArg (fun n : Next => n.2.2) (Option.some.inj h)) p'
    | _ => cases h
  | _ => trivial

private theorem sentVetted_advance (hpc : PcVetted cfg p₀ tr w pc)
    (hsent : ∀ e ∈ (lastState p₀ tr).shared.sent, SentVetted cfg p₀ tr e)
    (hi : (lastState p₀ tr).threads[w]? = some ⟨[], pc⟩)
    (h : Advance cfg (lastState p₀ tr).shared pc s' es pc') (p' : State) :
    ∀ e ∈ s'.sent, SentVetted cfg p₀ (tr ++ [(.act w o, p')]) e := by
  have hold : ∀ e ∈ (lastState p₀ tr).shared.sent, SentVetted cfg p₀ (tr ++ [(.act w o, p')]) e :=
    fun e he => (hsent e he).append _
  cases h with
  | @submit item useGrpc grantedAt =>
    intro e he
    rcases List.mem_append.mp he with he | he
    · exact hold e he
    · rw [List.mem_singleton.mp he]
      exact ⟨w, item, useGrpc, rfl, hpc.1, hpc.2.last ⟨o, rfl, hi, rfl⟩⟩
  | _ => exact hold

private theorem run_sent (e : Effect) (s : Shared) : (e.run s).sent = s.sent := by
  cases e <;> rfl

private theorem Vetted.step (h : Vetted cfg p₀ tr (lastState p₀ tr))
    (hlim : Limits cfg (lastState p₀ tr).shared)
    (hitems : ∀ item ∈ (lastState p₀ tr).shared.lifo, ItemOk p₀ tr cfg item)
    (hs : step cfg (lastState p₀ tr) a = some p') : Vetted cfg p₀ (tr ++ [(a, p')]) p' := by
  have hthreads (i : Nat) (t : Thread) (ht : (lastState p₀ tr).threads[i]? = some t) :
      PcVetted cfg p₀ (tr ++ [(a, p')]) i t.pc := (h.threads i t ht).append _
  have hsent : ∀ e ∈ (lastState p₀ tr).shared.sent, SentVetted cfg p₀ (tr ++ [(a, p')]) e :=
    fun e he => (h.sent e he).append _
  cases a with
  | tick elapsed =>
    cases hs
    exact ⟨hthreads, hsent⟩
  | check mint amount onlyDirect =>
    cases hs
    refine ⟨?_, hsent⟩
    intro i t ht
    rcases Pool.getElem?_spawn ht with ⟨rfl, rfl⟩ | ht
    · trivial
    · exact hthreads i t ht
  | act i o =>
    rcases act_cases hs with ⟨e, es, pc, hi, rfl⟩ | ⟨pc, s', es, pc', hi, ha, rfl⟩
    · refine ⟨?_, ?_⟩
      · intro j t ht
        rcases Pool.getElem?_update ht with ⟨rfl, rfl⟩ | ht
        · have hthread := hthreads j _ hi
          exact hthread
        · exact hthreads j t ht
      · intro e' he
        rw [Pool.update, run_sent] at he
        exact hsent e' he
    · refine ⟨?_, sentVetted_advance (h.threads i _ hi) h.sent hi (advance_cases ha) _⟩
      intro j t ht
      rcases Pool.getElem?_update ht with ⟨rfl, rfl⟩ | ht
      · exact pcVetted_advance (h.threads j _ hi) hlim hitems hi ha _
      · exact hthreads j t ht

end Steps

theorem Reachable.limits {cfg : Config} {p : State} (h : Reachable cfg p) : Limits cfg p.shared :=
  h.invariant (I := fun p => Limits cfg p.shared) Limits.init fun _ _ _ hl hs => hl.step hs

theorem IsRun.vetted {cfg : Config} {store : StoreInner} {now : Int} {tr : List (Action × State)}
    (h : IsRun cfg (start cfg store now) tr) :
    Vetted cfg (start cfg store now) tr (lastState (start cfg store now) tr) := by
  have hidle (i : Nat) (t : Thread) (ht : (start cfg store now).threads[i]? = some t) :
      t = ⟨[], .idle⟩ := List.eq_of_mem_replicate (List.mem_of_getElem? ht)
  refine (AllSteps.history (P := fun tr p => IsRun cfg (start cfg store now) tr ∧
    Vetted cfg (start cfg store now) tr p) h ⟨trivial, ?_, ?_⟩ ?_).2
  · intro i t ht
    rw [hidle i t ht]
    trivial
  · exact fun e he => absurd he List.not_mem_nil
  · rintro tr a p' ⟨hr, hv⟩ hs
    have hlimits := Reachable.limits ⟨store, now, tr, hr, rfl⟩
    exact ⟨allSteps_append.mpr ⟨hr, hs, trivial⟩, hv.step hlimits hr.traced.items hs⟩

/-- The item was pushed by a thread that had served it for a pair of its quotes that
passes the gates. -/
def FromGated (cfg : Config) (p₀ : State) (item : ReadyInstruction) (past : List (Action × State)) : Prop :=
  ∃ i mint job, Pushed p₀ past i item ∧ ServedWith p₀ past i job item.swapIxs ∧ PairOf p₀ past i mint job.pair ∧
    Gated cfg.forbiddenDexes cfg.minProfitLamports job.pair job.merged

theorem ItemOk.fromGated {cfg : Config} {p₀ : State} {tr : List (Action × State)} {item : ReadyInstruction}
    (h : ItemOk p₀ tr cfg item)
    (hamounts : ∀ mint amount onlyDirect, .check mint amount onlyDirect ∈ labels tr →
      amount.toNat ≤ 2 ^ 64 - 1 - 6600) : FromGated cfg p₀ item tr := by
  obtain ⟨i, job, hpushed, hserved, ⟨⟨⟨mint, hpair⟩, hverdict⟩, hdirect, hmerged⟩, _⟩ := h
  obtain ⟨_, _, _, ⟨rfl, _⟩, hlabel⟩ := hpair.checked.exists_label
  exact ⟨i, mint, job, hpushed, hserved, hpair,
    gated_of_tests hverdict hdirect hmerged (hamounts _ _ _ hlabel)⟩

/-- Every submission is the end of a way that its worker went step by step: it took the item
from the top of the queue, found it fresh, got the slot (from the gRPC limiter only after
the REST limiter had refused), built a transaction that fits, and sent it. Before that, the
item was pushed by a thread that served it for a gated pair of quotes. -/
theorem submissions_vetted {cfg : Config} {store : StoreInner} {now : Int}
    {tr : List (Action × State)} (h : IsRun cfg (start cfg store now) tr)
    (hamounts : ∀ mint amount onlyDirect, .check mint amount onlyDirect ∈ labels tr →
      amount.toNat ≤ 2 ^ 64 - 1 - 6600) :
    ∀ e ∈ (lastState (start cfg store now) tr).shared.sent, ∃ w item useGrpc,
      e.number = item.number ∧ e.path = slotPath useGrpc ∧
      InTurn (FromGated cfg (start cfg store now) item) (start cfg store now)
        (sendSteps cfg w item useGrpc e.grantedAt e.startedAt) tr := by
  intro e he
  obtain ⟨w, item, useGrpc, hnumber, hpath, hsteps⟩ := h.vetted.sent e he
  refine ⟨w, item, useGrpc, hnumber, hpath, hsteps.mono ?_⟩
  rintro past ⟨rest, rfl⟩ hitem
  apply hitem.fromGated
  intro mint amount onlyDirect hm
  apply hamounts mint amount onlyDirect
  rw [labels_append]
  exact List.mem_append_left _ hm

def sentTrade : List Action := sampleTrade 2 ++ sampleAcquire 0 ++ sampleSend 0

theorem submissions_vetted_sent : ∃ e ∈ (sampleState sentTrade).shared.sent, ∃ w item useGrpc,
    InTurn (FromGated sampleConfig (start sampleConfig .new 0) item) (start sampleConfig .new 0)
      (sendSteps sampleConfig w item useGrpc e.grantedAt e.startedAt)
      (sampleTrace sentTrade) := by
  have hlen : (sampleState sentTrade).shared.sent.length = 1 := by decide
  obtain ⟨e, hsent⟩ := List.length_eq_one_iff.mp hlen
  have he : e ∈ (sampleState sentTrade).shared.sent :=
    hsent ▸ List.mem_cons_self
  have hamounts (mint : String) (amount : UInt64) (onlyDirect : Bool)
      (hl : .check mint amount onlyDirect ∈ labels (sampleTrace sentTrade)) :
      amount.toNat ≤ 2 ^ 64 - 1 - 6600 := by
    have ha := labels_trace_subset _ _ _ hl
    simp [sentTrade, sampleTrade, sampleAcquire, sampleSend] at ha
    rw [ha.2.1]
    decide
  obtain ⟨w, item, useGrpc, _, _, hsteps⟩ := submissions_vetted (trace_isRun sampleConfig _ _) hamounts e he
  exact ⟨e, he, w, item, useGrpc, hsteps⟩

end SolanaArbBot.Arbitrage
