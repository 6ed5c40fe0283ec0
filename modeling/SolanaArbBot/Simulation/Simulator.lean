import SolanaArbBot.AccountCache.Cache
import SolanaArbBot.Arbitrage.Metrics
import SolanaArbBot.Transaction.Build

/-! The simulation gate. Nothing is assumed of the runtime; what a transaction
leaves is read from the accounts that the runtime reports after execution. -/
namespace SolanaArbBot.Simulation
open Lib Transaction AccountCache Arbitrage

structure SimOutcome where
  computeUnits : UInt64
  wsolAfter : UInt64
  deriving DecidableEq

structure SimulatedTransactionInfo where
  computeUnitsConsumed : UInt64
  postAccounts : List (Pubkey × Account)

structure FailedTransactionMetadata where
  err : String
  logs : List String
  computeUnitsConsumed : UInt64

/-- The runtime with its states and its own type of transactions, which it reads from
the wire. The two printers are those of its errors and logs. -/
structure LiteSVM (V Wire Tx : Type) where
  warpToSlot : V → UInt64 → V
  setAccount : V → Pubkey → Account → V × Except String Unit
  getAccount : V → Pubkey → Option Account
  serialize : VersionedTransaction → Except String Wire
  deserialize : Wire → Except String Tx
  simulateTransaction : V → Tx → Except FailedTransactionMetadata SimulatedTransactionInfo
  debugErr : String → String
  debugLogs : List String → String

structure Simulator where
  wsolAta : Pubkey
  failClosed : Bool
  currentSlot : UInt64

/-- What a call may change. -/
structure Shared (V : Type) where
  svm : V
  cache : HashMap Pubkey Account
  metrics : Metrics

def parseTokenAmount (data : List UInt8) : Option UInt64 :=
  if data.length < 72 then none else some (ofLeBytes (window data 64 8))

/-- The keys that a lookup finds in its table; one without a table is passed over. -/
def lookupKeys (alts : List AddressLookupTableAccount) (lookup : MessageAddressTableLookup) :
    List Pubkey :=
  match alts.find? fun a => a.key = lookup.accountKey with
  | some alt => (lookup.writableIndexes ++ lookup.readonlyIndexes).filterMap fun idx =>
      alt.addresses[idx.toNat]?
  | none => []

/-- Every key the transaction refers to, sorted and without repetitions. A message
of the old format has no lookups. -/
def collectTxAccounts (tx : VersionedTransaction) (alts : List AddressLookupTableAccount) :
    List Pubkey :=
  let out := tx.message.accountKeys ++ tx.message.addressTableLookups.flatMap (lookupKeys alts)
  (out.insertionSort fun a b => a.bytes ≤ b.bytes).destutter (· ≠ ·)

/-- The lazy fetch of one key; a failed one is only logged. -/
def fetchMissing (rpc : Pubkey → Except String Account) (cache : HashMap Pubkey Account)
    (pk : Pubkey) : HashMap Pubkey Account :=
  match cache.get pk with
  | some _ => cache
  | none =>
    match rpc pk with
    | .ok acct => cache.insert pk acct
    | .error _ => cache

section Gate
variable {V Wire Tx : Type} (lite : LiteSVM V Wire Tx) (rpc : Pubkey → Except String Account)
  (sim : Simulator)

def toLitesvmTx (tx : VersionedTransaction) : Except String Tx := do
  let bytes ← withContext "serialize tx for litesvm boundary" (lite.serialize tx)
  withContext "deserialize tx for litesvm boundary" (lite.deserialize bytes)

def injectTable (cache : HashMap Pubkey Account) (svm : V) (alt : AddressLookupTableAccount) : V :=
  match cache.get alt.key with
  | some raw => (lite.setAccount svm alt.key raw).1
  | none => svm

/-- Programs are loaded from files and not overwritten. -/
def injectAccount (cache : HashMap Pubkey Account) (svm : V) (pk : Pubkey) : V :=
  match cache.get pk with
  | some acct => if acct.executable then svm else (lite.setAccount svm pk acct).1
  | none => svm

def prepare (s : Shared V) (tx : VersionedTransaction) (alts : List AddressLookupTableAccount) :
    Shared V :=
  let accounts := collectTxAccounts tx alts
  let cache := accounts.foldl (fetchMissing rpc) s.cache
  let svm := lite.warpToSlot s.svm sim.currentSlot
  let svm := alts.foldl (injectTable lite cache) svm
  { s with cache := cache, svm := accounts.foldl (injectAccount lite cache) svm }

def parseWsolAmount (svm : V) : UInt64 :=
  ((lite.getAccount svm sim.wsolAta).bind fun a => parseTokenAmount a.data).getD 0

/-- The balance after execution, as the gate reads it. -/
def wsolAfter (svm : V) (info : SimulatedTransactionInfo) : UInt64 :=
  ((info.postAccounts.find? fun p => p.1 = sim.wsolAta).bind fun p =>
    parseTokenAmount p.2.data).getD (parseWsolAmount lite sim svm)

def simulate (s : Shared V) (tx : VersionedTransaction) (alts : List AddressLookupTableAccount)
    (minAcceptableOut : UInt64) : Shared V × Except String SimOutcome :=
  let s := prepare lite rpc sim s tx alts
  match toLitesvmTx lite tx with
  | .error e => (s, .error e)
  | .ok litesvmTx =>
    match lite.simulateTransaction s.svm litesvmTx with
    | .ok info =>
      let after := wsolAfter lite sim s.svm info
      if after < minAcceptableOut then
        ({ s with metrics := s.metrics.fetchAdd .txDropped 1 },
          .error ("sim unprofitable: wsol_after=" ++ toString after ++ " < min=" ++
            toString minAcceptableOut))
      else (s, .ok ⟨info.computeUnitsConsumed, after⟩)
    | .error failed =>
      if sim.failClosed then
        (s, .error ("sim reverted: err=" ++ lite.debugErr failed.err ++ " logs=" ++
          lite.debugLogs failed.logs))
      else (s, .ok ⟨failed.computeUnitsConsumed, 0⟩)

end Gate

/-! What is there after an execution. -/

/-- The amount a token account holds: none if there is no account, or no token account. -/
def heldBy (account : Option Account) : UInt64 :=
  (account.bind fun a => parseTokenAmount a.data).getD 0

/-- The accounts after an execution: those reported, and the others as they were. -/
def stateAfter (before : Pubkey → Option Account) (reported : List (Pubkey × Account))
    (key : Pubkey) : Option Account :=
  match reported.find? fun p => p.1 = key with
  | some p => some p.2
  | none => before key

/-- Data with an amount where a token account has it. -/
theorem parseTokenAmount_layout {pre : List UInt8} (hpre : pre.length = 64) (amount : UInt64)
    (post : List UInt8) : parseTokenAmount (pre ++ leBytes amount ++ post) = some amount := by
  have hwindow := window_append pre (leBytes amount) post
  rw [hpre, leBytes_length] at hwindow
  rw [parseTokenAmount, if_neg, hwindow, ofLeBytes_leBytes]
  simp only [List.length_append, leBytes_length]
  omega

theorem parseTokenAmount_none {data : List UInt8} :
    parseTokenAmount data = none ↔ data.length < 72 := by
  unfold parseTokenAmount
  split <;> simp_all

section Money
variable {V Wire Tx : Type} (lite : LiteSVM V Wire Tx) (rpc : Pubkey → Except String Account)
  (sim : Simulator)

def Executes (svm : V) (tx : VersionedTransaction) (info : SimulatedTransactionInfo) : Prop :=
  ∃ litesvmTx, toLitesvmTx lite tx = .ok litesvmTx ∧
    lite.simulateTransaction svm litesvmTx = .ok info

def moneyAfter (svm : V) (info : SimulatedTransactionInfo) : UInt64 :=
  heldBy (stateAfter (lite.getAccount svm) info.postAccounts sim.wsolAta)

/-- The transaction is executed, the money is there and the outcome says how much. -/
def LeavesMoney (svm : V) (tx : VersionedTransaction) (minAcceptableOut : UInt64)
    (outcome : SimOutcome) : Prop :=
  ∃ info, Executes lite svm tx info ∧ minAcceptableOut ≤ moneyAfter lite sim svm info ∧
    outcome.wsolAfter = moneyAfter lite sim svm info

/-- The user's account is reported, and is no token account any more. -/
def Unreadable (info : SimulatedTransactionInfo) : Prop :=
  ∃ p, (info.postAccounts.find? fun p => p.1 = sim.wsolAta) = some p ∧ p.2.data.length < 72

variable {lite rpc sim} {s : Shared V} {svm : V} {tx : VersionedTransaction}
  {alts : List AddressLookupTableAccount} {minAcceptableOut : UInt64} {outcome : SimOutcome}
  {info info' : SimulatedTransactionInfo}

theorem Executes.unique (h : Executes lite svm tx info) (h' : Executes lite svm tx info') :
    info = info' := by
  obtain ⟨t, ht, hinfo⟩ := h
  obtain ⟨t', ht', hinfo'⟩ := h'
  cases ht.symm.trans ht'
  cases hinfo.symm.trans hinfo'
  rfl

theorem wsolAfter_of_readable (h : ¬ Unreadable sim info) :
    wsolAfter lite sim svm info = moneyAfter lite sim svm info := by
  unfold wsolAfter moneyAfter stateAfter
  cases hfind : info.postAccounts.find? fun p => p.1 = sim.wsolAta with
  | none => rfl
  | some p =>
    obtain ⟨amount, hamount⟩ : ∃ amount, parseTokenAmount p.2.data = some amount := by
      apply Option.ne_none_iff_exists'.mp
      intro hnone
      exact h ⟨p, hfind, parseTokenAmount_none.mp hnone⟩
    simp only [heldBy, Option.bind_some, hamount, Option.getD_some]

/-- The fallback of the gate is the balance before. -/
theorem wsolAfter_of_unreadable (h : Unreadable sim info) :
    wsolAfter lite sim svm info = parseWsolAmount lite sim svm := by
  obtain ⟨p, hfind, hshort⟩ := h
  simp only [wsolAfter, hfind, Option.bind_some, parseTokenAmount_none.mpr hshort,
    Option.getD_none]

theorem moneyAfter_of_unreadable (h : Unreadable sim info) :
    moneyAfter lite sim svm info = 0 := by
  obtain ⟨p, hfind, hshort⟩ := h
  simp only [moneyAfter, stateAfter, hfind, heldBy, Option.bind_some,
    parseTokenAmount_none.mpr hshort, Option.getD_none]

/-- An outcome comes from an execution that leaves enough by the gate's reading. A
gate that fails open also lets failed executions through. -/
theorem simulate_ok (h : (simulate lite rpc sim s tx alts minAcceptableOut).2 = .ok outcome) :
    (∃ info, Executes lite (prepare lite rpc sim s tx alts).svm tx info ∧
      minAcceptableOut ≤ wsolAfter lite sim (prepare lite rpc sim s tx alts).svm info ∧
      outcome = ⟨info.computeUnitsConsumed,
        wsolAfter lite sim (prepare lite rpc sim s tx alts).svm info⟩) ∨
    (sim.failClosed = false ∧ outcome.wsolAfter = 0) := by
  unfold simulate at h
  dsimp only at h
  cases htx : toLitesvmTx lite tx with
  | error e =>
    rw [htx] at h
    cases h
  | ok litesvmTx =>
    simp only [htx] at h
    cases hrun : lite.simulateTransaction (prepare lite rpc sim s tx alts).svm litesvmTx with
    | ok info =>
      simp only [hrun] at h
      split at h
      · cases h
      · next hmin =>
        cases h
        exact Or.inl ⟨info, ⟨litesvmTx, htx, hrun⟩, UInt64.not_lt.mp hmin, rfl⟩
    | error failed =>
      simp only [hrun] at h
      split at h
      · cases h
      · next hopen =>
        cases h
        exact Or.inr ⟨Bool.eq_false_iff.mpr hopen, rfl⟩

theorem simulate_of_executes (h : Executes lite (prepare lite rpc sim s tx alts).svm tx info)
    (hmin : minAcceptableOut ≤ wsolAfter lite sim (prepare lite rpc sim s tx alts).svm info) :
    (simulate lite rpc sim s tx alts minAcceptableOut).2 = .ok ⟨info.computeUnitsConsumed,
      wsolAfter lite sim (prepare lite rpc sim s tx alts).svm info⟩ := by
  obtain ⟨litesvmTx, htx, hrun⟩ := h
  unfold simulate
  simp only [htx, hrun]
  rw [if_neg (UInt64.not_lt.mpr hmin)]

end Money

/-- A gate that fails closed admits only what leaves the money, unless an execution
takes the account itself away and there was enough in it before. -/
theorem admits_only_leaving_iff {V Wire Tx : Type} (lite : LiteSVM V Wire Tx)
    (rpc : Pubkey → Except String Account) (sim : Simulator) (hclosed : sim.failClosed = true)
    (s : Shared V) (tx : VersionedTransaction) (alts : List AddressLookupTableAccount)
    (minAcceptableOut : UInt64) :
    (∀ outcome, (simulate lite rpc sim s tx alts minAcceptableOut).2 = .ok outcome →
      LeavesMoney lite sim (prepare lite rpc sim s tx alts).svm tx minAcceptableOut outcome) ↔
    ∀ info, Executes lite (prepare lite rpc sim s tx alts).svm tx info → Unreadable sim info →
      parseWsolAmount lite sim (prepare lite rpc sim s tx alts).svm = 0 ∨
        parseWsolAmount lite sim (prepare lite rpc sim s tx alts).svm < minAcceptableOut := by
  constructor
  · intro hgate info hexec hlost
    by_cases hmin : parseWsolAmount lite sim (prepare lite rpc sim s tx alts).svm < minAcceptableOut
    · exact Or.inr hmin
    -- the balance before is enough, so it is what the gate reads and lets through
    have hread : wsolAfter lite sim (prepare lite rpc sim s tx alts).svm info =
        parseWsolAmount lite sim (prepare lite rpc sim s tx alts).svm :=
      wsolAfter_of_unreadable hlost
    have hok := simulate_of_executes hexec (hread ▸ UInt64.not_lt.mp hmin)
    obtain ⟨info', hexec', -, hamount⟩ := hgate _ hok
    cases hexec.unique hexec'
    left
    rw [← hread, ← moneyAfter_of_unreadable hlost]
    exact hamount
  · intro hpoor outcome hok
    rcases simulate_ok hok with ⟨info, hexec, hmin, rfl⟩ | ⟨hopen, -⟩
    · refine ⟨info, hexec, ?_⟩
      by_cases hlost : Unreadable sim info
      · rw [wsolAfter_of_unreadable hlost] at hmin ⊢
        rw [moneyAfter_of_unreadable hlost]
        rcases hpoor info hexec hlost with hzero | hless
        · rw [hzero] at hmin ⊢
          exact ⟨hmin, rfl⟩
        · exact absurd hless (UInt64.not_lt.mpr hmin)
      · rw [wsolAfter_of_readable hlost] at hmin ⊢
        exact ⟨hmin, rfl⟩
    · rw [hclosed] at hopen
      cases hopen

/-! A runtime that knows one instruction, the closing of a token account. -/

def closedBy (m : Message) : List Pubkey :=
  m.instructions.filterMap fun ix =>
    if ix.data = [9] then ix.accounts.head?.bind fun index => m.accountKeys[index.toNat]? else none

def closingRuntime :
    LiteSVM (HashMap Pubkey Account) VersionedTransaction VersionedTransaction where
  warpToSlot := fun svm _ => svm
  setAccount := fun svm pk acct => (svm.insert pk acct, .ok ())
  getAccount := fun svm pk => svm.get pk
  serialize := fun tx => .ok tx
  deserialize := fun tx => .ok tx
  simulateTransaction := fun svm tx => .ok {
    computeUnitsConsumed := 3000
    postAccounts := tx.message.accountKeys.filterMap fun pk => (svm.get pk).map fun acct =>
      (pk, if pk ∈ closedBy tx.message then
        { acct with lamports := 0, data := [], owner := systemProgram }
      else acct) }
  debugErr := id
  debugLogs := String.join

def exampleGate : Simulator where
  wsolAta := byteKey 2
  failClosed := true
  currentSlot := 0

def exampleCache : Shared (HashMap Pubkey Account) where
  svm := .empty
  cache := HashMap.empty.insert (byteKey 2) {
    lamports := 2039285
    data := List.replicate 64 0 ++ leBytes 5 ++ List.replicate 93 0
    owner := byteKey 6
    executable := false
    rentEpoch := 0
    slot := 0 }
  metrics := fun _ => 0

def exampleTransaction (datas : List (List UInt8)) : VersionedTransaction where
  signatures := []
  message := {
    accountKeys := [byteKey 1, byteKey 2, byteKey 6]
    recentBlockhash := List.replicate 32 0
    instructions := datas.map fun data => ⟨2, [1, 0, 0], data⟩
    addressTableLookups := [] }

/-- What the gate says about a transaction that is worth the five lamports. -/
def exampleRun (datas : List (List UInt8)) : Except String SimOutcome :=
  (simulate closingRuntime (fun _ => .error "offline") exampleGate exampleCache
    (exampleTransaction datas) [] 5).2

def exampleLoaded (datas : List (List UInt8)) : HashMap Pubkey Account :=
  (prepare closingRuntime (fun _ => .error "offline") exampleGate exampleCache
    (exampleTransaction datas) []).svm

/-- A transaction with no instruction leaves the account readable. -/
theorem admits_only_leaving_untouched : exampleGate.failClosed = true ∧
    exampleRun [] = .ok ⟨3000, 5⟩ ∧
    LeavesMoney closingRuntime exampleGate (exampleLoaded []) (exampleTransaction []) 5 ⟨3000, 5⟩ := by
  have hrun : exampleRun [] = .ok ⟨3000, 5⟩ := by decide +kernel
  refine ⟨rfl, hrun, (admits_only_leaving_iff closingRuntime (fun _ => .error "offline") exampleGate
    rfl exampleCache (exampleTransaction []) [] 5).mpr ?_ _ hrun⟩
  rintro info ⟨tx, htx, hinfo⟩ ⟨p, hfind, hshort⟩
  cases htx
  cases hinfo
  have hlong : ∀ q ∈ ((exampleLoaded []).get (byteKey 2)).map fun acct => (byteKey 2, acct),
      72 ≤ q.2.data.length := by decide +kernel
  exact absurd hshort (Nat.not_lt.mpr (hlong p hfind))

/-- The account is closed, and the gate reports the balance from before. -/
theorem closed_account_admitted : exampleRun [[9]] = .ok ⟨3000, 5⟩ ∧
    ¬ LeavesMoney closingRuntime exampleGate (exampleLoaded [[9]]) (exampleTransaction [[9]]) 5
      ⟨3000, 5⟩ := by
  refine ⟨by decide +kernel, ?_⟩
  rintro ⟨info, ⟨tx, htx, hinfo⟩, -, hamount⟩
  cases htx
  cases hinfo
  exact absurd hamount (by decide +kernel)

end SolanaArbBot.Simulation
