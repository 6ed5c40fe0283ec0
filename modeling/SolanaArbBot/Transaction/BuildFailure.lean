import SolanaArbBot.Arbitrage.Pipeline
import SolanaArbBot.Transaction.Build

/-! Malformed responses. Every failure of a build but one comes back to the worker
as an error, which drops the item; an account that does not parse panics. -/
namespace SolanaArbBot.Transaction
open Lib Arbitrage

/-- The instruction has the program, the accounts and the data of the response. -/
structure Copied (sdk : Sdk) (ix : InstructionData) (swap : Instruction) : Prop where
  program : sdk.fromStr ix.programId = .ok swap.programId
  accounts : List.Forall₂ (fun a m => sdk.fromStr (SolanaArbBot.AccountMeta.pubkey a) =
    .ok (AccountMeta.pubkey m) ∧ m.isSigner = a.isSigner ∧ m.isWritable = a.isWritable)
    ix.accounts swap.accounts
  data : Base64.decode ix.data = some swap.data

/-- The address parses, and what the cache returns for it is one of the tables. -/
def Resolves (sdk : Sdk) (getOrFetch : Pubkey → Except String AddressLookupTableAccount)
    (tables : List AddressLookupTableAccount) (addr : String) : Prop :=
  ∃ key table, sdk.fromStr addr = .ok key ∧ getOrFetch key = .ok table ∧ table ∈ tables

/-- The compiler was given the swap of the response and all its tables. -/
def BuiltFrom (sdk : Sdk) (swapIxs : SwapInstructionsResponse) (payer : Pubkey)
    (recentBlockhash : List UInt8) (getOrFetch : Pubkey → Except String AddressLookupTableAccount)
    (tx : VersionedTransaction) : Prop :=
  ∃ limit swap tip tables, Copied sdk swapIxs.swapInstruction swap ∧
    (∀ addr ∈ swapIxs.addressLookupTableAddresses, Resolves sdk getOrFetch tables addr) ∧
    sdk.tryCompile payer [limit, swap, tip] tables recentBlockhash = .ok tx.message

/-- What the worker gets from a build that comes back. -/
def buildOutcome (size : VersionedTransaction → Option Nat) :
    Except String VersionedTransaction → Outcome
  | .ok tx => .built (some ⟨accountLockCount tx, size tx⟩)
  | .error _ => .built none

/-- A worker with this outcome counts a failed build and a drop, whatever the other
threads do in between, and is ready for the next item. -/
structure CountedDrop (o : Outcome) : Prop where
  decided : ∀ cfg (p : State) i item useGrpc grantedAt,
    p.threads[i]? = some ⟨[], .building item useGrpc grantedAt⟩ →
    step cfg p (.act i o) = some (p.update i p.shared ⟨countDropped .txBuildFailed, .idle⟩)
  failed : ∀ cfg (p : State) i o',
    p.threads[i]? = some ⟨countDropped .txBuildFailed, .idle⟩ →
    step cfg p (.act i o') = some (p.update i
      { p.shared with metrics := p.shared.metrics.fetchAdd .txBuildFailed 1 }
      ⟨[.count .txDropped 1], .idle⟩)
  dropped : ∀ cfg (p : State) i o', p.threads[i]? = some ⟨[.count .txDropped 1], .idle⟩ →
    step cfg p (.act i o') = some (p.update i
      { p.shared with metrics := p.shared.metrics.fetchAdd .txDropped 1 } ⟨[], .idle⟩)

/-- The build comes back, with what the response says or with a drop that is counted. -/
def FailsSoftly (sdk : Sdk) (swapIxs : SwapInstructionsResponse) (payer : Pubkey)
    (tipLamports : UInt64) (cuLimit : UInt32) (recentBlockhash : List UInt8)
    (choice : Fin jitoTipAccounts.length)
    (getOrFetch : Pubkey → Except String AddressLookupTableAccount)
    (size : VersionedTransaction → Option Nat) : Prop :=
  ∃ r, buildArbTransaction sdk swapIxs payer tipLamports cuLimit recentBlockhash choice getOrFetch =
      ExceptT.mk (.ok r) ∧
    (∀ tx, r = .ok tx → BuiltFrom sdk swapIxs payer recentBlockhash getOrFetch tx) ∧
    ∀ e, r = .error e → CountedDrop (buildOutcome size r)

def Parses (sdk : Sdk) (s : String) : Prop := ∃ key, sdk.fromStr s = .ok key

/-! Runs that come back. -/

/-- The run ends with a result or an error and does not abort. -/
def Returns {α : Type} (x : Fallible α) : Prop := ∃ r, x = ExceptT.mk (.ok r)

section Returns
variable {α β : Type}

theorem returns_ofExcept (r : Except String α) : Returns (ofExcept r) := ⟨r, rfl⟩

theorem returns_pure (a : α) : Returns (pure a : Fallible α) := ⟨.ok a, rfl⟩

theorem not_returns_abort (p : Panic) : ¬ Returns (abort p : Fallible α) := by
  rintro ⟨r, h⟩
  cases h

/-- A sequence comes back when its first part does and, after a result, its second. -/
theorem returns_bind_iff {x : Fallible α} {f : α → Fallible β} :
    Returns (x >>= f) ↔ Returns x ∧ ∀ a, x = ExceptT.mk (.ok (.ok a)) → Returns (f a) := by
  constructor
  · intro h
    cases hx : x.run with
    | error p =>
      obtain ⟨r, h⟩ := h
      change ExceptT.run x >>= _ = _ at h
      rw [hx] at h
      cases h
    | ok r =>
      refine ⟨⟨r, hx⟩, ?_⟩
      rintro a rfl
      exact h
  · rintro ⟨⟨r, rfl⟩, hf⟩
    cases r with
    | error e => exact ⟨.error e, rfl⟩
    | ok a => exact hf a rfl

end Returns

/-! The swap instruction. -/

section Swap
variable {sdk : Sdk}

private theorem not_parses {s : String} {e : String} (h : sdk.fromStr s = .error e) :
    ¬ Parses sdk s := by
  rintro ⟨key, hk⟩
  rw [h] at hk
  cases hk

private theorem parses_of_ofExcept {s : String} {key : Pubkey}
    (h : ofExcept (sdk.fromStr s) = ExceptT.mk (.ok (.ok key))) : Parses sdk s :=
  ⟨key, ofExcept_ok h⟩

private theorem toAccountMeta_ok {a : SolanaArbBot.AccountMeta} {m : AccountMeta}
    (h : toAccountMeta sdk a = ExceptT.mk (.ok (.ok m))) :
    sdk.fromStr a.pubkey = .ok m.pubkey ∧ m.isSigner = a.isSigner ∧ m.isWritable = a.isWritable := by
  unfold toAccountMeta at h
  split at h
  · next key hk =>
    cases h
    exact ⟨hk, rfl, rfl⟩
  · cases h

private theorem returns_toAccountMeta (a : SolanaArbBot.AccountMeta) :
    Returns (toAccountMeta sdk a) ↔ Parses sdk a.pubkey := by
  unfold toAccountMeta
  cases hk : sdk.fromStr a.pubkey with
  | ok key => exact iff_of_true (returns_pure _) ⟨key, hk⟩
  | error e => exact iff_of_false (not_returns_abort _) (not_parses hk)

private theorem mapM_toAccountMeta_ok {accounts : List SolanaArbBot.AccountMeta}
    {ms : List AccountMeta} (h : accounts.mapM (toAccountMeta sdk) = ExceptT.mk (.ok (.ok ms))) :
    List.Forall₂ (fun a m => sdk.fromStr (SolanaArbBot.AccountMeta.pubkey a) =
      .ok (AccountMeta.pubkey m) ∧ m.isSigner = a.isSigner ∧ m.isWritable = a.isWritable)
      accounts ms := by
  induction accounts generalizing ms with
  | nil =>
    cases h
    exact .nil
  | cons a accounts ih =>
    rw [List.mapM_cons] at h
    obtain ⟨m, hm, h⟩ := fallible_bind h
    obtain ⟨ms', hms, h⟩ := fallible_bind h
    cases h
    exact .cons (toAccountMeta_ok hm) (ih hms)

/-- The list of accounts comes back when each of them parses: the first that does not
aborts before a later one is looked at. -/
private theorem returns_mapM_toAccountMeta (accounts : List SolanaArbBot.AccountMeta) :
    Returns (accounts.mapM (toAccountMeta sdk)) ↔ ∀ a ∈ accounts, Parses sdk a.pubkey := by
  induction accounts with
  | nil => exact iff_of_true (returns_pure _) (fun _ h => absurd h List.not_mem_nil)
  | cons a accounts ih =>
    rw [List.mapM_cons, returns_bind_iff, returns_toAccountMeta, List.forall_mem_cons]
    refine and_congr_right fun ⟨key, hk⟩ => ?_
    have hm : toAccountMeta sdk a = ExceptT.mk (.ok (.ok ⟨key, a.isSigner, a.isWritable⟩)) := by
      unfold toAccountMeta
      rw [hk]
      rfl
    constructor
    · intro h
      exact ih.mp (returns_bind_iff.mp (h _ hm)).1
    · intro h m _
      exact returns_bind_iff.mpr ⟨ih.mpr h, fun _ _ => returns_pure _⟩

theorem toSdkInstruction_ok {ix : InstructionData} {swap : Instruction}
    (h : toSdkInstruction sdk ix = ExceptT.mk (.ok (.ok swap))) : Copied sdk ix swap := by
  obtain ⟨programId, hp, h⟩ := fallible_bind h
  obtain ⟨accounts, ha, h⟩ := fallible_bind h
  cases hd : Base64.decode ix.data with
  | none =>
    rw [hd] at h
    cases h
  | some data =>
    rw [hd] at h
    cases h
    exact ⟨ofExcept_ok hp, mapM_toAccountMeta_ok ha, hd⟩

/-- A program that does not parse is an error before any account is looked at. -/
theorem returns_toSdkInstruction (ix : InstructionData) :
    Returns (toSdkInstruction sdk ix) ↔
      (Parses sdk ix.programId → ∀ a ∈ ix.accounts, Parses sdk a.pubkey) := by
  rw [toSdkInstruction, returns_bind_iff]
  constructor
  · rintro ⟨_, h⟩ ⟨programId, hp⟩
    have ha := (returns_bind_iff.mp (h programId (by rw [hp]; rfl))).1
    exact (returns_mapM_toAccountMeta ix.accounts).mp ha
  · intro h
    refine ⟨returns_ofExcept _, ?_⟩
    intro programId hp
    rw [returns_bind_iff]
    refine ⟨(returns_mapM_toAccountMeta ix.accounts).mpr (h (parses_of_ofExcept hp)), ?_⟩
    intro accounts _
    split
    · exact returns_pure _
    · exact ⟨_, rfl⟩

end Swap

/-! The whole build. -/

section Build
variable {sdk : Sdk} {swapIxs : SwapInstructionsResponse} {payer : Pubkey} {tipLamports : UInt64}
  {cuLimit : UInt32} {recentBlockhash : List UInt8} {choice : Fin jitoTipAccounts.length}
  {getOrFetch : Pubkey → Except String AddressLookupTableAccount}

theorem arbInstructions_ok {ixs : List Instruction}
    (h : arbInstructions sdk swapIxs payer tipLamports cuLimit choice = ExceptT.mk (.ok (.ok ixs))) :
    ∃ limit swap tip, ixs = [limit, swap, tip] ∧ Copied sdk swapIxs.swapInstruction swap := by
  obtain ⟨computeBudget, _, h⟩ := fallible_bind h
  obtain ⟨swap, hswap, h⟩ := fallible_bind h
  obtain ⟨tipAccount, _, h⟩ := fallible_bind h
  cases h
  exact ⟨_, swap, _, rfl, toSdkInstruction_ok hswap⟩

def computeBudgetProgram : String := "ComputeBudget111111111111111111111111111111"

private theorem returns_arbInstructions :
    Returns (arbInstructions sdk swapIxs payer tipLamports cuLimit choice) ↔
      (Parses sdk computeBudgetProgram → Parses sdk swapIxs.swapInstruction.programId →
        ∀ a ∈ swapIxs.swapInstruction.accounts, Parses sdk a.pubkey) := by
  rw [arbInstructions, returns_bind_iff, ← returns_toSdkInstruction]
  constructor
  · rintro ⟨_, h⟩ ⟨computeBudget, hc⟩
    exact (returns_bind_iff.mp (h computeBudget (by rw [← computeBudgetProgram, hc]; rfl))).1
  · intro h
    refine ⟨returns_ofExcept _, ?_⟩
    intro computeBudget hc
    rw [returns_bind_iff]
    refine ⟨h (parses_of_ofExcept hc), ?_⟩
    intro swap _
    exact returns_bind_iff.mpr ⟨returns_ofExcept _, fun _ _ => returns_pure _⟩

/-- After the instructions nothing aborts. -/
theorem returns_buildArbTransaction :
    Returns (buildArbTransaction sdk swapIxs payer tipLamports cuLimit recentBlockhash choice
        getOrFetch) ↔
      Returns (arbInstructions sdk swapIxs payer tipLamports cuLimit choice) := by
  rw [buildArbTransaction, returns_bind_iff]
  refine and_iff_left ?_
  intro instructions _
  refine returns_bind_iff.mpr ⟨returns_ofExcept _, fun keys _ => ?_⟩
  refine returns_bind_iff.mpr ⟨returns_ofExcept _, fun tables _ => ?_⟩
  refine returns_bind_iff.mpr ⟨returns_ofExcept _, fun message _ => ?_⟩
  exact returns_bind_iff.mpr ⟨returns_ofExcept _, fun signatures _ => returns_pure _⟩

theorem builtFrom_of_ok {tx : VersionedTransaction}
    (h : buildArbTransaction sdk swapIxs payer tipLamports cuLimit recentBlockhash choice getOrFetch =
      ExceptT.mk (.ok (.ok tx))) : BuiltFrom sdk swapIxs payer recentBlockhash getOrFetch tx := by
  obtain ⟨ixs, keys, tables, hixs, hkeys, hfetched, _, hcompile⟩ := buildArbTransaction_ok h
  obtain ⟨limit, swap, tip, rfl, hswap⟩ := arbInstructions_ok hixs
  refine ⟨limit, swap, tip, tables, hswap, ?_, hcompile⟩
  intro addr hm
  obtain ⟨key, hk, hparse⟩ := (altAddresses_ok hkeys).2 addr hm
  obtain ⟨table, ht, hget⟩ := hfetched key hk
  exact ⟨key, table, hparse, hget, ht⟩

end Build

theorem countedDrop_failed : CountedDrop (.built none) where
  decided cfg p i item useGrpc grantedAt h := by
    rw [step, h]
    rfl
  failed cfg p i o' h := by
    rw [step, h]
    rfl
  dropped cfg p i o' h := by
    rw [step, h]
    rfl

/-- A response fails softly exactly when no account aborts the build: the program does
not parse, which is an error before the accounts are looked at, or they all do. -/
theorem failsSoftly_iff (sdk : Sdk) (swapIxs : SwapInstructionsResponse) (payer : Pubkey)
    (tipLamports : UInt64) (cuLimit : UInt32) (recentBlockhash : List UInt8)
    (choice : Fin jitoTipAccounts.length)
    (getOrFetch : Pubkey → Except String AddressLookupTableAccount)
    (size : VersionedTransaction → Option Nat) :
    FailsSoftly sdk swapIxs payer tipLamports cuLimit recentBlockhash choice getOrFetch size ↔
      (Parses sdk computeBudgetProgram → Parses sdk swapIxs.swapInstruction.programId →
        ∀ a ∈ swapIxs.swapInstruction.accounts, Parses sdk a.pubkey) := by
  rw [← returns_arbInstructions, ← returns_buildArbTransaction]
  constructor
  · rintro ⟨r, h, _⟩
    exact ⟨r, h⟩
  · rintro ⟨r, h⟩
    refine ⟨r, h, ?_, ?_⟩
    · rintro tx rfl
      exact builtFrom_of_ok h
    · rintro e rfl
      exact countedDrop_failed

/-! A response with one bad account. -/

def computeBudgetKey : Pubkey where
  bytes := [3, 6, 70, 111, 229, 33, 23, 50, 255, 236, 173, 186, 114, 195, 155, 231, 188, 140, 229,
    187, 197, 247, 18, 107, 44, 67, 155, 58, 64, 0, 0, 0]
  size := rfl

def sampleFromStr (s : String) : Except String Pubkey :=
  if s = computeBudgetProgram then .ok computeBudgetKey
  else if s = "11111111111111111111111111111111" then .ok systemProgram
  else .error "String is the wrong size"

def badAccountResponse : SwapInstructionsResponse where
  computeBudgetInstructions := []
  setupInstructions := []
  swapInstruction := {
    programId := "11111111111111111111111111111111"
    accounts := [⟨"bad", false, true⟩]
    data := "" }
  cleanupInstruction := none
  addressLookupTableAddresses := []

/-- The one bad account aborts the process. -/
theorem bad_account_aborts :
    ¬ FailsSoftly (staticSdk sampleFromStr) badAccountResponse systemProgram 1000 1400000
      (List.replicate 32 0) ⟨0, by decide⟩ (fun _ => .error "not found") (fun _ => none) := by
  rintro ⟨r, h, _⟩
  cases h

end SolanaArbBot.Transaction
