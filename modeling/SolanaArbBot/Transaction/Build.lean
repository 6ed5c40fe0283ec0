import SolanaArbBot.Lib.Base64
import SolanaArbBot.Lib.Bytes
import SolanaArbBot.Metis
import SolanaArbBot.Transaction.Solana

/-! The transaction of one opportunity: a compute limit, the circular swap and
the tip. Outer failures abort the process, inner ones drop the item. -/
namespace SolanaArbBot.Transaction
open Lib

def jitoTipAccounts : List String := [
  "96gYZGLnJYVFmbjzopPSU6QiEV5fGqZNyN9nmNhvrZU5",
  "HFqU5x63VTqvQss8hp11i4wVV8bD44PvwucfZ2bU7gRe",
  "Cw8CFyM9FkoMi7K7Crf6HNQqf4uEMzpKw6QNghXLvLkY",
  "ADaUMid9yfUytqMBgopwjb2DTLSokTSzL1zt6iGPaS49",
  "DfXygSm4jCyNCybVYYK6DwvWqjKee8pbDmJGcLWNDXjh",
  "ADuUkR4vqLUMWXxW9gh6D6L8pMSawimctcNZ5pGwDcEt",
  "DttWaMuVvTiduZRnguLF7jNxTgiMBZ1hyAumKUiL2KRL",
  "3AVi9Tg9Uo68tJfuvoKvqKNWKkC5wPdSSdeBnizKZ6jT"]

def jitoTipPubkeys (sdk : Sdk) : List Pubkey :=
  jitoTipAccounts.filterMap fun a => (sdk.fromStr a).toOption

/-- A result that may be an error, within a run that may abort. -/
abbrev Fallible (α : Type) : Type := ExceptT String (Except Panic) α

def abort {α : Type} (p : Panic) : Fallible α := ExceptT.mk (.error p)

def ofExcept {α : Type} (r : Except String α) : Fallible α := ExceptT.mk (.ok r)

def toAccountMeta (sdk : Sdk) (a : SolanaArbBot.AccountMeta) : Fallible AccountMeta :=
  match sdk.fromStr a.pubkey with
  | .ok pubkey => pure { pubkey := pubkey, isSigner := a.isSigner, isWritable := a.isWritable }
  | .error _ => abort (.expect "invalid pubkey in instruction")

def toSdkInstruction (sdk : Sdk) (ix : InstructionData) : Fallible Instruction := do
  let programId ← ofExcept (sdk.fromStr ix.programId)
  let accounts ← ix.accounts.mapM (toAccountMeta sdk)
  match Base64.decode ix.data with
  | some data => pure { programId := programId, accounts := accounts, data := data }
  | none => throw "failed to decode instruction data"

def systemProgram : Pubkey := ⟨List.replicate 32 0, rfl⟩

def transfer (payer recipient : Pubkey) (lamports : UInt64) : Instruction where
  programId := systemProgram
  accounts := [⟨payer, true, true⟩, ⟨recipient, false, true⟩]
  data := [2, 0, 0, 0] ++ leBytes lamports

/-- The three instructions of a transaction; the tip account is chosen at random. -/
def arbInstructions (sdk : Sdk) (swapIxs : SwapInstructionsResponse) (payer : Pubkey)
    (tipLamports : UInt64) (cuLimit : UInt32) (choice : Fin jitoTipAccounts.length) :
    Fallible (List Instruction) := do
  let computeBudget ← ofExcept (sdk.fromStr "ComputeBudget111111111111111111111111111111")
  let swap ← toSdkInstruction sdk swapIxs.swapInstruction
  let tipAccount ← ofExcept (sdk.fromStr (jitoTipAccounts.get choice))
  pure [
    { programId := computeBudget, accounts := [], data := 2 :: leBytes32 cuLimit },
    swap,
    transfer payer tipAccount tipLamports]

/-- Parse the table addresses, keeping the first occurrence of each. -/
def altAddresses (sdk : Sdk) : List String → List Pubkey → Except String (List Pubkey)
  | [], known => .ok known
  | addr :: addrs, known => do
    let pubkey ← sdk.fromStr addr
    altAddresses sdk addrs (if known.contains pubkey then known else known ++ [pubkey])

/-- Fetch the tables in order; the first failure ends it. -/
def fetchTables (getOrFetch : Pubkey → Except String AddressLookupTableAccount) :
    List Pubkey → Except String (List AddressLookupTableAccount)
  | [] => .ok []
  | key :: keys => do
    let table ← getOrFetch key
    let tables ← fetchTables getOrFetch keys
    return table :: tables

def withContext {α : Type} (context : String) : Except String α → Except String α
  | .ok a => .ok a
  | .error _ => .error context

/-- Build and sign; each table is what the cache returns for its address here. -/
def buildArbTransaction (sdk : Sdk) (swapIxs : SwapInstructionsResponse) (payer : Pubkey)
    (tipLamports : UInt64) (cuLimit : UInt32) (recentBlockhash : List UInt8)
    (choice : Fin jitoTipAccounts.length)
    (getOrFetch : Pubkey → Except String AddressLookupTableAccount) :
    Fallible VersionedTransaction := do
  let instructions ← arbInstructions sdk swapIxs payer tipLamports cuLimit choice
  let keys ← ofExcept (altAddresses sdk swapIxs.addressLookupTableAddresses [])
  let tables ← ofExcept (fetchTables getOrFetch keys)
  let message ← ofExcept (withContext "failed to compile v0 message"
    (sdk.tryCompile payer instructions tables recentBlockhash))
  let signatures ← ofExcept (withContext "failed to sign versioned transaction"
    (sdk.trySign message))
  return { signatures := signatures, message := message }

/-- The accounts a transaction locks: its own keys and all looked-up ones. -/
def accountLockCount (tx : VersionedTransaction) : Nat :=
  tx.message.accountKeys.length +
    (tx.message.addressTableLookups.map fun l =>
      l.writableIndexes.length + l.readonlyIndexes.length).sum

def headerSize : Nat := 56

private theorem chunk_size {data : List UInt8} {i : Nat} (h : 32 * (i + 1) ≤ data.length) :
    (window data (32 * i) 32).length = 32 := by
  rw [window, List.length_take, List.length_drop]
  omega

def chunk (data : List UInt8) (i : Nat) (h : 32 * (i + 1) ≤ data.length) : Pubkey where
  bytes := window data (32 * i) 32
  size := chunk_size h

def deserializeAltAddresses (data : List UInt8) : Except String (List Pubkey) :=
  if data.length < headerSize then
    .error ("ALT account data too short: " ++ toString data.length ++ " bytes")
  else
    let addressesData := data.drop headerSize
    if addressesData.length % 32 ≠ 0 then
      .error ("ALT addresses data has invalid length: " ++ toString addressesData.length ++
        " (not a multiple of 32)")
    else
      .ok (List.ofFn fun i : Fin (addressesData.length / 32) => chunk addressesData i (by omega))

/-! What a successful build is made of. -/

theorem fallible_bind {α β : Type} {x : Fallible α} {f : α → Fallible β} {b : β}
    (h : (x >>= f) = ExceptT.mk (.ok (.ok b))) :
    ∃ a, x = ExceptT.mk (.ok (.ok a)) ∧ f a = ExceptT.mk (.ok (.ok b)) := by
  cases hx : x.run with
  | error e =>
    change ExceptT.run x >>= _ = _ at h
    rw [hx] at h
    cases h
  | ok r =>
    change ExceptT.run x >>= _ = _ at h
    rw [hx] at h
    cases r with
    | error e => cases h
    | ok a => exact ⟨a, hx, h⟩

theorem ofExcept_ok {α : Type} {r : Except String α} {a : α}
    (h : ofExcept r = ExceptT.mk (.ok (.ok a))) : r = .ok a := by
  cases h
  rfl

theorem withContext_ok {α : Type} {context : String} {r : Except String α} {a : α}
    (h : withContext context r = .ok a) : r = .ok a := by
  cases r with
  | ok b => exact h
  | error e => cases h

/-- Parsed addresses are kept, and each one is there in the end. -/
theorem altAddresses_ok {sdk : Sdk} {addrs : List String} {known keys : List Pubkey}
    (h : altAddresses sdk addrs known = .ok keys) :
    known ⊆ keys ∧ ∀ addr ∈ addrs, ∃ key ∈ keys, sdk.fromStr addr = .ok key := by
  induction addrs generalizing known with
  | nil =>
    cases h
    exact ⟨List.Subset.refl _, fun _ hm => absurd hm List.not_mem_nil⟩
  | cons addr addrs ih =>
    rw [altAddresses] at h
    cases hk : sdk.fromStr addr with
    | error e => rw [hk] at h; cases h
    | ok key =>
      rw [hk] at h
      obtain ⟨hsub, hall⟩ := ih h
      refine ⟨fun k hm => hsub ?_, List.forall_mem_cons.mpr ⟨⟨key, hsub ?_, hk⟩, hall⟩⟩
      · split
        · exact hm
        · exact List.mem_append_left _ hm
      · split
        · next hc => exact List.contains_iff_mem.mp hc
        · exact List.mem_append_right _ (List.mem_singleton.mpr rfl)

/-- Fetching gives a table for each key and no other ones. -/
theorem fetchTables_ok {getOrFetch : Pubkey → Except String AddressLookupTableAccount}
    {keys : List Pubkey} {tables : List AddressLookupTableAccount}
    (h : fetchTables getOrFetch keys = .ok tables) :
    (∀ key ∈ keys, ∃ table ∈ tables, getOrFetch key = .ok table) ∧
      ∀ table ∈ tables, ∃ key ∈ keys, getOrFetch key = .ok table := by
  induction keys generalizing tables with
  | nil =>
    cases h
    exact ⟨fun _ hm => absurd hm List.not_mem_nil, fun _ hm => absurd hm List.not_mem_nil⟩
  | cons key keys ih =>
    rw [fetchTables] at h
    cases hk : getOrFetch key with
    | error e => rw [hk] at h; cases h
    | ok t =>
      cases hr : fetchTables getOrFetch keys with
      | error e => rw [hk, hr] at h; cases h
      | ok ts =>
        rw [hk, hr] at h
        cases h
        obtain ⟨hkeys, htables⟩ := ih hr
        refine ⟨List.forall_mem_cons.mpr ⟨⟨t, List.mem_cons_self, hk⟩, ?_⟩,
          List.forall_mem_cons.mpr ⟨⟨key, List.mem_cons_self, hk⟩, ?_⟩⟩
        · intro k hm
          obtain ⟨table, ht, hg⟩ := hkeys k hm
          exact ⟨table, List.mem_cons_of_mem _ ht, hg⟩
        · intro table hm
          obtain ⟨k, hkm, hg⟩ := htables table hm
          exact ⟨k, List.mem_cons_of_mem _ hkm, hg⟩

/-- A built transaction is the compiled message of the three instructions over the
tables that the cache returned for the addresses of the response. -/
theorem buildArbTransaction_ok {sdk : Sdk} {swapIxs : SwapInstructionsResponse} {payer : Pubkey}
    {tipLamports : UInt64} {cuLimit : UInt32} {hash : List UInt8}
    {choice : Fin jitoTipAccounts.length}
    {getOrFetch : Pubkey → Except String AddressLookupTableAccount} {tx : VersionedTransaction}
    (h : buildArbTransaction sdk swapIxs payer tipLamports cuLimit hash choice getOrFetch =
      ExceptT.mk (.ok (.ok tx))) :
    ∃ ixs keys tables,
      arbInstructions sdk swapIxs payer tipLamports cuLimit choice = ExceptT.mk (.ok (.ok ixs)) ∧
      altAddresses sdk swapIxs.addressLookupTableAddresses [] = .ok keys ∧
      (∀ key ∈ keys, ∃ table ∈ tables, getOrFetch key = .ok table) ∧
      (∀ table ∈ tables, ∃ key ∈ keys, getOrFetch key = .ok table) ∧
      sdk.tryCompile payer ixs tables hash = .ok tx.message := by
  obtain ⟨ixs, hixs, h⟩ := fallible_bind h
  obtain ⟨keys, hkeys, h⟩ := fallible_bind h
  obtain ⟨tables, htables, h⟩ := fallible_bind h
  obtain ⟨message, hmessage, h⟩ := fallible_bind h
  obtain ⟨signatures, _, h⟩ := fallible_bind h
  cases h
  obtain ⟨hfetched, hgiven⟩ := fetchTables_ok (ofExcept_ok htables)
  exact ⟨ixs, keys, tables, hixs, ofExcept_ok hkeys, hfetched, hgiven,
    withContext_ok (ofExcept_ok hmessage)⟩

end SolanaArbBot.Transaction
