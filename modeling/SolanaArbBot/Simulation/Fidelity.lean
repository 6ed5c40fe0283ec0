import SolanaArbBot.Lib.Canonical
import SolanaArbBot.Lib.Writes
import SolanaArbBot.Simulation.Simulator
import SolanaArbBot.Transaction.AltCache

/-! What a simulation runs on: the cached state of every account that the transaction
loads, whichever worker runs it and whatever it ran before. -/
namespace SolanaArbBot.Simulation
open Lib Transaction AccountCache Arbitrage

instance : Std.Total fun a b : Pubkey => a.bytes ≤ b.bytes := ⟨fun a b => List.le_total a.bytes b.bytes⟩

instance : IsTrans Pubkey fun a b : Pubkey => a.bytes ≤ b.bytes := ⟨fun _ _ _ => List.le_trans⟩

instance : Std.Antisymm fun a b : Pubkey => a.bytes ≤ b.bytes :=
  ⟨fun _ _ h h' => Pubkey.ext (List.le_antisymm h h')⟩

/-! Which accounts are collected. -/

theorem collectTxAccounts_eq (tx : VersionedTransaction) (alts : List AddressLookupTableAccount) :
    collectTxAccounts tx alts = sortDedup (fun a b : Pubkey => a.bytes ≤ b.bytes)
      (tx.message.accountKeys ++ tx.message.addressTableLookups.flatMap (lookupKeys alts)) := rfl

theorem nodup_collectTxAccounts (tx : VersionedTransaction) (alts : List AddressLookupTableAccount) :
    (collectTxAccounts tx alts).Nodup := nodup_sortDedup _

private theorem mem_lookupKeys {alts : List AddressLookupTableAccount}
    {lookup : MessageAddressTableLookup} {key : Pubkey} : key ∈ lookupKeys alts lookup ↔
      ∃ index ∈ lookup.writableIndexes ++ lookup.readonlyIndexes,
        (givenTables alts).at lookup.accountKey index = some key := by
  unfold lookupKeys Tables.at givenTables
  cases alts.find? fun a => a.key = lookup.accountKey with
  | none => simp
  | some alt => exact List.mem_filterMap

theorem mem_loadedKeys {m : Message} {tables : Tables} {key : Pubkey} :
    some key ∈ m.loadedKeys tables ↔ key ∈ m.accountKeys ∨ m.LooksUp tables key := by
  unfold Message.loadedKeys Message.LooksUp
  simp only [List.mem_append, List.mem_map, List.mem_flatMap, Option.some.injEq, exists_eq_right]
  constructor
  · rintro ((hk | ⟨l, hl, index, hi, ha⟩) | ⟨l, hl, index, hi, ha⟩)
    · exact Or.inl hk
    · exact Or.inr ⟨l, hl, index, Or.inl hi, ha⟩
    · exact Or.inr ⟨l, hl, index, Or.inr hi, ha⟩
  · rintro (hk | ⟨l, hl, index, hi | hi, ha⟩)
    · exact Or.inl (Or.inl hk)
    · exact Or.inl (Or.inr ⟨l, hl, index, hi, ha⟩)
    · exact Or.inr ⟨l, hl, index, hi, ha⟩

/-- The collected accounts are those that the message loads through the given tables. -/
theorem mem_collectTxAccounts {tx : VersionedTransaction} {alts : List AddressLookupTableAccount}
    {key : Pubkey} : key ∈ collectTxAccounts tx alts ↔
      some key ∈ tx.message.loadedKeys (givenTables alts) := by
  rw [collectTxAccounts_eq, mem_sortDedup, mem_loadedKeys, List.mem_append, List.mem_flatMap]
  simp only [mem_lookupKeys, Message.LooksUp]

/-! What the preparation leaves. -/

/-- What is relied on of the runtime's account store. An account that is no program and
no sysvar is there as it was set, unless it has no lamports; the others stay as they
are. Only the clock's own account changes the slot that was warped to. -/
structure LiteSVM.Stores {V Wire Tx : Type} (lite : LiteSVM V Wire Tx) (sysvar : Pubkey → Prop)
    (clock : Pubkey) (clockSlot : V → UInt64) : Prop where
  get_set : ∀ v pk acct, ¬ sysvar pk → acct.executable = false →
    lite.getAccount (lite.setAccount v pk acct).1 pk = if acct.lamports = 0 then none else some acct
  get_set_ne : ∀ v pk acct k, k ≠ pk →
    lite.getAccount (lite.setAccount v pk acct).1 k = lite.getAccount v k
  slot_warp : ∀ v slot, clockSlot (lite.warpToSlot v slot) = slot
  slot_set : ∀ v pk acct, pk ≠ clock → clockSlot (lite.setAccount v pk acct).1 = clockSlot v

def resolveAlts (sdk : Sdk) (getOrFetch : Pubkey → Except String AddressLookupTableAccount) :
    List String → Except String (List AddressLookupTableAccount)
  | [] => .ok []
  | s :: addresses => do
    let pk ← match sdk.fromStr s with
      | .ok pk => .ok pk
      | .error e => .error ("bad ALT pubkey " ++ s ++ ": " ++ e)
    let alt ← withContext "ALT fetch for sim failed" (getOrFetch pk)
    let out ← resolveAlts sdk getOrFetch addresses
    return alt :: out

section Prepare
variable {V Wire Tx : Type} {lite : LiteSVM V Wire Tx} {rpc : Pubkey → Except String Account}
  {sim : Simulator} {sysvar : Pubkey → Prop} {clock : Pubkey} {clockSlot : V → UInt64}

private theorem fetchMissing_frame (cache : HashMap Pubkey Account) (pk x : Pubkey) (h : x ≠ pk) :
    (fetchMissing rpc cache pk).get x = cache.get x := by
  unfold fetchMissing
  split
  · rfl
  · split
    · rw [HashMap.get_insert, if_neg h]
    · rfl

private theorem get_fetchMissing (cache : HashMap Pubkey Account) (pk : Pubkey) :
    (fetchMissing rpc cache pk).get pk = (cache.get pk).or (rpc pk).toOption := by
  unfold fetchMissing
  cases hc : cache.get pk with
  | some acct =>
    dsimp only
    rw [hc, Option.some_or]
  | none =>
    cases hr : rpc pk with
    | ok acct => exact (HashMap.get_insert _ _ _ _).trans (if_pos rfl)
    | error e => exact hc

/-- What is cached stays, what is loaded and not cached is fetched, and nothing else is. -/
theorem prepare_cache (s : Shared V) (tx : VersionedTransaction)
    (alts : List AddressLookupTableAccount) (key : Pubkey) :
    (prepare lite rpc sim s tx alts).cache.get key =
      (s.cache.get key).or (if key ∈ collectTxAccounts tx alts then (rpc key).toOption else none) := by
  have hcache : (prepare lite rpc sim s tx alts).cache =
      (collectTxAccounts tx alts).foldl (fetchMissing rpc) s.cache := rfl
  rw [hcache]
  split
  · next h =>
    obtain ⟨cache, hget, hx⟩ := foldl_visit
      fetchMissing_frame (nodup_collectTxAccounts tx alts) h s.cache
    rw [hx, get_fetchMissing, hget]
  · next h =>
    rw [Option.or_none]
    exact foldl_visit_other fetchMissing_frame h s.cache

theorem injectTable_frame (h : lite.Stores sysvar clock clockSlot) (cache : HashMap Pubkey Account)
    (svm : V) (alt : AddressLookupTableAccount) (hc : alt.key ≠ clock) :
    clockSlot (injectTable lite cache svm alt) = clockSlot svm := by
  unfold injectTable
  split
  · exact h.slot_set _ _ _ hc
  · rfl

theorem injectAccount_frame (h : lite.Stores sysvar clock clockSlot) (cache : HashMap Pubkey Account)
    (svm : V) (pk x : Pubkey) (hx : x ≠ pk) :
    lite.getAccount (injectAccount lite cache svm pk) x = lite.getAccount svm x := by
  unfold injectAccount
  split
  · split
    · rfl
    · exact h.get_set_ne _ _ _ _ hx
  · rfl

theorem injectAccount_clock (h : lite.Stores sysvar clock clockSlot) (cache : HashMap Pubkey Account)
    (svm : V) (pk : Pubkey) (hc : pk ≠ clock) :
    clockSlot (injectAccount lite cache svm pk) = clockSlot svm := by
  unfold injectAccount
  split
  · split
    · rfl
    · exact h.slot_set _ _ _ hc
  · rfl

private theorem foldl_keeps {S K A : Type} {get : S → A} {visit : S → K → S} {keys : List K}
    (h : ∀ s, ∀ k ∈ keys, get (visit s k) = get s) (s : S) : get (keys.foldl visit s) = get s := by
  induction keys generalizing s with
  | nil => rfl
  | cons k keys ih =>
    obtain ⟨hk, hkeys⟩ := List.forall_mem_cons.mp (fun k hk s => h s k hk)
    exact (ih (fun s k hm => hkeys k hm s) (visit s k)).trans (hk s)

/-- Whatever the runtime held before, a transaction runs on the cached state of the accounts
that its message loads through the given tables, those that were missing having been
fetched, and at the current slot unless it loads the clock's own account. -/
theorem prepare_faithful (h : lite.Stores sysvar clock clockSlot) (s : Shared V)
    (tx : VersionedTransaction) (alts : List AddressLookupTableAccount) :
    let s' := prepare lite rpc sim s tx alts
    (∀ key, some key ∈ tx.message.loadedKeys (givenTables alts) →
      s'.cache.get key = (s.cache.get key).or (rpc key).toOption ∧
      ∀ acct, s'.cache.get key = some acct → acct.executable = false → ¬ sysvar key →
        lite.getAccount s'.svm key = if acct.lamports = 0 then none else some acct) ∧
    (∀ key, some key ∉ tx.message.loadedKeys (givenTables alts) →
      s'.cache.get key = s.cache.get key) ∧
    (some clock ∉ tx.message.loadedKeys (givenTables alts) → (∀ alt ∈ alts, alt.key ≠ clock) →
      clockSlot s'.svm = sim.currentSlot) := by
  intro s'
  have hsvm : s'.svm = (collectTxAccounts tx alts).foldl (injectAccount lite s'.cache)
      (alts.foldl (injectTable lite s'.cache) (lite.warpToSlot s.svm sim.currentSlot)) := rfl
  refine ⟨?_, ?_, ?_⟩
  · intro key hkey
    have hmem := mem_collectTxAccounts.mpr hkey
    refine ⟨(prepare_cache s tx alts key).trans (by rw [if_pos hmem]), ?_⟩
    intro acct hacct hexec hsys
    obtain ⟨svm, -, hget⟩ := foldl_visit
      (injectAccount_frame h s'.cache) (nodup_collectTxAccounts tx alts) hmem
      (alts.foldl (injectTable lite s'.cache) (lite.warpToSlot s.svm sim.currentSlot))
    rw [hsvm, hget, injectAccount, hacct]
    dsimp only
    rw [if_neg (by rw [hexec]; decide)]
    exact h.get_set _ _ _ hsys hexec
  · intro key hkey
    rw [prepare_cache s tx alts key, if_neg (fun hm => hkey (mem_collectTxAccounts.mp hm)), Option.or_none]
  · intro hclock halts
    have hne : ∀ key ∈ collectTxAccounts tx alts, key ≠ clock := by
      rintro key hkey rfl
      exact hclock (mem_collectTxAccounts.mp hkey)
    rw [hsvm, foldl_keeps fun svm pk hpk => injectAccount_clock h s'.cache svm pk (hne pk hpk),
      foldl_keeps fun svm alt halt => injectTable_frame h s'.cache svm alt (halts alt halt),
      h.slot_warp]

end Prepare
/-- A runtime that stores accounts and executes nothing. -/
def storingRuntime :
    LiteSVM (HashMap Pubkey Account × UInt64) VersionedTransaction VersionedTransaction where
  warpToSlot := fun v slot => (v.1, slot)
  setAccount := fun v pk acct =>
    ((if acct.lamports = 0 then v.1.remove pk else v.1.insert pk acct, v.2), .ok ())
  getAccount := fun v pk => v.1.get pk
  serialize := fun tx => .ok tx
  deserialize := fun tx => .ok tx
  simulateTransaction := fun _ _ => .ok ⟨0, []⟩
  debugErr := id
  debugLogs := String.join

theorem storingRuntime_stores : storingRuntime.Stores (fun _ => False) (byteKey 9) Prod.snd where
  get_set v pk acct _ _ := by
    by_cases h : acct.lamports = 0
    · rw [if_pos h]
      change (if acct.lamports = 0 then v.1.remove pk else v.1.insert pk acct).get pk = none
      rw [if_pos h, HashMap.get_remove, if_pos rfl]
    · rw [if_neg h]
      change (if acct.lamports = 0 then v.1.remove pk else v.1.insert pk acct).get pk = some acct
      rw [if_neg h, HashMap.get_insert, if_pos rfl]
  get_set_ne v pk acct k hk := by
    change (if acct.lamports = 0 then v.1.remove pk else v.1.insert pk acct).get k = v.1.get k
    split
    · rw [HashMap.get_remove, if_neg hk]
    · rw [HashMap.get_insert, if_neg hk]
  slot_warp _ _ := rfl
  slot_set _ _ _ _ := rfl

/-- A worker that has seen nothing runs on the cached account. -/
theorem prepare_faithful_fresh :
    storingRuntime.getAccount (prepare storingRuntime (fun _ => .error "offline") exampleGate
      { exampleCache with svm := (HashMap.empty, 0) } (exampleTransaction []) []).svm (byteKey 2) =
    exampleCache.cache.get (byteKey 2) := by
  obtain ⟨hloaded, -, -⟩ := @prepare_faithful _ _ _ storingRuntime (fun _ => .error "offline")
    exampleGate _ _ _ storingRuntime_stores { exampleCache with svm := (HashMap.empty, 0) }
    (exampleTransaction []) []
  obtain ⟨hcache, hacct⟩ := hloaded (byteKey 2) (by decide)
  obtain ⟨acct, hget⟩ := Option.isSome_iff_exists.mp
    (by decide : (exampleCache.cache.get (byteKey 2)).isSome)
  obtain ⟨hexec, hlamports⟩ := (by decide : ∀ a ∈ exampleCache.cache.get (byteKey 2),
    a.executable = false ∧ a.lamports ≠ 0) acct hget
  dsimp only at hcache
  rw [hget, Option.some_or] at hcache
  rw [hacct acct hcache hexec not_false, if_neg hlamports, hget]

/-! The accounts of a transaction that was built. -/

section Built
variable {sdk : Sdk} {getOrFetch getOrFetch' : Pubkey → Except String AddressLookupTableAccount}
  {chain : Pubkey → List UInt8} {tips : List Pubkey}

theorem returnable_key {k : Pubkey} {alt : AddressLookupTableAccount}
    (h : Returnable chain tips k alt) : alt.key = k := by
  obtain ⟨_, _, rfl⟩ := h
  rfl

theorem returnable_unique {k : Pubkey} {alt alt' : AddressLookupTableAccount}
    (h : Returnable chain tips k alt) (h' : Returnable chain tips k alt') : alt = alt' := by
  obtain ⟨addresses, ha, rfl⟩ := h
  obtain ⟨addresses', ha', rfl⟩ := h'
  rw [ha] at ha'
  cases ha'
  rfl

/-- The parsed addresses are those that were known and those of the list. -/
theorem altAddresses_mem {addrs : List String} {known keys : List Pubkey}
    (h : altAddresses sdk addrs known = .ok keys) {key : Pubkey} (hk : key ∈ keys) :
    key ∈ known ∨ ∃ addr ∈ addrs, sdk.fromStr addr = .ok key := by
  induction addrs generalizing known with
  | nil =>
    cases h
    exact Or.inl hk
  | cons addr addrs ih =>
    rw [altAddresses] at h
    cases hp : sdk.fromStr addr with
    | error e =>
      rw [hp] at h
      cases h
    | ok pubkey =>
      rw [hp] at h
      rcases ih h with hm | ⟨a, ha, hf⟩
      · by_cases hc : known.contains pubkey
        · rw [if_pos hc] at hm
          exact Or.inl hm
        · rw [if_neg hc, List.mem_append, List.mem_singleton] at hm
          rcases hm with hm | rfl
          · exact Or.inl hm
          · exact Or.inr ⟨addr, List.mem_cons_self, hp⟩
      · exact Or.inr ⟨a, List.mem_cons_of_mem _ ha, hf⟩

/-- Every address has its table among the resolved ones, which are all fetched. -/
theorem resolveAlts_ok {addrs : List String} {alts : List AddressLookupTableAccount}
    (h : resolveAlts sdk getOrFetch addrs = .ok alts) :
    (∀ addr ∈ addrs, ∃ key, sdk.fromStr addr = .ok key ∧ ∃ alt ∈ alts, getOrFetch key = .ok alt) ∧
      ∀ alt ∈ alts, ∃ key, getOrFetch key = .ok alt := by
  induction addrs generalizing alts with
  | nil =>
    cases h
    exact ⟨fun _ hm => absurd hm List.not_mem_nil, fun _ hm => absurd hm List.not_mem_nil⟩
  | cons addr addrs ih =>
    rw [resolveAlts] at h
    cases hp : sdk.fromStr addr with
    | error e =>
      rw [hp] at h
      cases h
    | ok key =>
      cases hg : getOrFetch key with
      | error e =>
        rw [hp] at h
        simp only [bind, Except.bind, hg, withContext] at h
        cases h
      | ok alt =>
        cases hr : resolveAlts sdk getOrFetch addrs with
        | error e =>
          rw [hp, hr] at h
          simp only [bind, Except.bind, hg, withContext] at h
          cases h
        | ok out =>
          rw [hp, hr] at h
          simp only [bind, Except.bind, hg, withContext] at h
          cases h
          obtain ⟨haddrs, hout⟩ := ih hr
          refine ⟨List.forall_mem_cons.mpr ⟨⟨key, hp, alt, List.mem_cons_self, hg⟩, ?_⟩,
            List.forall_mem_cons.mpr ⟨⟨key, hg⟩, hout⟩⟩
          intro a ha
          obtain ⟨k, hk, t, ht, hf⟩ := haddrs a ha
          exact ⟨k, hk, t, List.mem_cons_of_mem _ ht, hf⟩

private theorem find_table {tables : List AddressLookupTableAccount} {k : Pubkey}
    {t : AddressLookupTableAccount} (h : (tables.find? fun a => a.key = k) = some t) :
    t ∈ tables ∧ t.key = k := by
  have hkey := List.find?_some h
  exact ⟨List.mem_of_find?_eq_some h, of_decide_eq_true hkey⟩

private theorem givenTables_eq {tables : List AddressLookupTableAccount}
    (hf : ∀ t ∈ tables, ∃ k, Returnable chain tips k t) {t : AddressLookupTableAccount}
    (ht : t ∈ tables) : givenTables tables t.key = some t.addresses := by
  unfold givenTables
  cases hfind : tables.find? fun a => a.key = t.key with
  | none =>
    have hno := List.find?_eq_none.mp hfind t ht
    exact absurd (decide_eq_true rfl) hno
  | some u =>
    obtain ⟨hmem, hu⟩ := find_table hfind
    obtain ⟨k, hk⟩ := hf t ht
    obtain ⟨k', hk'⟩ := hf u hmem
    have hkk : k' = k := (returnable_key hk').symm.trans (hu.trans (returnable_key hk))
    subst hkk
    rw [returnable_unique hk' hk]
    rfl

private theorem loaded_of_named {m : Message} {tables : Tables} {ixs : List Instruction}
    (h : m.Loads tables ixs) {key : Pubkey} (hk : key ∈ namedKeys ixs) :
    some key ∈ m.loadedKeys tables := by
  obtain ⟨ix, hix, hkey⟩ := List.mem_flatMap.mp hk
  obtain ⟨i, hi, rfl⟩ := List.getElem_of_mem hix
  obtain ⟨hlen, hall⟩ := List.forall₂_iff_get.mp h
  obtain ⟨hprog, haccts⟩ := hall i (by omega) hi
  rcases List.mem_cons.mp hkey with rfl | hkey
  · exact List.mem_of_getElem? hprog
  · obtain ⟨a, ha, rfl⟩ := List.mem_map.mp hkey
    obtain ⟨j, hj, rfl⟩ := List.getElem_of_mem ha
    obtain ⟨hlen', hall'⟩ := List.forall₂_iff_get.mp haccts
    exact List.mem_of_getElem? (hall' j (by rw [hlen']; exact hj) hj)

/-- The gate collects every account that the instructions of a built transaction name,
when the tables for building and for simulating come from one cache, at any moments of
its run, and the table accounts on chain stay as they are. -/
theorem built_collected {swapIxs : SwapInstructionsResponse} {payer : Pubkey} {tipLamports : UInt64}
    {cuLimit : UInt32} {hash : List UInt8} {choice : Fin jitoTipAccounts.length}
    {tx : VersionedTransaction} {alts : List AddressLookupTableAccount}
    {tr : List (AltEvent × AltCache)} (hrun : IsAltRun chain tips tr)
    (hget : ∀ k alt, getOrFetch k = .ok alt → .returned k alt ∈ labels tr)
    (hget' : ∀ k alt, getOrFetch' k = .ok alt → .returned k alt ∈ labels tr)
    (hb : buildArbTransaction sdk swapIxs payer tipLamports cuLimit hash choice getOrFetch =
      ExceptT.mk (.ok (.ok tx)))
    (ha : resolveAlts sdk getOrFetch' swapIxs.addressLookupTableAddresses = .ok alts) :
    ∃ ixs, arbInstructions sdk swapIxs payer tipLamports cuLimit choice = ExceptT.mk (.ok (.ok ixs)) ∧
      ∀ key ∈ namedKeys ixs, key ∈ collectTxAccounts tx alts := by
  have hret (k alt) (h : getOrFetch k = .ok alt) : Returnable chain tips k alt :=
    hrun.returned (hget k alt h)
  have hret' (k alt) (h : getOrFetch' k = .ok alt) : Returnable chain tips k alt :=
    hrun.returned (hget' k alt h)
  obtain ⟨ixs, keys, tables, hixs, hkeys, _, htables, hm⟩ := buildArbTransaction_ok hb
  obtain ⟨haddrs, hfetched⟩ := resolveAlts_ok ha
  have hextends : (givenTables tables).Extends (givenTables alts) := by
    intro k index a hat
    unfold Tables.at at hat ⊢
    obtain ⟨addresses, htab, haddr⟩ := Option.bind_eq_some_iff.mp hat
    obtain ⟨t, hfind, rfl⟩ := Option.map_eq_some_iff.mp htab
    obtain ⟨htmem, rfl⟩ := find_table hfind
    obtain ⟨key, hmem, hgot⟩ := htables t htmem
    rcases altAddresses_mem hkeys hmem with hno | ⟨addr, haddrmem, hparse⟩
    · cases hno
    · obtain ⟨key', hparse', alt, halt, hgot'⟩ := haddrs addr haddrmem
      rw [hparse] at hparse'
      cases hparse'
      -- the table for simulating is the one for building
      have hsame := returnable_unique (hret key t hgot) (hret' key alt hgot')
      subst hsame
      have hall : ∀ t ∈ alts, ∃ k, Returnable chain tips k t := by
        intro u hu
        obtain ⟨k, hk⟩ := hfetched u hu
        exact ⟨k, hret' k u hk⟩
      rw [givenTables_eq hall halt]
      exact haddr
  refine ⟨ixs, hixs, fun key hk => mem_collectTxAccounts.mpr ?_⟩
  exact loaded_of_named ((sdk.compile_loads hm).extend hextends) hk

end Built

instance (c : CompiledInstruction) (keys : List (Option Pubkey)) (ix : Instruction) :
    Decidable (c.Names keys ix) := inferInstanceAs (Decidable (_ ∧ _))

instance (m : Message) (tables : Tables) (ixs : List Instruction) : Decidable (m.Loads tables ixs) :=
  inferInstanceAs (Decidable (List.Forall₂ (fun c ix => CompiledInstruction.Names c (m.loadedKeys tables) ix)
    m.instructions ixs))

/-- Compile with the keys that stand in a table looked up there, if that is right. -/
def compileTables (payer : Pubkey) (ixs : List Instruction) (tables : List AddressLookupTableAccount)
    (hash : List UInt8) : Except String Message :=
  let inTable (t : AddressLookupTableAccount) := (namedKeys ixs).filter t.addresses.contains
  let static := (payer :: namedKeys ixs).filter fun k => !tables.any fun t => t.addresses.contains k
  let index (k : Pubkey) : UInt8 := UInt8.ofNat ((static ++ tables.flatMap inTable).idxOf k)
  let m : Message := {
    accountKeys := static
    recentBlockhash := hash
    instructions := ixs.map fun ix =>
      ⟨index ix.programId, ix.accounts.map fun a => index a.pubkey, ix.data⟩
    addressTableLookups := tables.map fun t =>
      ⟨t.key, (inTable t).map fun k => UInt8.ofNat (t.addresses.idxOf k), []⟩ }
  if m.Loads (givenTables tables) ixs ∧
      ∀ l ∈ m.addressTableLookups, ∀ index ∈ l.writableIndexes ++ l.readonlyIndexes,
        ((givenTables tables).at l.accountKey index).isSome then .ok m
  else .error "failed to compile"

def tableSdk (fromStr : String → Except String Pubkey) : Sdk where
  fromStr := fromStr
  display := fun _ => ""
  tryCompile := compileTables
  trySign := fun _ => .ok []
  compile_loads := by
    intro payer ixs tables hash m h
    unfold compileTables at h
    dsimp only at h
    split at h
    · next hc =>
      cases h
      exact hc.1
    · cases h
  compile_inTables := by
    intro payer ixs tables hash m h
    unfold compileTables at h
    dsimp only at h
    split at h
    · next hc =>
      cases h
      exact hc.2
    · cases h

/-- A response whose swap names a pool that stands in its table. -/
def pooledResponse : SwapInstructionsResponse where
  computeBudgetInstructions := []
  setupInstructions := []
  swapInstruction := { programId := "swap", accounts := [⟨"pool", false, true⟩], data := "" }
  cleanupInstruction := none
  addressLookupTableAddresses := ["table"]

def pooledKeys (s : String) : Except String Pubkey :=
  if s = "pool" then .ok (byteKey 2) else if s = "table" then .ok (byteKey 9) else .ok (byteKey 1)

def pooledData : List UInt8 := List.replicate headerSize 0 ++ (byteKey 3).bytes ++ (byteKey 2).bytes

def pooledTable : AddressLookupTableAccount := filterTable [byteKey 3] (byteKey 9) [byteKey 3, byteKey 2]

def pooledFetch (k : Pubkey) : Except String AddressLookupTableAccount :=
  if k = byteKey 9 then .ok pooledTable else .error "not found"

set_option maxRecDepth 4000 in
/-- The table is fetched for building, and found in the cache for simulating. -/
theorem built_collected_pooled : ∃ tx ixs,
    buildArbTransaction (tableSdk pooledKeys) pooledResponse (byteKey 4) 1000 1400000
      (List.replicate 32 0) ⟨0, by decide⟩ pooledFetch = ExceptT.mk (.ok (.ok tx)) ∧
    byteKey 2 ∈ namedKeys ixs ∧ byteKey 2 ∉ tx.message.accountKeys ∧
    arbInstructions (tableSdk pooledKeys) pooledResponse (byteKey 4) 1000 1400000
      ⟨0, by decide⟩ = ExceptT.mk (.ok (.ok ixs)) ∧
    ∀ key ∈ namedKeys ixs, key ∈ collectTxAccounts tx [pooledTable] := by
  have hd : deserializeAltAddresses pooledData = .ok [byteKey 3, byteKey 2] := rfl
  let cache : AltCache := ⟨HashMap.empty.insert (byteKey 9) pooledTable, [byteKey 3]⟩
  have hrun : IsAltRun (fun _ => pooledData) [byteKey 3]
      [(.returned (byteKey 9) pooledTable, cache), (.returned (byteKey 9) pooledTable, cache)] :=
    ⟨.fetched hd, .hit rfl, trivial⟩
  have hget (k : Pubkey) (alt : AddressLookupTableAccount) (h : pooledFetch k = .ok alt) :
      .returned k alt ∈ labels [(AltEvent.returned (byteKey 9) pooledTable, cache),
        (.returned (byteKey 9) pooledTable, cache)] := by
    unfold pooledFetch at h
    split at h
    · next hk =>
      cases h
      rw [hk]
      exact List.mem_cons_self
    · cases h
  obtain ⟨tx, htx, hout⟩ : ∃ tx, buildArbTransaction (tableSdk pooledKeys) pooledResponse
      (byteKey 4) 1000 1400000 (List.replicate 32 0) ⟨0, by decide⟩ pooledFetch =
      ExceptT.mk (.ok (.ok tx)) ∧ byteKey 2 ∉ tx.message.accountKeys := by
    refine ⟨_, rfl, ?_⟩
    decide
  obtain ⟨ixs, hixs, hall⟩ := built_collected hrun hget hget htx rfl
  have hnamed : byteKey 2 ∈ namedKeys ixs := by
    cases hixs
    decide
  exact ⟨tx, ixs, htx, hnamed, hout, hixs, hall⟩

end SolanaArbBot.Simulation
