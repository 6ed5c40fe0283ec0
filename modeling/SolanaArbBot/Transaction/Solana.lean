import Mathlib

/-! The part of a versioned transaction that decides which accounts the runtime
loads. The SDK itself is a parameter. -/
namespace SolanaArbBot.Transaction

@[ext] structure Pubkey where
  bytes : List UInt8
  size : bytes.length = 32
  deriving DecidableEq

def byteKey (b : UInt8) : Pubkey := ⟨List.replicate 32 b, List.length_replicate⟩

structure AccountMeta where
  pubkey : Pubkey
  isSigner : Bool
  isWritable : Bool
  deriving DecidableEq

structure Instruction where
  programId : Pubkey
  accounts : List AccountMeta
  data : List UInt8
  deriving DecidableEq

structure AddressLookupTableAccount where
  key : Pubkey
  addresses : List Pubkey
  deriving DecidableEq

/-- The accounts a message loads through one table, as positions in it. -/
structure MessageAddressTableLookup where
  accountKey : Pubkey
  writableIndexes : List UInt8
  readonlyIndexes : List UInt8
  deriving DecidableEq

/-- An instruction whose accounts are positions among the loaded keys. -/
structure CompiledInstruction where
  programIdIndex : UInt8
  accounts : List UInt8
  data : List UInt8
  deriving DecidableEq

structure Message where
  accountKeys : List Pubkey
  recentBlockhash : List UInt8
  instructions : List CompiledInstruction
  addressTableLookups : List MessageAddressTableLookup
  deriving DecidableEq

structure VersionedTransaction where
  signatures : List (List UInt8)
  message : Message

abbrev Tables := Pubkey → Option (List Pubkey)

def Tables.at (tables : Tables) (key : Pubkey) (index : UInt8) : Option Pubkey :=
  (tables key).bind fun addresses => addresses[index.toNat]?

/-- The keys a message loads: its own, then the writable and the read-only ones
that its lookups find in the tables. -/
def Message.loadedKeys (m : Message) (tables : Tables) : List (Option Pubkey) :=
  m.accountKeys.map some ++
    (m.addressTableLookups.flatMap fun l => l.writableIndexes.map (tables.at l.accountKey)) ++
    m.addressTableLookups.flatMap fun l => l.readonlyIndexes.map (tables.at l.accountKey)

def Message.LooksUp (m : Message) (tables : Tables) (key : Pubkey) : Prop :=
  ∃ l ∈ m.addressTableLookups, ∃ index ∈ l.writableIndexes ++ l.readonlyIndexes,
    tables.at l.accountKey index = some key

/-- The compiled instruction runs the program and names the accounts of the given one. -/
def CompiledInstruction.Names (c : CompiledInstruction) (keys : List (Option Pubkey))
    (ix : Instruction) : Prop :=
  keys[c.programIdIndex.toNat]? = some (some ix.programId) ∧
    List.Forall₂ (fun index a => keys[UInt8.toNat index]? = some (some a.pubkey)) c.accounts ix.accounts

/-- Every instruction finds the accounts it names among the loaded keys. -/
def Message.Loads (m : Message) (tables : Tables) (ixs : List Instruction) : Prop :=
  List.Forall₂ (fun c ix => CompiledInstruction.Names c (m.loadedKeys tables) ix) m.instructions ixs

def givenTables (accounts : List AddressLookupTableAccount) : Tables := fun key =>
  (accounts.find? fun a => a.key = key).map AddressLookupTableAccount.addresses

/-- The SDK functions the bot calls. The laws are the compiler's: an instruction's
accounts are found in the tables it was given, at positions those tables have. -/
structure Sdk where
  fromStr : String → Except String Pubkey
  display : Pubkey → String
  tryCompile : Pubkey → List Instruction → List AddressLookupTableAccount → List UInt8 →
    Except String Message
  trySign : Message → Except String (List (List UInt8))
  compile_loads : ∀ {payer ixs tables hash m}, tryCompile payer ixs tables hash = .ok m →
    m.Loads (givenTables tables) ixs
  compile_inTables : ∀ {payer ixs tables hash m}, tryCompile payer ixs tables hash = .ok m →
    ∀ l ∈ m.addressTableLookups, ∀ index ∈ l.writableIndexes ++ l.readonlyIndexes,
      ((givenTables tables).at l.accountKey index).isSome

def namedKeys (ixs : List Instruction) : List Pubkey :=
  ixs.flatMap fun ix => ix.programId :: ix.accounts.map AccountMeta.pubkey

def compileStatic (ixs : List Instruction) (hash : List UInt8) : Except String Message :=
  let keys := namedKeys ixs
  let index (key : Pubkey) : UInt8 := UInt8.ofNat (keys.idxOf key)
  if keys.length ≤ 256 then
    .ok {
      accountKeys := keys
      recentBlockhash := hash
      instructions := ixs.map fun ix => {
        programIdIndex := index ix.programId
        accounts := ix.accounts.map fun a => index a.pubkey
        data := ix.data }
      addressTableLookups := [] }
  else .error "too many account keys"

private theorem loads_compileStatic {ixs : List Instruction} {hash : List UInt8} {m : Message}
    (h : compileStatic ixs hash = .ok m) (tables : Tables) :
    m.Loads tables ixs ∧ m.addressTableLookups = [] := by
  unfold compileStatic at h
  dsimp only at h
  split at h
  · next hlen =>
    cases h
    refine ⟨?_, rfl⟩
    have hget (key : Pubkey) (hk : key ∈ namedKeys ixs) :
        ((namedKeys ixs).map some ++ [] ++ [] : List (Option Pubkey))[
          (UInt8.ofNat ((namedKeys ixs).idxOf key)).toNat]? = some (some key) := by
      have hi : (namedKeys ixs).idxOf key < (namedKeys ixs).length := List.idxOf_lt_length_iff.mpr hk
      have hn : (UInt8.ofNat ((namedKeys ixs).idxOf key)).toNat = (namedKeys ixs).idxOf key := by
        rw [UInt8.toNat_ofNat', Nat.mod_eq_of_lt (by omega)]
      rw [hn, List.append_nil, List.append_nil, List.getElem?_map, List.getElem?_eq_getElem hi,
        List.getElem_idxOf hi]
      rfl
    have hnamed (ix : Instruction) (hix : ix ∈ ixs) (key : Pubkey)
        (hk : key = ix.programId ∨ key ∈ ix.accounts.map AccountMeta.pubkey) :
        key ∈ namedKeys ixs := by
      refine List.mem_flatMap.mpr ⟨ix, hix, ?_⟩
      rw [List.mem_cons]
      exact hk
    apply List.forall₂_map_left_iff.mpr
    apply List.forall₂_same.mpr
    intro ix hix
    refine ⟨hget _ (hnamed ix hix _ (Or.inl rfl)), ?_⟩
    apply List.forall₂_map_left_iff.mpr
    apply List.forall₂_same.mpr
    intro a ha
    exact hget _ (hnamed ix hix _ (Or.inr (List.mem_map_of_mem ha)))
  · cases h

def staticSdk (fromStr : String → Except String Pubkey) : Sdk where
  fromStr := fromStr
  display := fun _ => ""
  tryCompile := fun _ ixs _ hash => compileStatic ixs hash
  trySign := fun _ => .ok []
  compile_loads := fun h => (loads_compileStatic h _).1
  compile_inTables := by
    intro payer ixs tables hash m h l hl
    rw [(loads_compileStatic h (fun _ => none)).2] at hl
    cases hl

/-- The laws leave room for a compiler. -/
instance : Nonempty Sdk := ⟨staticSdk fun _ => .error "invalid"⟩

def Tables.Extends (tables tables' : Tables) : Prop :=
  ∀ key index a, tables.at key index = some a → tables'.at key index = some a

section Extend
variable {tables tables' : Tables}

private theorem getElem?_append_map {α : Type} {xs ys xs' ys' : List (Option α)}
    (hx : xs.length = xs'.length)
    (h1 : ∀ (i : Nat) (a : α), xs[i]? = some (some a) → xs'[i]? = some (some a))
    (h2 : ∀ (i : Nat) (a : α), ys[i]? = some (some a) → ys'[i]? = some (some a)) (i : Nat) (a : α)
    (h : (xs ++ ys)[i]? = some (some a)) : (xs' ++ ys')[i]? = some (some a) := by
  by_cases hi : i < xs.length
  · rw [List.getElem?_append_left hi] at h
    rw [List.getElem?_append_left (hx ▸ hi)]
    exact h1 i a h
  · rw [List.getElem?_append_right (by omega)] at h
    rw [List.getElem?_append_right (by omega), ← hx]
    exact h2 _ a h

private theorem getElem?_map_extend (h : tables.Extends tables') (key : Pubkey)
    (indexes : List UInt8) (i : Nat) (a : Pubkey)
    (hi : (indexes.map (tables.at key))[i]? = some (some a)) :
    (indexes.map (tables'.at key))[i]? = some (some a) := by
  rw [List.getElem?_map, Option.map_eq_some_iff] at hi ⊢
  obtain ⟨index, hidx, ha⟩ := hi
  exact ⟨index, hidx, h key index a ha⟩

private theorem getElem?_flatMap_extend (h : tables.Extends tables')
    (f : MessageAddressTableLookup → List UInt8) (ls : List MessageAddressTableLookup) (i : Nat)
    (a : Pubkey)
    (hi : (ls.flatMap fun l => (f l).map (tables.at l.accountKey))[i]? = some (some a)) :
    (ls.flatMap fun l => (f l).map (tables'.at l.accountKey))[i]? = some (some a) := by
  induction ls generalizing i a with
  | nil => exact hi
  | cons l ls ih =>
    rw [List.flatMap_cons] at hi ⊢
    apply getElem?_append_map ?_ ?_ ?_ i a hi
    · simp only [List.length_map]
    · exact getElem?_map_extend h l.accountKey (f l)
    · exact ih

/-- Keys found in some tables are found at the same places in tables that extend them. -/
theorem Message.loadedKeys_extend (h : tables.Extends tables') (m : Message) (i : Nat) (a : Pubkey)
    (hi : (m.loadedKeys tables)[i]? = some (some a)) :
    (m.loadedKeys tables')[i]? = some (some a) := by
  have hlen (t t' : Tables) (f : MessageAddressTableLookup → List UInt8)
      (ls : List MessageAddressTableLookup) :
      (ls.flatMap fun l => (f l).map (t.at l.accountKey)).length =
        (ls.flatMap fun l => (f l).map (t'.at l.accountKey)).length := by
    simp only [List.length_flatMap, List.length_map]
  unfold Message.loadedKeys at hi ⊢
  apply getElem?_append_map ?_ ?_ ?_ i a hi
  · rw [List.length_append, List.length_append, hlen tables tables']
  · apply getElem?_append_map rfl
    · intro _ _ h
      exact h
    · exact getElem?_flatMap_extend h _ _
  · exact getElem?_flatMap_extend h _ _

/-- A message that names its accounts through some tables names the same ones
through tables that extend them. -/
theorem Message.Loads.extend {m : Message} {ixs : List Instruction} (hl : m.Loads tables ixs)
    (h : tables.Extends tables') : m.Loads tables' ixs := by
  apply List.Forall₂.imp ?_ hl
  rintro c ix ⟨hp, ha⟩
  refine ⟨m.loadedKeys_extend h _ _ hp, List.Forall₂.imp ?_ ha⟩
  intro index a hk
  exact m.loadedKeys_extend h _ _ hk

end Extend
end SolanaArbBot.Transaction
