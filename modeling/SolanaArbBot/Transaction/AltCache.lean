import SolanaArbBot.Lib.HashMap
import SolanaArbBot.Lib.Runs
import SolanaArbBot.Transaction.Build

/-! The cache of lookup tables. Tip keys are taken out of a table before it is
cached, and the keys behind them move to other positions. -/
namespace SolanaArbBot.Transaction
open Lib

structure AltCache where
  inner : HashMap Pubkey AddressLookupTableAccount
  tipPubkeys : List Pubkey

def AltCache.new (tipPubkeys : List Pubkey) : AltCache := ⟨.empty, tipPubkeys⟩

/-- The table cached for account data, its tip keys left out. -/
def filterTable (tips : List Pubkey) (key : Pubkey) (addresses : List Pubkey) :
    AddressLookupTableAccount where
  key := key
  addresses := addresses.filter fun addr => !tips.contains addr

def fetchTable (sdk : Sdk) (cache : AltCache) (pubkey : Pubkey)
    (getAccount : Except String (List UInt8)) : Except String AddressLookupTableAccount :=
  match getAccount with
  | .error e => .error ("failed to fetch ALT " ++ sdk.display pubkey ++ ": " ++ e)
  | .ok data =>
    match deserializeAltAddresses data with
    | .error e => .error e
    | .ok addresses => .ok (filterTable cache.tipPubkeys pubkey addresses)

/-- One call with nothing in between its look and its insertion. -/
def getOrFetch (sdk : Sdk) (cache : AltCache) (pubkey : Pubkey)
    (getAccount : Except String (List UInt8)) :
    AltCache × Except String AddressLookupTableAccount :=
  match cache.inner.get pubkey with
  | some alt => (cache, .ok alt)
  | none =>
    match fetchTable sdk cache pubkey getAccount with
    | .error e => (cache, .error e)
    | .ok alt => ({ cache with inner := cache.inner.insert pubkey alt }, .ok alt)

def AltCache.clear (cache : AltCache) : AltCache := { cache with inner := .empty }

inductive AltEvent where
  | returned (pubkey : Pubkey) (alt : AddressLookupTableAccount)
  | failed (pubkey : Pubkey)
  | cleared

/-- Steps of any number of callers, for the given account data on chain. A caller
that missed may insert at any later time. -/
inductive AltCache.Step (chain : Pubkey → List UInt8) : AltCache → AltEvent → AltCache → Prop
  | hit {c k alt} (h : c.inner.get k = some alt) : Step chain c (.returned k alt) c
  | fetched {c k addresses} (h : deserializeAltAddresses (chain k) = .ok addresses) :
      Step chain c (.returned k (filterTable c.tipPubkeys k addresses))
        { c with inner := c.inner.insert k (filterTable c.tipPubkeys k addresses) }
  | failed {c k} : Step chain c (.failed k) c
  | cleared {c} : Step chain c .cleared c.clear

abbrev IsAltRun (chain : Pubkey → List UInt8) (tips : List Pubkey)
    (tr : List (AltEvent × AltCache)) : Prop := AllSteps (AltCache.Step chain) (.new tips) tr

/-- An uninterrupted call against the chain is such a step. -/
theorem getOrFetch_step (sdk : Sdk) (chain : Pubkey → List UInt8) (cache : AltCache)
    (pubkey : Pubkey) {getAccount : Except String (List UInt8)}
    (hchain : ∀ data, getAccount = .ok data → data = chain pubkey) :
    match getOrFetch sdk cache pubkey getAccount with
    | (cache', .ok alt) => AltCache.Step chain cache (.returned pubkey alt) cache'
    | (cache', .error _) => AltCache.Step chain cache (.failed pubkey) cache' := by
  unfold getOrFetch fetchTable
  cases hc : cache.inner.get pubkey with
  | some alt => exact .hit hc
  | none =>
    cases getAccount with
    | error e => exact .failed
    | ok data =>
      obtain rfl := hchain data rfl
      dsimp only
      cases hd : deserializeAltAddresses (chain pubkey) with
      | error e => exact .failed
      | ok addresses => exact .fetched hd

def StoredAt (data : List UInt8) (i : Nat) (key : Pubkey) : Prop :=
  headerSize + 32 * i + 32 ≤ data.length ∧ window data (headerSize + 32 * i) 32 = key.bytes

/-- A table that holds no tip key and agrees with the chain at every position. -/
structure IndicesValid (tips : List Pubkey) (data : List UInt8) (alt : AddressLookupTableAccount) :
    Prop where
  noTip : ∀ key ∈ alt.addresses, key ∉ tips
  stored : ∀ (i : Nat) (key : Pubkey), alt.addresses[i]? = some key → StoredAt data i key

/-- After a tip key only tip keys follow. -/
def TipsLast (tips addresses : List Pubkey) : Prop :=
  addresses.Pairwise fun a b => a ∈ tips → b ∈ tips

/-- The decoded addresses are the keys stored in the account data. -/
theorem deserialize_getElem? {data : List UInt8} {addresses : List Pubkey}
    (h : deserializeAltAddresses data = .ok addresses) (i : Nat) (key : Pubkey) :
    addresses[i]? = some key ↔ StoredAt data i key := by
  unfold deserializeAltAddresses at h
  split at h
  · cases h
  · next hlen =>
    dsimp only at h
    split at h
    · cases h
    · next hmod =>
      cases h
      rw [List.length_drop, not_not] at hmod
      rw [List.getElem?_ofFn, StoredAt]
      have hw : window (data.drop headerSize) (32 * i) 32 = window data (headerSize + 32 * i) 32 := by
        rw [window, List.drop_drop, window]
      split
      · next hi =>
        rw [List.length_drop] at hi
        rw [Option.some_inj, Pubkey.ext_iff, ← hw]
        exact (and_iff_right (by omega)).symm
      · next hi =>
        rw [List.length_drop] at hi
        constructor
        · intro he
          cases he
        · rintro ⟨hle, _⟩
          omega

/-- Keeping some elements keeps their positions exactly when the dropped ones
come last. -/
theorem filter_prefix_iff {α : Type} (p : α → Bool) (l : List α) :
    l.filter p <+: l ↔ l.Pairwise fun a b => p b = true → p a = true := by
  induction l with
  | nil => simp
  | cons a l ih =>
    rw [List.pairwise_cons]
    by_cases ha : p a = true
    · rw [List.filter_cons_of_pos ha, List.cons_prefix_cons, ih]
      simp [ha]
    · have hnil : (∀ b ∈ l, p b = true → p a = true) ↔ l.filter p = [] := by
        rw [List.filter_eq_nil_iff]
        simp [ha]
      rw [List.filter_cons_of_neg ha, hnil]
      constructor
      · intro h
        have hf : l.filter p = [] := by
          cases hf : l.filter p with
          | nil => rfl
          | cons b bs =>
            rw [hf] at h
            have hb : b ∈ l.filter p := by rw [hf]; exact List.mem_cons_self
            rw [(List.cons_prefix_cons.mp h).1] at hb
            exact absurd (List.mem_filter.mp hb).2 ha
        refine ⟨hf, ih.mp ?_⟩
        rw [hf]
        exact List.nil_prefix
      · rintro ⟨hf, _⟩
        rw [hf]
        exact List.nil_prefix

/-- A filtered table is valid exactly when the chain's tip keys come last. -/
theorem filterTable_valid_iff {tips : List Pubkey} {data : List UInt8} {addresses : List Pubkey}
    (h : deserializeAltAddresses data = .ok addresses) (key : Pubkey) :
    IndicesValid tips data (filterTable tips key addresses) ↔ TipsLast tips addresses := by
  have hp : (addresses.filter fun addr => !tips.contains addr) <+: addresses ↔
      TipsLast tips addresses := by
    rw [filter_prefix_iff, TipsLast]
    refine Iff.of_eq (congrArg (addresses.Pairwise ·) ?_)
    funext a b
    simp only [Bool.not_eq_true', List.contains_eq_mem, decide_eq_false_iff_not, eq_iff_iff]
    exact not_imp_not
  rw [← hp, List.prefix_iff_getElem?]
  constructor
  · rintro ⟨_, hs⟩ i hi
    rw [deserialize_getElem? h]
    apply hs
    exact List.getElem?_eq_getElem hi
  · intro hpre
    refine ⟨?_, ?_⟩
    · intro a ha
      have hm := (List.mem_filter.mp ha).2
      simpa using hm
    · intro i a ha
      obtain ⟨hi, rfl⟩ := List.getElem?_eq_some_iff.mp ha
      exact (deserialize_getElem? h i _).mp (hpre i hi)

/-- A table that a call may return: the filtered table of the chain's data. -/
def Returnable (chain : Pubkey → List UInt8) (tips : List Pubkey) (k : Pubkey)
    (alt : AddressLookupTableAccount) : Prop :=
  ∃ addresses, deserializeAltAddresses (chain k) = .ok addresses ∧ alt = filterTable tips k addresses

section Runs
variable {chain : Pubkey → List UInt8} {tips : List Pubkey}

private theorem returnable_step {c c' : AltCache} {e : AltEvent} (h : AltCache.Step chain c e c')
    (ht : c.tipPubkeys = tips) (hc : ∀ k alt, c.inner.get k = some alt → Returnable chain tips k alt) :
    c'.tipPubkeys = tips ∧ (∀ k alt, c'.inner.get k = some alt → Returnable chain tips k alt) ∧
      ∀ k alt, e = .returned k alt → Returnable chain tips k alt := by
  cases h with
  | hit hk =>
    refine ⟨ht, hc, ?_⟩
    intro k alt he
    cases he
    exact hc _ _ hk
  | @fetched k addresses hd =>
    subst ht
    refine ⟨rfl, ?_, ?_⟩
    · intro k' alt hg
      rw [HashMap.get_insert] at hg
      split at hg
      · next hk =>
        cases hg
        rw [hk]
        exact ⟨addresses, hd, rfl⟩
      · exact hc k' alt hg
    · intro k' alt he
      cases he
      exact ⟨addresses, hd, rfl⟩
  | failed =>
    refine ⟨ht, hc, ?_⟩
    intro k alt he
    cases he
  | cleared =>
    refine ⟨ht, ?_, ?_⟩
    · intro k alt hg
      cases hg
    · intro k alt he
      cases he

/-- Whatever a call returns in a run is such a table. -/
theorem IsAltRun.returned {tr : List (AltEvent × AltCache)} (h : IsAltRun chain tips tr)
    {k : Pubkey} {alt : AddressLookupTableAccount} (hr : .returned k alt ∈ labels tr) :
    Returnable chain tips k alt := by
  have hall := h.history (P := fun tr c => c.tipPubkeys = tips ∧
    (∀ k alt, c.inner.get k = some alt → Returnable chain tips k alt) ∧
    ∀ k alt, .returned k alt ∈ labels tr → Returnable chain tips k alt)
    ⟨rfl, nofun, nofun⟩ (by
      rintro tr e c' ⟨ht, hc, hr⟩ hs
      obtain ⟨ht', hc', he⟩ := returnable_step hs ht hc
      refine ⟨ht', hc', ?_⟩
      intro k alt hm
      rw [labels_append, List.mem_append] at hm
      rcases hm with hm | hm
      · exact hr k alt hm
      · exact he k alt (List.mem_singleton.mp hm).symm)
  exact hall.2.2 k alt hr

end Runs

def onChain (chain : Pubkey → List UInt8) : Tables := fun key =>
  (deserializeAltAddresses (chain key)).toOption

/-- Every transaction built with tables returned in the run loads the accounts
that its instructions name, and no tip account through a table. -/
def BuildsLoadNamed (chain : Pubkey → List UInt8) (tips : List Pubkey)
    (tr : List (AltEvent × AltCache)) : Prop :=
  ∀ sdk swapIxs payer tipLamports cuLimit hash choice fetch tx,
    (∀ k alt, fetch k = .ok alt → .returned k alt ∈ labels tr) →
    buildArbTransaction sdk swapIxs payer tipLamports cuLimit hash choice fetch =
      ExceptT.mk (.ok (.ok tx)) →
    ∃ ixs, arbInstructions sdk swapIxs payer tipLamports cuLimit choice =
        ExceptT.mk (.ok (.ok ixs)) ∧
      tx.message.Loads (onChain chain) ixs ∧
      ∀ key, tx.message.LooksUp (onChain chain) key → key ∉ tips

section Builds
variable {chain : Pubkey → List UInt8} {tips : List Pubkey}

private theorem givenTables_at {tables : List AddressLookupTableAccount} {key a : Pubkey}
    {index : UInt8} (h : (givenTables tables).at key index = some a) :
    ∃ alt ∈ tables, alt.key = key ∧ alt.addresses[index.toNat]? = some a := by
  obtain ⟨addresses, hg, ha⟩ := Option.bind_eq_some_iff.mp h
  obtain ⟨alt, hf, rfl⟩ := Option.map_eq_some_iff.mp hg
  exact ⟨alt, List.mem_of_find?_eq_some hf, by simpa using List.find?_some hf, ha⟩

private theorem givenTables_extends {tables : List AddressLookupTableAccount}
    (h : ∀ alt ∈ tables, IndicesValid tips (chain alt.key) alt ∧
      ∃ addresses, deserializeAltAddresses (chain alt.key) = .ok addresses) :
    (givenTables tables).Extends (onChain chain) := by
  intro key index a ha
  obtain ⟨alt, hm, rfl, hget⟩ := givenTables_at ha
  obtain ⟨hv, addresses, hd⟩ := h alt hm
  rw [Tables.at, onChain, hd]
  exact (deserialize_getElem? hd _ _).mpr (hv.stored _ _ hget)

private theorem buildsLoadNamed {tr : List (AltEvent × AltCache)} (h : IsAltRun chain tips tr)
    (hv : ∀ k alt, .returned k alt ∈ labels tr → IndicesValid tips (chain k) alt) :
    BuildsLoadNamed chain tips tr := by
  intro sdk swapIxs payer tipLamports cuLimit hash choice fetch tx hfetch hbuild
  obtain ⟨ixs, keys, tables, hixs, _, _, htables, hcompile⟩ := buildArbTransaction_ok hbuild
  have hall : ∀ alt ∈ tables, IndicesValid tips (chain alt.key) alt ∧
      ∃ addresses, deserializeAltAddresses (chain alt.key) = .ok addresses := by
    intro alt hm
    obtain ⟨k, _, hk⟩ := htables alt hm
    have hr := hfetch k alt hk
    obtain ⟨addresses, hd, he⟩ := h.returned hr
    have hkey : alt.key = k := by rw [he]; rfl
    rw [hkey]
    exact ⟨hv k alt hr, addresses, hd⟩
  have hext := givenTables_extends hall
  refine ⟨ixs, hixs, (sdk.compile_loads hcompile).extend hext, ?_⟩
  rintro key ⟨l, hl, index, hindex, hkey⟩
  obtain ⟨a, ha⟩ := Option.isSome_iff_exists.mp (sdk.compile_inTables hcompile l hl index hindex)
  rw [hext _ _ _ ha] at hkey
  cases hkey
  obtain ⟨alt, hm, _, hget⟩ := givenTables_at ha
  exact (hall alt hm).1.noTip _ (List.mem_of_getElem? hget)

end Builds

/-- Every table returned in every run holds no tip key and agrees with the chain
at every position, so that every build loads what it names, exactly when no
table on chain has another key behind a tip key. -/
theorem altIndices_valid_iff (chain : Pubkey → List UInt8) (tips : List Pubkey) :
    (∀ tr, IsAltRun chain tips tr →
      (∀ k alt, .returned k alt ∈ labels tr → IndicesValid tips (chain k) alt) ∧
      BuildsLoadNamed chain tips tr) ↔
    ∀ k addresses, deserializeAltAddresses (chain k) = .ok addresses → TipsLast tips addresses := by
  constructor
  · intro hall k addresses hd
    have hrun : IsAltRun chain tips [(.returned k (filterTable tips k addresses), _)] :=
      ⟨.fetched hd, trivial⟩
    exact (filterTable_valid_iff hd k).mp ((hall _ hrun).1 k _ (List.mem_singleton.mpr rfl))
  · intro hlast tr hrun
    have hv : ∀ k alt, .returned k alt ∈ labels tr → IndicesValid tips (chain k) alt := by
      intro k alt hr
      obtain ⟨addresses, hd, rfl⟩ := hrun.returned hr
      exact (filterTable_valid_iff hd k).mpr (hlast k addresses hd)
    exact ⟨hv, buildsLoadNamed hrun hv⟩

/-- A table on chain with a tip key in front of another key. -/
def tipFirstData : List UInt8 :=
  List.replicate headerSize 0 ++ (byteKey 1).bytes ++ (byteKey 2).bytes

/-- The cached table has the other key where the chain has the tip key. -/
theorem tipFirst_shifted : ∃ tr, IsAltRun (fun _ => tipFirstData) [byteKey 1] tr ∧
    .returned (byteKey 9) ⟨byteKey 9, [byteKey 2]⟩ ∈ labels tr ∧
    ¬ IndicesValid [byteKey 1] tipFirstData ⟨byteKey 9, [byteKey 2]⟩ := by
  have hd : deserializeAltAddresses tipFirstData = .ok [byteKey 1, byteKey 2] := rfl
  have hf : filterTable [byteKey 1] (byteKey 9) [byteKey 1, byteKey 2] =
      ⟨byteKey 9, [byteKey 2]⟩ := by decide
  rw [← hf]
  have hrun : IsAltRun (fun _ => tipFirstData) [byteKey 1]
      [(.returned (byteKey 9) (filterTable [byteKey 1] (byteKey 9) [byteKey 1, byteKey 2]), _)] :=
    ⟨.fetched hd, trivial⟩
  refine ⟨_, hrun, List.mem_singleton.mpr rfl, ?_⟩
  rw [filterTable_valid_iff hd, TipsLast]
  decide

end SolanaArbBot.Transaction
