import Mathlib.Data.Finmap
import Mathlib.Tactic.Common

/-! Hash maps as finite maps with an unspecified iteration order. A listing is
any order in which the entries may be visited. -/
namespace SolanaArbBot.Lib

/-- Finite maps up to the order of their entries. -/
def HashMap (K V : Type) := Finmap (fun _ : K => V)

namespace HashMap
variable {K V : Type} [DecidableEq K]

instance [DecidableEq V] : DecidableEq (HashMap K V) :=
  inferInstanceAs (DecidableEq (Finmap fun _ : K => V))

omit [DecidableEq K] in
def empty : HashMap K V := (∅ : Finmap fun _ : K => V)

def get (m : HashMap K V) (k : K) : Option V := Finmap.lookup k m

def containsKey (m : HashMap K V) (k : K) : Bool := (m.get k).isSome

def insert (m : HashMap K V) (k : K) (v : V) : HashMap K V := Finmap.insert k v m

def remove (m : HashMap K V) (k : K) : HashMap K V := Finmap.erase k m

omit [DecidableEq K] in
def keys (m : HashMap K V) : Finset K := Finmap.keys m

omit [DecidableEq K] in
def len (m : HashMap K V) : Nat := m.keys.card

def orInsert (m : HashMap K V) (k : K) (v : V) : HashMap K V :=
  if m.containsKey k then m else m.insert k v

def modify (m : HashMap K V) (k : K) (f : V → V) : HashMap K V :=
  match m.get k with
  | some v => m.insert k (f v)
  | none => m

@[simp] theorem get_empty (k : K) : (empty : HashMap K V).get k = none := Finmap.lookup_empty k

omit [DecidableEq K] in
@[simp] theorem len_empty : (empty : HashMap K V).len = 0 := rfl

/-- Maps with the same lookups are the same map. -/
theorem ext_get {m m' : HashMap K V} (h : ∀ k, m.get k = m'.get k) : m = m' :=
  Finmap.ext_lookup h

theorem mem_keys {m : HashMap K V} {k : K} : k ∈ m.keys ↔ m.containsKey k = true :=
  (Finmap.mem_keys (s := m)).trans Finmap.lookup_isSome.symm

theorem containsKey_iff {m : HashMap K V} {k : K} :
    m.containsKey k = true ↔ ∃ v, m.get k = some v :=
  Option.isSome_iff_exists

theorem containsKey_eq_false {m : HashMap K V} {k : K} :
    m.containsKey k = false ↔ m.get k = none := by
  rw [containsKey, Option.isSome_eq_false_iff, Option.isNone_iff_eq_none]

theorem get_insert (m : HashMap K V) (k x : K) (v : V) :
    (m.insert k v).get x = if x = k then some v else m.get x := by
  split
  · next h => rw [h]; exact Finmap.lookup_insert m
  · next h => exact Finmap.lookup_insert_of_ne m h

theorem get_remove (m : HashMap K V) (k x : K) :
    (m.remove k).get x = if x = k then none else m.get x := by
  split
  · next h => rw [h]; exact Finmap.lookup_erase k m
  · next h => exact Finmap.lookup_erase_ne h

theorem keys_insert (m : HashMap K V) (k : K) (v : V) :
    (m.insert k v).keys = Insert.insert k m.keys := by
  ext x
  rw [mem_keys, Finset.mem_insert, mem_keys, containsKey, get_insert]
  by_cases h : x = k <;> simp [h, containsKey]

theorem keys_remove (m : HashMap K V) (k : K) : (m.remove k).keys = m.keys.erase k :=
  Finmap.keys_erase k m

theorem len_insert_of_get_none {m : HashMap K V} {k : K} (v : V) (h : m.get k = none) :
    (m.insert k v).len = m.len + 1 := by
  have hk : k ∉ m.keys := by rw [mem_keys, containsKey, h]; simp
  rw [len, keys_insert, Finset.card_insert_of_notMem hk, len]

theorem len_insert_le (m : HashMap K V) (k : K) (v : V) : (m.insert k v).len ≤ m.len + 1 := by
  rw [len, keys_insert]
  exact Finset.card_insert_le _ _

theorem len_remove_le (m : HashMap K V) (k : K) : (m.remove k).len ≤ m.len := by
  rw [len, keys_remove]
  exact Finset.card_erase_le

theorem get_orInsert (m : HashMap K V) (k x : K) (v : V) :
    (m.orInsert k v).get x = (m.get x).or (if x = k then some v else none) := by
  unfold orInsert
  split
  · next h =>
    obtain ⟨w, hw⟩ := containsKey_iff.mp h
    split
    · next he => rw [he, hw, Option.some_or]
    · rw [Option.or_none]
  · next h =>
    rw [get_insert]
    split
    · next he => rw [he, containsKey_eq_false.mp (by simpa using h), Option.none_or]
    · rw [Option.or_none]

theorem get_modify (m : HashMap K V) (k x : K) (f : V → V) :
    (m.modify k f).get x = if x = k then (m.get x).map f else m.get x := by
  unfold modify
  split
  · next v hv =>
    rw [get_insert]
    split
    · next he => rw [he, hv, Option.map_some]
    · rfl
  · next hv =>
    split
    · next he => rw [he, hv, Option.map_none]
    · rfl

@[simp] theorem containsKey_modify (m : HashMap K V) (k x : K) (f : V → V) :
    (m.modify k f).containsKey x = m.containsKey x := by
  rw [containsKey, get_modify, containsKey]
  split
  · rw [Option.isSome_map]
  · rfl

theorem keys_modify (m : HashMap K V) (k : K) (f : V → V) : (m.modify k f).keys = m.keys := by
  ext x
  rw [mem_keys, containsKey_modify, mem_keys]

@[simp] theorem len_modify (m : HashMap K V) (k : K) (f : V → V) : (m.modify k f).len = m.len := by
  rw [len, keys_modify, len]

omit [DecidableEq K] in
/-- The pairs of a map in one of the orders in which iteration may visit them. -/
def Listing (m : HashMap K V) (l : List (K × V)) : Prop :=
  Finmap.entries m = (l.map fun p => (⟨p.1, p.2⟩ : Sigma fun _ : K => V) : List _)

namespace Listing
variable {m : HashMap K V} {l : List (K × V)}

omit [DecidableEq K] in
theorem keys_nodup (h : Listing m l) : (l.map Prod.fst).Nodup := by
  have hk := Finmap.nodupKeys m
  rw [h, Multiset.coe_nodupKeys, List.NodupKeys, List.keys, List.map_map] at hk
  exact hk

private theorem mem_entries (m : Finmap fun _ : K => V) (k : K) (v : V) :
    (⟨k, v⟩ : Sigma fun _ : K => V) ∈ m.entries ↔ m.lookup k = some v := by
  induction m using Finmap.induction_on with
  | H a =>
    rw [Finmap.lookup_toFinmap, AList.lookup, ← Option.mem_def, List.mem_dlookup_iff a.nodupKeys]
    rfl

theorem mem_iff (h : Listing m l) {k : K} {v : V} : (k, v) ∈ l ↔ m.get k = some v := by
  refine Iff.trans ?_ (mem_entries m k v)
  rw [show Finmap.entries m = _ from h, Multiset.mem_coe, List.mem_map]
  constructor
  · intro hm
    exact ⟨(k, v), hm, rfl⟩
  · rintro ⟨⟨k', v'⟩, hm, he⟩
    cases he
    exact hm

omit [DecidableEq K] in
theorem length_eq (h : Listing m l) : l.length = m.len := by
  have hc := congrArg Multiset.card h
  rw [Multiset.coe_card, List.length_map] at hc
  rw [← hc]
  exact (Multiset.card_map _ _).symm

end Listing

theorem listing_single (k : K) (v : V) : (empty.insert k v).Listing [(k, v)] := rfl

/-- Build a map from pairs; a later pair replaces an earlier one of the same key. -/
def collect (l : List (K × V)) : HashMap K V :=
  l.foldl (fun m p => m.insert p.1 p.2) empty

private theorem get_foldl_insert (l : List (K × V)) (m : HashMap K V) (k : K) (v : V)
    (hn : (l.map Prod.fst).Nodup) :
    (l.foldl (fun m p => m.insert p.1 p.2) m).get k = some v ↔
      (k, v) ∈ l ∨ (k ∉ l.map Prod.fst ∧ m.get k = some v) := by
  induction l generalizing m with
  | nil => simp
  | cons p l ih =>
    obtain ⟨k', v'⟩ := p
    rw [List.map_cons, List.nodup_cons] at hn
    rw [List.foldl_cons, ih _ hn.2, get_insert]
    by_cases hk : k = k'
    · subst hk
      have hm (w : V) : (k, w) ∉ l := fun h => hn.1 (List.mem_map.mpr ⟨(k, w), h, rfl⟩)
      simp [hn.1, hm, eq_comm]
    · simp [hk]

/-- With distinct keys the collected map holds exactly the pairs of the list. -/
theorem get_collect {l : List (K × V)} (hn : (l.map Prod.fst).Nodup) (k : K) (v : V) :
    (collect l).get k = some v ↔ (k, v) ∈ l := by
  rw [collect, get_foldl_insert l empty k v hn]
  simp

private theorem get_collect_append (l : List (K × V)) (p : K × V) (k : K) :
    (collect (l ++ [p])).get k = if k = p.1 then some p.2 else (collect l).get k := by
  rw [collect, List.foldl_append]
  exact get_insert _ _ _ _

/-- Of the pairs of a key, which may be several, one is collected. -/
theorem mem_of_get_collect {l : List (K × V)} {k : K} {v : V} (h : (collect l).get k = some v) :
    (k, v) ∈ l := by
  induction l using List.reverseRecOn with
  | nil =>
    rw [collect, List.foldl_nil, get_empty] at h
    cases h
  | append_singleton l p ih =>
    rw [get_collect_append] at h
    split at h
    · next hk =>
      refine List.mem_append_right _ (List.mem_singleton.mpr ?_)
      rw [hk, ← Option.some.inj h]
    · exact List.mem_append_left _ (ih h)

theorem exists_get_collect {l : List (K × V)} {k : K} (h : k ∈ l.map Prod.fst) :
    ∃ v, (collect l).get k = some v := by
  induction l using List.reverseRecOn with
  | nil => cases h
  | append_singleton l p ih =>
    rw [get_collect_append]
    split
    · exact ⟨p.2, rfl⟩
    · next hk =>
      rw [List.map_append, List.mem_append] at h
      rcases h with h | h
      · exact ih h
      · exact absurd (List.mem_singleton.mp h) hk

omit [DecidableEq K] in
/-- Every map can be visited in some order. -/
theorem exists_listing (m : HashMap K V) : ∃ l, Listing m l := by
  obtain ⟨es, he⟩ := Quot.exists_rep (Finmap.entries m)
  refine ⟨es.map fun e => (e.1, e.2), ?_⟩
  rw [Listing, ← he, List.map_map]
  exact congrArg _ (by simp [Function.comp_def])

end HashMap
end SolanaArbBot.Lib
