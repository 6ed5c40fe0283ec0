import Mathlib.Data.String.Basic
import SolanaArbBot.Lib.Decimal
import SolanaArbBot.Lib.Delimited
import SolanaArbBot.TemplateCache.Signature

/-! What the signature reads of a plan. The byte stream determines the swapInfo maps
without their amounts: each hop starts over at a lower key than the last one ended. -/
namespace SolanaArbBot.TemplateCache
open Lib

/-- Text without the two separators of the byte stream. -/
def Plain (s : String) : Prop := '=' ∉ s.toList ∧ ';' ∉ s.toList

instance (s : String) : Decidable (Plain s) := inferInstanceAs (Decidable (_ ∧ _))

/-- A field of a swapInfo object: plain text, a boolean or an integer under a plain key. -/
def PlainField (field : String × Value) : Prop :=
  Plain field.1 ∧ match field.2 with
    | .string s => Plain s
    | .bool _ | .number (.int _) => True
    | _ => False

/-- A swapInfo object of the shape Metis emits. -/
structure EmittedInfo (info : List (String × Value)) : Prop where
  nodup : (info.map Prod.fst).Nodup
  ammKey : ∃ s, info.lookup "ammKey" = some (.string s)
  outputMint : ∃ s, info.lookup "outputMint" = some (.string s)
  fields : ∀ field ∈ info, PlainField field

/-- A plan whose hops all carry such an object. -/
def EmittedPlan (plan : Value) : Prop :=
  ∃ hops, plan = .array hops ∧ ∀ hop ∈ hops, ∃ outer info, hop = .object outer ∧
    outer.lookup "swapInfo" = some (.object info) ∧ EmittedInfo info

inductive JsonType where
  | null
  | bool
  | number
  | string
  | array
  | object
  deriving DecidableEq

def typeOf : Value → JsonType
  | .null => .null
  | .bool _ => .bool
  | .number _ => .number
  | .string _ => .string
  | .array _ => .array
  | .object _ => .object

def swapInfos (plan : Value) : List (List (String × Value)) :=
  (plan.asArray.getD []).filterMap Value.swapInfo

/-- A swapInfo object as a map, with the amounts erased. -/
def erased (info : List (String × Value)) (key : String) : Option Value :=
  if isAmountKey key then none else info.lookup key

/-- A key has the same JSON type wherever it occurs in the two plans. -/
def SameTypes (p q : Value) : Prop :=
  ∀ info ∈ swapInfos p, ∀ info' ∈ swapInfos q, ∀ key v v',
    info.lookup key = some v → info'.lookup key = some v' → typeOf v = typeOf v'

def hashedKeys (info : List (String × Value)) : List String :=
  (sortedKeys info).filter fun key => !isAmountKey key

def hashedFields (info : List (String × Value)) : List (String × List UInt8) :=
  (hashedKeys info).map fun key => (key, valueBytes (info.lookup key))

/-! The byte stream in terms of the hashed fields. -/

private theorem fieldBytes_eq (info : List (String × Value)) (key : String) :
    fieldBytes info key = if isAmountKey key then []
      else delimited 61 59 (asBytes key, valueBytes (info.lookup key)) := by
  unfold fieldBytes delimited
  split
  · rfl
  · have heq : asBytes "=" = [61] := rfl
    have hend : asBytes ";" = [59] := rfl
    rw [heq, hend, List.append_assoc, List.append_assoc]
    rfl

private theorem flatMap_fieldBytes (info : List (String × Value)) (keys : List String) :
    keys.flatMap (fieldBytes info) =
      ((keys.filter fun key => !isAmountKey key).map fun key =>
        (asBytes key, valueBytes (info.lookup key))).flatMap (delimited 61 59) := by
  induction keys with
  | nil => rfl
  | cons key keys ih =>
    rw [List.flatMap_cons, ih, fieldBytes_eq, List.filter_cons]
    cases isAmountKey key <;> simp

/-- The hashed fields of all hops, keys as bytes. -/
private def fieldStream (infos : List (List (String × Value))) : List (List UInt8 × List UInt8) :=
  (infos.map hashedFields).flatten.map fun f => (asBytes f.1, f.2)

private theorem flatMap_hopBytes (hops : List Value) :
    hops.flatMap hopBytes =
      (fieldStream (hops.filterMap Value.swapInfo)).flatMap (delimited 61 59) := by
  induction hops with
  | nil => rfl
  | cons hop hops ih =>
    rw [List.flatMap_cons, ih, List.filterMap_cons, hopBytes]
    cases hop.swapInfo with
    | none => rfl
    | some info =>
      simp only [fieldStream, List.map_cons, List.flatten_cons, List.map_append, List.flatMap_append]
      rw [flatMap_fieldBytes, hashedFields, hashedKeys, List.map_map]
      rfl

private theorem hashedBytes_eq (plan : Value) :
    hashedBytes plan = (fieldStream (swapInfos plan)).flatMap (delimited 61 59) := by
  unfold hashedBytes swapInfos
  cases plan.asArray with
  | none => rfl
  | some arr => exact flatMap_hopBytes arr

/-! One swapInfo object and its hashed fields. -/

section Info
variable {info info' : List (String × Value)}

private theorem hashedFields_keys (info : List (String × Value)) :
    (hashedFields info).map Prod.fst = hashedKeys info := by
  rw [hashedFields, List.map_map]
  exact List.map_id _

private theorem lookup_isSome (key : String) : (info.lookup key).isSome ↔ key ∈ info.map Prod.fst := by
  rw [List.lookup_isSome_iff, List.mem_map]
  exact exists_congr fun f => and_congr_right fun _ => beq_iff_eq.trans eq_comm

theorem mem_of_lookup {key : String} {v : Value} (h : info.lookup key = some v) :
    (key, v) ∈ info := by
  obtain ⟨l₁, l₂, rfl, _⟩ := List.lookup_eq_some_iff.mp h
  exact List.mem_append_right _ List.mem_cons_self

private theorem lookup_of_erased {key : String} {v : Value} (h : erased info key = some v) :
    isAmountKey key = false ∧ info.lookup key = some v := by
  rw [erased] at h
  cases hk : isAmountKey key with
  | true => rw [hk] at h; cases h
  | false => rw [hk] at h; exact ⟨rfl, h⟩

private theorem mem_hashedKeys (key : String) : key ∈ hashedKeys info ↔ (erased info key).isSome := by
  rw [hashedKeys, List.mem_filter, sortedKeys, List.mem_insertionSort, ← lookup_isSome, erased]
  cases isAmountKey key <;> simp

private theorem hashedKeys_sorted (h : EmittedInfo info) : (hashedKeys info).Pairwise (· < ·) := by
  have hle : (sortedKeys info).Pairwise (· ≤ ·) := List.pairwise_insertionSort _ _
  have hne : (sortedKeys info).Pairwise (· ≠ ·) :=
    (List.perm_insertionSort _ _).nodup_iff.mpr h.nodup
  exact ((hle.and hne).imp fun hab => lt_of_le_of_ne hab.1 hab.2).filter _

private theorem mem_hashedKeys_of_string {key s : String} (hk : isAmountKey key = false)
    (h : info.lookup key = some (.string s)) : key ∈ hashedKeys info := by
  rw [mem_hashedKeys, erased, hk, h]
  rfl

/-- The hashed fields run from below ammKey to above outputMint. -/
private theorem hashedFields_group (h : EmittedInfo info) :
    Group Prod.fst "ammKey" "outputMint" (hashedFields info) := by
  obtain ⟨_, hamm⟩ := h.ammKey
  obtain ⟨_, hout⟩ := h.outputMint
  constructor
  · rw [hashedFields_keys]
    exact hashedKeys_sorted h
  · rw [hashedFields_keys]
    exact mem_hashedKeys_of_string rfl hamm
  · rw [hashedFields_keys]
    exact mem_hashedKeys_of_string rfl hout

private theorem PlainField.value_bytes {key : String} {v : Value} (h : PlainField (key, v)) :
    59 ∉ valueBytes (some v) := by
  cases v with
  | string s => exact not_mem_asBytes (c := ';') (by decide) rfl h.2.2
  | bool b => cases b <;> decide
  | number n =>
    cases n with
    | int n =>
      refine not_mem_asBytes (c := ';') (by decide) rfl ?_
      intro hm
      rcases mem_intRepr hm with hd | hd
      · exact absurd hd (by decide)
      · exact absurd hd (by decide)
    | float => exact h.2.elim
  | null | array | object => exact h.2.elim

private theorem hashedFields_plain (h : EmittedInfo info) :
    ∀ f ∈ hashedFields info, 61 ∉ asBytes f.1 ∧ 59 ∉ f.2 := by
  intro f hf
  obtain ⟨key, hk, rfl⟩ := List.mem_map.mp hf
  obtain ⟨v, hv⟩ := Option.isSome_iff_exists.mp ((mem_hashedKeys key).mp hk)
  have hlook := (lookup_of_erased hv).2
  have hplain := h.fields _ (mem_of_lookup hlook)
  refine ⟨not_mem_asBytes (c := '=') (by decide) rfl hplain.1.1, ?_⟩
  dsimp only
  rw [hlook]
  exact hplain.value_bytes

private theorem PlainField.value_inj {key key' : String} {v v' : Value} (h : PlainField (key, v))
    (h' : PlainField (key', v')) (ht : typeOf v = typeOf v')
    (hb : valueBytes (some v) = valueBytes (some v')) : v = v' := by
  cases v with
  | string s =>
    cases v' with
    | string s' => exact congrArg Value.string (asBytes_injective hb)
    | _ => cases ht
  | bool b =>
    cases v' with
    | bool b' => cases b <;> cases b' <;> first | rfl | exact absurd hb (by decide)
    | _ => cases ht
  | number n =>
    cases v' with
    | number n' =>
      cases n with
      | int n =>
        cases n' with
        | int n' => rw [intRepr_injective (asBytes_injective hb)]
        | float => exact h'.2.elim
      | float => exact h.2.elim
    | _ => cases ht
  | null | array | object => exact h.2.elim

private theorem hashedKeys_eq_of_erased (h : EmittedInfo info) (h' : EmittedInfo info')
    (he : erased info = erased info') : hashedKeys info = hashedKeys info' := by
  have hs := hashedKeys_sorted h
  have hs' := hashedKeys_sorted h'
  refine List.Perm.eq_of_pairwise (fun a b _ _ hab hba => absurd hab hba.asymm) hs hs' ?_
  rw [List.perm_ext_iff_of_nodup (hs.imp fun hab => hab.ne) (hs'.imp fun hab => hab.ne)]
  intro key
  rw [mem_hashedKeys, mem_hashedKeys, he]

private theorem hashedFields_eq_iff (h : EmittedInfo info) (h' : EmittedInfo info')
    (ht : ∀ key v v', info.lookup key = some v → info'.lookup key = some v' → typeOf v = typeOf v') :
    hashedFields info = hashedFields info' ↔ erased info = erased info' := by
  constructor
  · intro he
    have hkeys : hashedKeys info = hashedKeys info' := by
      rw [← hashedFields_keys, he, hashedFields_keys]
    funext key
    by_cases hk : key ∈ hashedKeys info
    · obtain ⟨v, hv⟩ := Option.isSome_iff_exists.mp ((mem_hashedKeys key).mp hk)
      obtain ⟨v', hv'⟩ := Option.isSome_iff_exists.mp ((mem_hashedKeys key).mp (hkeys ▸ hk))
      have hl := (lookup_of_erased hv).2
      have hl' := (lookup_of_erased hv').2
      have hbytes : valueBytes (info.lookup key) = valueBytes (info'.lookup key) := by
        have hmap : (hashedKeys info).map (fun key => (key, valueBytes (info.lookup key))) =
            (hashedKeys info).map fun key => (key, valueBytes (info'.lookup key)) := by
          rw [← hashedFields, he, hashedFields, hkeys]
        exact (Prod.ext_iff.mp (List.map_inj_left.mp hmap key hk)).2
      rw [hl, hl'] at hbytes
      rw [hv, hv', (h.fields _ (mem_of_lookup hl)).value_inj (h'.fields _ (mem_of_lookup hl'))
        (ht key v v' hl hl') hbytes]
    · have hn := fun hs => hk ((mem_hashedKeys key).mpr hs)
      have hn' := fun hs => hk (hkeys ▸ (mem_hashedKeys key).mpr hs)
      rw [Option.not_isSome_iff_eq_none.mp hn, Option.not_isSome_iff_eq_none.mp hn']
  · intro he
    rw [hashedFields, hashedFields, hashedKeys_eq_of_erased h h' he]
    apply List.map_congr_left
    intro key hk
    obtain ⟨v, hv⟩ := Option.isSome_iff_exists.mp ((mem_hashedKeys key).mp hk)
    rw [(lookup_of_erased hv).2, (lookup_of_erased (he ▸ hv)).2]

end Info

theorem EmittedPlan.info {plan : Value} (h : EmittedPlan plan) :
    ∀ info ∈ swapInfos plan, EmittedInfo info := by
  obtain ⟨hops, rfl, hall⟩ := h
  intro info hi
  obtain ⟨hop, hm, hinfo⟩ := List.mem_filterMap.mp hi
  obtain ⟨outer, info', rfl, hl, he⟩ := hall hop hm
  have hsame : Value.swapInfo (.object outer) = some info' := by
    rw [Value.swapInfo, Value.get, Value.asObject, Option.bind_some, hl]
    rfl
  cases hsame.symm.trans hinfo
  exact he

private theorem mem_flatten {plan : Value} (h : EmittedPlan plan) {f : String × List UInt8}
    (hf : f ∈ ((swapInfos plan).map hashedFields).flatten) : 61 ∉ asBytes f.1 ∧ 59 ∉ f.2 := by
  obtain ⟨_, hl, hm⟩ := List.mem_flatten.mp hf
  obtain ⟨info, hi, rfl⟩ := List.mem_map.mp hl
  exact hashedFields_plain (h.info info hi) f hm

private theorem fieldStream_plain {plan : Value} (h : EmittedPlan plan) :
    ∀ f ∈ fieldStream (swapInfos plan), 61 ∉ f.1 ∧ 59 ∉ f.2 := by
  intro f hf
  obtain ⟨g, hg, rfl⟩ := List.mem_map.mp hf
  exact mem_flatten h hg

private theorem groups {plan : Value} (h : EmittedPlan plan) :
    ∀ l ∈ (swapInfos plan).map hashedFields, Group Prod.fst "ammKey" "outputMint" l := by
  intro l hl
  obtain ⟨info, hi, rfl⟩ := List.mem_map.mp hl
  exact hashedFields_group (h.info info hi)

private theorem byteKey_injective :
    Function.Injective fun f : String × List UInt8 => (asBytes f.1, f.2) := by
  intro f g h
  obtain ⟨h1, h2⟩ := Prod.mk.inj h
  exact Prod.ext (asBytes_injective h1) h2

private theorem hashedBytes_eq_iff {p q : Value} (hp : EmittedPlan p) (hq : EmittedPlan q)
    (ht : SameTypes p q) :
    hashedBytes p = hashedBytes q ↔ (swapInfos p).map erased = (swapInfos q).map erased := by
  have hfields : (swapInfos p).map hashedFields = (swapInfos q).map hashedFields ↔
      (swapInfos p).map erased = (swapInfos q).map erased :=
    map_eq_map_iff_of fun i hi j hj => hashedFields_eq_iff (hp.info i hi) (hq.info j hj) (ht i hi j hj)
  rw [← hfields, hashedBytes_eq, hashedBytes_eq]
  constructor
  · intro h
    have hstream := flatMap_delimited_inj (fieldStream_plain hp) (fieldStream_plain hq) h
    have hflat := List.map_injective_iff.mpr byteKey_injective hstream
    exact flatten_groups_inj (by decide) (groups hp) (groups hq) hflat
  · intro h
    rw [fieldStream, h, ← fieldStream]

/-- Two plans make the hash read the same bytes exactly when their sequences of
swapInfo maps agree without the amounts. They share a signature then. -/
theorem preimage_exact {p q : Value} (hp : EmittedPlan p) (hq : EmittedPlan q)
    (ht : SameTypes p q) :
    (hashedBytes p = hashedBytes q ↔ (swapInfos p).map erased = (swapInfos q).map erased) ∧
      ((swapInfos p).map erased = (swapInfos q).map erased → routeSig p = routeSig q) :=
  ⟨hashedBytes_eq_iff hp hq ht, fun h => routeSig_of_hashedBytes ((hashedBytes_eq_iff hp hq ht).mpr h)⟩

def sizedInfo (amount : String) : List (String × Value) :=
  [("ammKey", .string "pool1"), ("inAmount", .string amount), ("outputMint", .string "MINT")]

def sizedPlan (amount : String) : Value :=
  .array [.object [("swapInfo", .object (sizedInfo amount))]]

private theorem sizedInfo_string {amount : String} {field : String × Value}
    (h : field ∈ sizedInfo amount) : ∃ s, field.2 = .string s := by
  simp only [sizedInfo, List.mem_cons, List.not_mem_nil, or_false] at h
  rcases h with rfl | rfl | rfl <;> exact ⟨_, rfl⟩

private theorem sizedPlan_emitted {amount : String} (h : Plain amount) :
    EmittedPlan (sizedPlan amount) := by
  refine ⟨_, rfl, ?_⟩
  intro hop hm
  cases List.mem_singleton.mp hm
  refine ⟨_, _, rfl, rfl, by simp [sizedInfo], ⟨_, rfl⟩, ⟨_, rfl⟩, ?_⟩
  simp only [sizedInfo, List.forall_mem_cons, PlainField]
  refine ⟨⟨?_, ?_⟩, ⟨?_, h⟩, ⟨?_, ?_⟩, fun _ hm => absurd hm List.not_mem_nil⟩ <;> decide

private theorem sizedPlan_types (amount amount' : String) :
    SameTypes (sizedPlan amount) (sizedPlan amount') := by
  intro info hi info' hi' key v v' hv hv'
  cases List.mem_singleton.mp hi
  cases List.mem_singleton.mp hi'
  obtain ⟨_, rfl⟩ := sizedInfo_string (mem_of_lookup hv)
  obtain ⟨_, rfl⟩ := sizedInfo_string (mem_of_lookup hv')
  rfl

private theorem erased_sizedInfo (amount amount' : String) :
    erased (sizedInfo amount) = erased (sizedInfo amount') := by
  funext key
  by_cases hk : key = "inAmount"
  · rw [hk]
    rfl
  · simp only [erased, sizedInfo, List.lookup_cons, beq_eq_false_iff_ne.mpr hk]

/-- The trade size does not reach the hash. -/
theorem preimage_exact_sized : hashedBytes (sizedPlan "5") = hashedBytes (sizedPlan "70") :=
  (preimage_exact (sizedPlan_emitted (by decide)) (sizedPlan_emitted (by decide))
    (sizedPlan_types "5" "70")).1.mpr (congrArg (fun m => [m]) (erased_sizedInfo "5" "70"))

end SolanaArbBot.TemplateCache
