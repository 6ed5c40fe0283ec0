import SolanaArbBot.TemplateCache.HopIndex
import SolanaArbBot.TemplateCache.Preimage
import SolanaArbBot.TemplateCache.Structure

/-! What a lookup by hop pair can return. The pair key names its two hops, and the
signature it leads to is shared by plans of the same two hops only. -/
namespace SolanaArbBot.TemplateCache
open Lib

/-- Text without the separators of the pair key. -/
def Unseparated (s : String) : Prop := ':' ∉ s.toList ∧ '|' ∉ s.toList

instance (s : String) : Decidable (Unseparated s) := inferInstanceAs (Decidable (_ ∧ _))

/-- A plan whose hops all carry a swapInfo object, with identities free of separators. -/
structure MetisPlan (plan : Value) : Prop where
  carries : ∀ hop ∈ plan.asArray.getD [], hop.swapInfo.isSome
  separable : ∀ info ∈ swapInfos plan, ∀ key ∈ ["ammKey", "inputMint", "outputMint"], ∀ s,
    info.lookup key = some (.string s) → Unseparated s

/-- The hash tells the swapInfo sequences of the plans apart, amounts aside. -/
def SequencesApart (plans : Set Value) : Prop :=
  ∀ p ∈ plans, ∀ q ∈ plans, routeSig p = routeSig q →
    (swapInfos p).map erased = (swapInfos q).map erased

/-- The two hops go through the same pool, between the same mints, in the same direction. -/
def SamePath (hop hop' : Value) : Prop :=
  ∃ k k', hopKey hop = some k ∧ hopKey hop' = some k' ∧
    k.poolOrAmmKey = k'.poolOrAmmKey ∧ k.inputMint = k'.inputMint ∧
    k.outputMint = k'.outputMint ∧ k.direction = k'.direction

/-! The pair key determines its hops. -/

structure HopKey.Separable (k : HopKey) : Prop where
  pool : Unseparated k.poolOrAmmKey
  input : Unseparated k.inputMint
  output : Unseparated k.outputMint
  hash : k.remainingAccountsHash = 0

private theorem DirectionParams.text_no_bar (d : DirectionParams) : '|' ∉ d.text.toList := by
  cases d with
  | aToB b => cases b <;> decide
  | none | sideBid | sideAsk => decide

theorem HopKey.Separable.colonless {k : HopKey} (h : k.Separable) : k.Colonless :=
  ⟨h.pool.1, h.input.1, h.output.1⟩

private theorem templateId_no_bar {k : HopKey} (h : k.Separable) : '|' ∉ k.templateId.toList := by
  rw [HopKey.templateId_toList, h.hash]
  simp [h.pool.2, h.input.2, h.output.2, DirectionParams.text_no_bar]

private theorem hopPairKey_eq_some {plan : Value} {pairKey : String}
    (h : hopPairKey plan = some pairKey) : ∃ hop₀ hop₁ k₀ k₁, plan = .array [hop₀, hop₁] ∧
      hopKey hop₀ = some k₀ ∧ hopKey hop₁ = some k₁ ∧
      pairKey.toList = k₀.templateId.toList ++ '|' :: k₁.templateId.toList := by
  unfold hopPairKey at h
  cases plan with
  | array items =>
    dsimp only [Value.asArray] at h
    split at h
    · next hop₀ hop₁ he =>
      cases he
      cases hk₀ : hopKey hop₀ with
      | none => rw [hk₀] at h; cases h
      | some k₀ =>
        cases hk₁ : hopKey hop₁ with
        | none => rw [hk₀, hk₁] at h; cases h
        | some k₁ =>
          rw [hk₀, hk₁] at h
          cases h
          exact ⟨hop₀, hop₁, k₀, k₁, rfl, hk₀, hk₁, by simp [String.toList_append]⟩
    · cases h
  | _ => cases h

private theorem bind_asStr {o : Option Value} {s : String} (h : o.bind Value.asStr = some s) :
    o = some (.string s) := by
  obtain ⟨v, rfl, hv⟩ := Option.bind_eq_some_iff.mp h
  cases v with
  | string s' => cases hv; rfl
  | _ => cases hv

private theorem fromSwapInfo_eq_some {info : List (String × Value)} {k : HopKey}
    (h : HopKey.fromSwapInfo info = some k) :
    info.lookup "ammKey" = some (.string k.poolOrAmmKey) ∧
      info.lookup "inputMint" = some (.string k.inputMint) ∧
      info.lookup "outputMint" = some (.string k.outputMint) ∧ k.remainingAccountsHash = 0 := by
  obtain ⟨pool, hpool, h⟩ := Option.bind_eq_some_iff.mp h
  obtain ⟨input, hinput, h⟩ := Option.bind_eq_some_iff.mp h
  obtain ⟨output, houtput, h⟩ := Option.bind_eq_some_iff.mp h
  have hkey := Option.some.inj h
  subst hkey
  exact ⟨bind_asStr hpool, bind_asStr hinput, bind_asStr houtput, rfl⟩

section Congr
variable {info info' : List (String × Value)}

private theorem lookup_congr (h : erased info = erased info') (key : String)
    (hk : isAmountKey key = false) : info.lookup key = info'.lookup key := by
  have hkey := congrFun h key
  rw [erased, erased, hk] at hkey
  exact hkey

private theorem firstBool_congr (h : erased info = erased info') {keys : List String}
    (hk : ∀ key ∈ keys, isAmountKey key = false) : firstBool info keys = firstBool info' keys := by
  induction keys with
  | nil => rfl
  | cons key keys ih =>
    obtain ⟨hhead, htail⟩ := List.forall_mem_cons.mp hk
    rw [firstBool, firstBool, lookup_congr h key hhead, ih htail]

private theorem extractDirection_congr (h : erased info = erased info') (dex : DexKind) :
    extractDirection dex info = extractDirection dex info' := by
  cases dex with
  | whirlpool | whirlpoolSwapV2 | alphaQ => exact firstBool_congr h (by decide)
  | aldrinV2 => rw [extractDirection, extractDirection, lookup_congr h "side" rfl]
  | _ => rfl

private theorem fromSwapInfo_congr (h : erased info = erased info') :
    HopKey.fromSwapInfo info = HopKey.fromSwapInfo info' := by
  have hdir := extractDirection_congr h
  have hamm := lookup_congr h "ammKey" rfl
  have hinput := lookup_congr h "inputMint" rfl
  have houtput := lookup_congr h "outputMint" rfl
  have hlabel := lookup_congr h "label" rfl
  simp only [HopKey.fromSwapInfo, hamm, hinput, houtput, hlabel, hdir]

end Congr

private theorem separable_of_plan {plan : Value} (h : MetisPlan plan) {hop : Value} {k : HopKey}
    (hm : hop ∈ plan.asArray.getD []) (hk : hopKey hop = some k) : k.Separable := by
  obtain ⟨info, hi, hf⟩ := Option.bind_eq_some_iff.mp hk
  obtain ⟨hpool, hinput, houtput, hhash⟩ := fromSwapInfo_eq_some hf
  have hinfo : info ∈ swapInfos plan := List.mem_filterMap.mpr ⟨hop, hm, hi⟩
  exact ⟨h.separable info hinfo _ (by simp) _ hpool, h.separable info hinfo _ (by simp) _ hinput,
    h.separable info hinfo _ (by simp) _ houtput, hhash⟩

/-- Plans with one pair key go the same two-hop path. -/
theorem samePath_of_hopPairKey {p q : Value} {pairKey : String} (hp : MetisPlan p)
    (hq : MetisPlan q) (hkp : hopPairKey p = some pairKey) (hkq : hopPairKey q = some pairKey) :
    ∃ hop₀ hop₁ hop₀' hop₁', p = .array [hop₀, hop₁] ∧ q = .array [hop₀', hop₁'] ∧
      SamePath hop₀ hop₀' ∧ SamePath hop₁ hop₁' := by
  obtain ⟨hop₀, hop₁, k₀, k₁, rfl, hk₀, hk₁, hkey⟩ := hopPairKey_eq_some hkp
  obtain ⟨hop₀', hop₁', k₀', k₁', rfl, hk₀', hk₁', hkey'⟩ := hopPairKey_eq_some hkq
  have hs₀ := separable_of_plan hp (by simp [Value.asArray]) hk₀
  have hs₁ := separable_of_plan hp (by simp [Value.asArray]) hk₁
  have hs₀' := separable_of_plan hq (by simp [Value.asArray]) hk₀'
  have hs₁' := separable_of_plan hq (by simp [Value.asArray]) hk₁'
  obtain ⟨he₀, he₁⟩ := append_sep_inj (templateId_no_bar hs₀) (templateId_no_bar hs₀')
    (hkey.symm.trans hkey')
  obtain ⟨hpool₀, hinput₀, houtput₀, hdir₀, _⟩ :=
    HopKey.templateId_inj hs₀.colonless hs₀'.colonless he₀
  obtain ⟨hpool₁, hinput₁, houtput₁, hdir₁, _⟩ :=
    HopKey.templateId_inj hs₁.colonless hs₁'.colonless he₁
  exact ⟨hop₀, hop₁, hop₀', hop₁', rfl, rfl,
    ⟨k₀, k₀', hk₀, hk₀', hpool₀, hinput₀, houtput₀, hdir₀⟩,
    k₁, k₁', hk₁, hk₁', hpool₁, hinput₁, houtput₁, hdir₁⟩

private theorem swapInfos_pair {hop₀ hop₁ : Value} {k₀ k₁ : HopKey} (h₀ : hopKey hop₀ = some k₀)
    (h₁ : hopKey hop₁ = some k₁) : ∃ info₀ info₁, swapInfos (.array [hop₀, hop₁]) = [info₀, info₁] ∧
      HopKey.fromSwapInfo info₀ = some k₀ ∧ HopKey.fromSwapInfo info₁ = some k₁ := by
  obtain ⟨info₀, hi₀, hf₀⟩ := Option.bind_eq_some_iff.mp h₀
  obtain ⟨info₁, hi₁, hf₁⟩ := Option.bind_eq_some_iff.mp h₁
  refine ⟨info₀, info₁, ?_, hf₀, hf₁⟩
  simp [swapInfos, Value.asArray, hi₀, hi₁]

private theorem hops_infos {hops : List Value} (h : ∀ hop ∈ hops, hop.swapInfo.isSome) :
    List.Forall₂ (fun hop info => Value.swapInfo hop = some info) hops
      (hops.filterMap Value.swapInfo) := by
  induction hops with
  | nil => exact .nil
  | cons hop hops ih =>
    obtain ⟨hhead, htail⟩ := List.forall_mem_cons.mp h
    obtain ⟨info, hi⟩ := Option.isSome_iff_exists.mp hhead
    rw [List.filterMap_cons_some hi]
    exact .cons hi (ih htail)

private theorem two_hops {plan : Value} (h : MetisPlan plan) {info₀ info₁ : List (String × Value)}
    (hi : swapInfos plan = [info₀, info₁]) : ∃ hop₀ hop₁, plan = .array [hop₀, hop₁] ∧
      hop₀.swapInfo = some info₀ ∧ hop₁.swapInfo = some info₁ := by
  have hall := hops_infos h.carries
  rw [← swapInfos, hi] at hall
  cases plan with
  | array hops =>
    rw [Value.asArray, Option.getD_some] at hall
    cases hall with
    | cons h₀ hall =>
      cases hall with
      | cons h₁ hall =>
        cases hall
        exact ⟨_, _, rfl, h₀, h₁⟩
  | _ => cases hi

private theorem hopPairKey_of_erased {p q : Value} {pairKey : String} (hq : MetisPlan q)
    (hk : hopPairKey p = some pairKey)
    (he : (swapInfos p).map erased = (swapInfos q).map erased) : hopPairKey q = some pairKey := by
  obtain ⟨hop₀, hop₁, k₀, k₁, rfl, hk₀, hk₁, _⟩ := hopPairKey_eq_some hk
  obtain ⟨info₀, info₁, hinfos, hf₀, hf₁⟩ := swapInfos_pair hk₀ hk₁
  rw [hinfos] at he
  obtain ⟨info₀', rest, hinfos', he₀, hrest⟩ := List.map_eq_cons_iff.mp he.symm
  obtain ⟨info₁', rest', rfl, he₁, hnil⟩ := List.map_eq_cons_iff.mp hrest
  rw [List.map_eq_nil_iff.mp hnil] at hinfos'
  obtain ⟨hop₀', hop₁', rfl, hi₀, hi₁⟩ := two_hops hq hinfos'
  have hk₀' : hopKey hop₀' = some k₀ := by
    rw [hopKey, hi₀, Option.bind_some, fromSwapInfo_congr he₀, hf₀]
  have hk₁' : hopKey hop₁' = some k₁ := by
    rw [hopKey, hi₁, Option.bind_some, fromSwapInfo_congr he₁, hf₁]
  rw [← hk]
  simp only [hopPairKey, Value.asArray, hk₀, hk₁, hk₀', hk₁']

/-- An index entry comes from the insertion of a plan of that pair. -/
theorem index_entry {tr : List (Op × StoreInner)} (h : IsRun tr) {pairKey : String}
    {sig : Sig} (hk : (finalStore tr).hopPairIndex.get pairKey = some sig) :
    ∃ ix a q plan, .insertRoute sig ix a q plan ∈ labels tr ∧ hopPairKey plan = some pairKey := by
  induction tr using List.reverseRecOn with
  | nil => cases hk
  | append_singleton tr e ih =>
    obtain ⟨op, g⟩ := e
    obtain ⟨htr, hstep, _⟩ := allSteps_append.mp h
    rw [finalStore, lastState_append] at hk
    rw [labels_append]
    have hget := (hstep.index_get (IsRun.inv htr) pairKey).symm.trans hk
    rcases Option.or_eq_some_iff.mp hget with hold | ⟨_, hnew⟩
    · obtain ⟨ix, a, q, plan, hm, hpk⟩ := ih htr hold
      exact ⟨ix, a, q, plan, List.mem_append_left _ hm, hpk⟩
    · obtain ⟨plan, hc, hpk⟩ := offered_eq_some.mp hnew
      obtain ⟨⟨ix, a, q, rfl⟩, _⟩ := created_eq_some.mp hc
      exact ⟨ix, a, q, plan, List.mem_append_right _ List.mem_cons_self, hpk⟩

def CreatedFor (tr : List (Op × StoreInner)) (t : RouteTemplate) (plan : Value) : Prop :=
  ∃ since, LiveSince (routeSig plan)
    (.insertRoute (routeSig plan) t.swapIxs t.templateInAmount t.templateQuotedOut plan) tr since

/-- A template found by hop pair was created for a plan that goes the same two-hop
path as the plan it is found for. -/
theorem getRouteForHops_sound {plans : Set Value} (hplans : ∀ plan ∈ plans, MetisPlan plan)
    (hapart : SequencesApart plans) {tr : List (Op × StoreInner)} (h : RunOver plans tr)
    {p : Value} (hp : MetisPlan p) {t : RouteTemplate}
    (ht : (getRouteForHops (finalStore tr) p).2 = some t) :
    ∃ hop₀ hop₁ hop₀' hop₁', p = .array [hop₀, hop₁] ∧ CreatedFor tr t (.array [hop₀', hop₁']) ∧
      SamePath hop₀ hop₀' ∧ SamePath hop₁ hop₁' := by
  obtain ⟨hrun, hkeyed⟩ := h
  rcases getRouteForHops_cases (finalStore tr) p with ⟨_, he⟩ | ⟨sig, hs, he⟩
  · rw [he] at ht
    cases ht
  · rw [he] at ht
    obtain ⟨pairKey, hk, hget⟩ := Option.bind_eq_some_iff.mp hs
    obtain ⟨_, _, _, plan₀, hm₀, hk₀⟩ := index_entry hrun hget
    obtain ⟨hsig₀, hplan₀⟩ := hkeyed _ _ _ _ _ hm₀
    obtain ⟨plan₁, since, hlive, _⟩ := (served_of_sig hrun ht).created
    obtain ⟨hsig₁, hplan₁⟩ := hkeyed _ _ _ _ _ hlive.mem.1
    have hseq := hapart plan₀ hplan₀ plan₁ hplan₁ (hsig₀.symm.trans hsig₁)
    have hk₁ := hopPairKey_of_erased (hplans plan₁ hplan₁) hk₀ hseq
    obtain ⟨hop₀, hop₁, hop₀', hop₁', rfl, rfl, hpath₀, hpath₁⟩ :=
      samePath_of_hopPairKey hp (hplans plan₁ hplan₁) hk hk₁
    subst hsig₁
    exact ⟨hop₀, hop₁, hop₀', hop₁', rfl, ⟨since, hlive⟩, hpath₀, hpath₁⟩

/-- The sample plan as it is quoted when a new field appears in its swapInfo objects. -/
def extendedPlan : Value :=
  .array [extendedHop "pool1" "WSOL" "MINT", extendedHop "pool2" "MINT" "WSOL"]
where
  extendedHop (pool inputMint outputMint : String) : Value :=
    .object [("swapInfo", .object [("ammKey", .string pool), ("extra", .bool true),
      ("inputMint", .string inputMint), ("outputMint", .string outputMint)])]

private def textsUnseparated (infos : List (List (String × Value))) : Bool :=
  infos.all fun info => info.all fun field =>
    match field.2 with
    | .string s => decide (Unseparated s)
    | _ => true

private theorem metisPlan_of_texts {plan : Value}
    (hc : ∀ hop ∈ plan.asArray.getD [], hop.swapInfo.isSome)
    (h : textsUnseparated (swapInfos plan) = true) : MetisPlan plan := by
  refine ⟨hc, ?_⟩
  intro info hi key _ s hs
  have hfield := List.all_eq_true.mp (List.all_eq_true.mp h info hi) _ (mem_of_lookup hs)
  exact of_decide_eq_true hfield

private theorem extended_found :
    (getRouteForHops (finalStore (insertOnce samplePlan)) extendedPlan).2 =
      some (firstTemplate (routeSig samplePlan) default 0 0) := by
  have hsome : (hopPairKey samplePlan).isSome := by decide
  obtain ⟨pairKey, hk⟩ := Option.isSome_iff_exists.mp hsome
  have hsame : hopPairKey extendedPlan = hopPairKey samplePlan := by decide
  have hget := (Step.insertRoute (routeSig samplePlan) default 0 0 samplePlan).index_get
    StoreInner.new_inv pairKey
  have hoffer : offered .new (.insertRoute (routeSig samplePlan) default 0 0 samplePlan) pairKey =
      some (routeSig samplePlan) := if_pos hk
  rw [hoffer] at hget
  have hsig : hopPairSig (finalStore (insertOnce samplePlan)) extendedPlan =
      some (routeSig samplePlan) := by
    rw [hopPairSig, hsame, hk, Option.bind_some]
    exact hget
  rw [getRouteForHops, hsig]
  exact getRoute_insertOnce samplePlan

/-- The plan with the new field is served the template of the plan without it. -/
theorem getRouteForHops_sound_extended :
    ∃ hop₀ hop₁, CreatedFor (insertOnce samplePlan)
      (firstTemplate (routeSig samplePlan) default 0 0) (.array [hop₀, hop₁]) := by
  obtain ⟨_, _, hop₀, hop₁, _, hcreated, _⟩ := getRouteForHops_sound
    (fun plan hp => Set.mem_singleton_iff.mp hp ▸ metisPlan_of_texts (by decide) (by decide))
    (fun p hp q hq _ => by rw [Set.mem_singleton_iff.mp hp, Set.mem_singleton_iff.mp hq])
    (runOver_insertOnce (Set.mem_singleton _))
    (metisPlan_of_texts (by decide) (by decide)) extended_found
  exact ⟨hop₀, hop₁, hcreated⟩

end SolanaArbBot.TemplateCache
