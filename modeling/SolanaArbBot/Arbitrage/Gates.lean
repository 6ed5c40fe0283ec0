import SolanaArbBot.Arbitrage.Quotes

/-! What the scanner's tests let through, stated of the two quotes themselves:
whatever shape their plans have, the tests that passed establish each gate. -/
namespace SolanaArbBot.Arbitrage
open Lib

def hops (quote : QuoteResponse) : List Value := quote.routePlan.asArray.getD []

def ForbiddenLabel (labels : List String) (swapInfo : Value) : Prop :=
  ∃ label banned, swapInfo.get "label" = some (.string label) ∧ banned ∈ labels ∧
    (toAsciiLowercase banned).toList <:+: (toAsciiLowercase label).toList

def ForbiddenProgram (programIds : List String) (swapInfo : Value) : Prop :=
  ∃ fields key id, swapInfo = .object fields ∧ (key, .string id) ∈ fields ∧ id ∈ programIds

def ForbiddenHop (forbidden : ForbiddenDexes) (hop : Value) : Prop :=
  ∃ swapInfo, hop.get "swapInfo" = some swapInfo ∧
    (ForbiddenLabel forbidden.labels swapInfo ∨ ForbiddenProgram forbidden.programIds swapInfo)

/-- The quotes of a circular trade that is worth sending, and what is made of them. -/
structure Gated (forbidden : ForbiddenDexes) (minProfitLamports : UInt64) (pair : QuotePair)
    (merged : QuoteResponse) : Prop where
  profit : ∃ output, parseUnsigned (2 ^ 64) pair.quote2.outAmount = some output ∧
    min (pair.amount.toNat + minProfitLamports.toNat) (2 ^ 64 - 1) < output
  allowed : ∀ hop ∈ hops pair.quote1 ++ hops pair.quote2, ¬ ForbiddenHop forbidden hop
  pools : ∀ key ∈ ammKeys pair.quote1, key ∉ ammKeys pair.quote2
  direct : pair.onlyDirect = true → pair.hopCount = 2
  plan : merged.routePlan = .array (hops pair.quote1 ++ hops pair.quote2)
  hopCount : pair.hopCount = (hops pair.quote1 ++ hops pair.quote2).length
  floor : merged.outAmount = toString (pair.amount.toNat + 1600 + 5000) ∧
    merged.otherAmountThreshold = toString (pair.amount.toNat + 1600 + 5000)

theorem asStr_eq_some {v : Value} {s : String} : v.asStr = some s ↔ v = .string s := by
  cases v <;> simp [Value.asStr]

private theorem bannedLabel_iff (labels : List String) (label : String) :
    bannedLabel labels label = true ↔
      ∃ banned ∈ labels, (toAsciiLowercase banned).toList <:+: (toAsciiLowercase label).toList := by
  rw [bannedLabel, List.any_eq_true]
  refine exists_congr fun banned => and_congr_right fun _ => ?_
  rw [Bool.or_eq_true, decide_eq_true_iff, TemplateCache.contains, decide_eq_true_iff,
    or_iff_right_iff_imp]
  intro he
  exact he ▸ List.infix_rfl

private theorem label_iff (labels : List String) (swapInfo : Value) :
    (((swapInfo.get "label").bind Value.asStr).map (bannedLabel labels)).getD false = true ↔
      ForbiddenLabel labels swapInfo := by
  constructor
  · intro h
    cases hl : (swapInfo.get "label").bind Value.asStr with
    | none => rw [hl] at h; cases h
    | some label =>
      rw [hl, Option.map_some, Option.getD_some, bannedLabel_iff] at h
      obtain ⟨banned, hm, hin⟩ := h
      obtain ⟨v, hv, hs⟩ := Option.bind_eq_some_iff.mp hl
      rw [asStr_eq_some.mp hs] at hv
      exact ⟨label, banned, hv, hm, hin⟩
  · rintro ⟨label, banned, hl, hm, hin⟩
    rw [hl]
    exact (bannedLabel_iff labels label).mpr ⟨banned, hm, hin⟩

private theorem program_iff (programIds : List String) (swapInfo : Value) :
    (swapInfo.asObject.getD []).any (fun field =>
      (field.2.asStr.map fun s => programIds.contains s).getD false) = true ↔
      ForbiddenProgram programIds swapInfo := by
  rw [List.any_eq_true]
  constructor
  · rintro ⟨⟨key, v⟩, hf, hs⟩
    cases v with
    | string id =>
      cases swapInfo with
      | object fields => exact ⟨fields, key, id, rfl, hf, List.contains_iff_mem.mp hs⟩
      | _ => cases hf
    | _ => cases hs
  · rintro ⟨fields, key, id, rfl, hf, hm⟩
    exact ⟨(key, .string id), hf, List.contains_iff_mem.mpr hm⟩

/-- The test for forbidden DEXes finds exactly the forbidden hops. -/
theorem routeUsesForbiddenDex_iff (forbidden : ForbiddenDexes) (quote : QuoteResponse) :
    routeUsesForbiddenDex forbidden quote = true ↔ ∃ hop ∈ hops quote, ForbiddenHop forbidden hop := by
  rw [routeUsesForbiddenDex, List.any_eq_true, ← hops]
  refine exists_congr fun hop => and_congr_right fun _ => ?_
  unfold ForbiddenHop
  cases hop.get "swapInfo" with
  | none => simp
  | some swapInfo =>
    rw [Bool.or_eq_true, label_iff, program_iff]
    simp

theorem routesSharePool_iff (q1 q2 : QuoteResponse) :
    routesSharePool q1 q2 = true ↔ ∃ key ∈ ammKeys q1, key ∈ ammKeys q2 := by
  simp [routesSharePool, and_comm]

theorem saturatingAdd_toNat (a b : UInt64) :
    (saturatingAdd a b).toNat = min (a.toNat + b.toNat) (2 ^ 64 - 1) := by
  rw [saturatingAdd]
  split
  · next h =>
    rw [UInt64.toNat_add, Nat.mod_eq_of_lt h]
    omega
  · rw [UInt64.toNat_ofNat_of_lt' (by decide)]
    omega

/-- The floor does not wrap for the amounts that are scanned. -/
theorem onChainFloor_toNat {amount : UInt64} (h : amount.toNat ≤ 2 ^ 64 - 1 - 6600) :
    (onChainFloor amount).toNat = amount.toNat + 1600 + 5000 := by
  have htip : jitoTipLamports.toNat = 1600 := rfl
  have hfee : networkFeeLamports.toNat = 5000 := rfl
  rw [onChainFloor, UInt64.toNat_add, UInt64.toNat_add, htip, hfee]
  omega

/-- What a profitable verdict says about the quotes. -/
theorem judge_profitable {forbidden : ForbiddenDexes} {amount minProfitLamports : UInt64}
    {onlyDirect : Bool} {quote1 quote2 : QuoteResponse} {pair : QuotePair}
    (h : judge forbidden amount minProfitLamports onlyDirect quote1 quote2 = .profitable pair) :
    pair = ⟨amount, quote1, quote2, legHops quote1 + legHops quote2, onlyDirect⟩ ∧
      (saturatingAdd amount minProfitLamports).toNat <
        (parseUnsigned (2 ^ 64) quote2.outAmount).getD 0 ∧
      routeUsesForbiddenDex forbidden quote1 = false ∧
      routeUsesForbiddenDex forbidden quote2 = false ∧ routesSharePool quote1 quote2 = false := by
  simp only [judge] at h
  split at h
  · cases h
  · next hp =>
    split at h
    · cases h
    · next hf =>
      split at h
      · cases h
      · next hs =>
        cases h
        rw [Bool.not_eq_true, Bool.or_eq_false_iff] at hf
        exact ⟨rfl, not_le.mp hp, hf.1, hf.2, Bool.not_eq_true _ ▸ hs⟩

theorem mergeQuotes_ok {quote1 quote2 merged : QuoteResponse} {floor : UInt64}
    (h : mergeQuotes quote1 quote2 floor = .ok merged) :
    legHops quote1 = (hops quote1).length ∧ legHops quote2 = (hops quote2).length ∧
      merged.routePlan = .array (hops quote1 ++ hops quote2) ∧
      merged.outAmount = toString floor.toNat ∧ merged.otherAmountThreshold = toString floor.toNat := by
  simp only [mergeQuotes] at h
  split at h
  · cases h
  · next h1 =>
    split at h
    · cases h
    · next h2 =>
      cases h
      simp [legHops, hops, h1, h2]

/-- A pair that passed all the tests and merged is gated. -/
theorem gated_of_tests {forbidden : ForbiddenDexes} {minProfitLamports : UInt64} {pair : QuotePair}
    {merged : QuoteResponse}
    (hv : judge forbidden pair.amount minProfitLamports pair.onlyDirect pair.quote1 pair.quote2 =
      .profitable pair)
    (hd : (pair.onlyDirect && pair.hopCount != 2) = false)
    (hm : mergeQuotes pair.quote1 pair.quote2 (onChainFloor pair.amount) = .ok merged)
    (ha : pair.amount.toNat ≤ 2 ^ 64 - 1 - 6600) : Gated forbidden minProfitLamports pair merged := by
  obtain ⟨hpair, hprofit, hf1, hf2, hshare⟩ := judge_profitable hv
  obtain ⟨hl1, hl2, hplan, hout, hthreshold⟩ := mergeQuotes_ok hm
  rw [onChainFloor_toNat ha] at hout hthreshold
  rw [saturatingAdd_toNat] at hprofit
  constructor
  · cases hp : parseUnsigned (2 ^ 64) pair.quote2.outAmount with
    | none =>
      rw [hp] at hprofit
      exact absurd hprofit (Nat.not_lt_zero _)
    | some output =>
      rw [hp] at hprofit
      exact ⟨output, rfl, hprofit⟩
  · intro hop hh hforbidden
    rcases List.mem_append.mp hh with hh | hh
    · rw [(routeUsesForbiddenDex_iff forbidden pair.quote1).mpr ⟨hop, hh, hforbidden⟩] at hf1
      cases hf1
    · rw [(routeUsesForbiddenDex_iff forbidden pair.quote2).mpr ⟨hop, hh, hforbidden⟩] at hf2
      cases hf2
  · intro key h1 h2
    rw [(routesSharePool_iff pair.quote1 pair.quote2).mpr ⟨key, h1, h2⟩] at hshare
    cases hshare
  · intro hdirect
    rw [hdirect, Bool.true_and, bne_eq_false_iff_eq] at hd
    exact hd
  · exact hplan
  · rw [hpair, List.length_append, ← hl1, ← hl2]
  · exact ⟨hout, hthreshold⟩

end SolanaArbBot.Arbitrage
