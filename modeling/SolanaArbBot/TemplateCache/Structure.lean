import SolanaArbBot.TemplateCache.Provenance

/-! Whether a plan that shares a signature shares the route. The signature reads
the swapInfo objects alone, so the split share of a hop stays out of it. -/
namespace SolanaArbBot.TemplateCache
open Lib

def SameFields (fields fields' : List (String × Value)) (ignored : String → Prop) : Prop :=
  ∀ key, isAmountKey key = false → ¬ ignored key → fields.lookup key = fields'.lookup key

/-- The two hops agree inside swapInfo and beside it. -/
def SameHop (hop hop' : Value) : Prop :=
  ∃ fields fields' info info',
    hop = .object fields ∧ hop' = .object fields' ∧
    fields.lookup "swapInfo" = some (.object info) ∧
    fields'.lookup "swapInfo" = some (.object info') ∧
    SameFields info info' (fun _ => False) ∧
    SameFields fields fields' (fun key => key = "swapInfo")

/-- The same number of hops in the same order, each with its counterpart's fields. -/
def SameStructure (plan plan' : Value) : Prop :=
  ∃ hops hops', plan = .array hops ∧ plan' = .array hops' ∧ List.Forall₂ SameHop hops hops'

/-- The served instruction is the response or a patch of its two amounts. -/
def UpToPatch (ix : SwapInstructionsResponse) (inAmount quotedOut : UInt64)
    (served : SwapInstructionsResponse) : Prop :=
  served = ix ∨ ∃ inOff outOff newIn newOut data,
    responseOffsets ix inAmount quotedOut = some (inOff, outOff) ∧
    patchAmountsB64 ix.swapInstruction.data inOff outOff newIn newOut = .ok (some data) ∧
    served = ix.withData data

/-- A run that inserts each response under the signature of its plan, for plans
of the given set. -/
def RunOver (plans : Set Value) (tr : List (Op × StoreInner)) : Prop :=
  IsRun tr ∧ ∀ sig ix a q plan, .insertRoute sig ix a q plan ∈ labels tr →
    sig = routeSig plan ∧ plan ∈ plans

/-- The hash tells plans of the set apart from p by the bytes that it consumes. -/
def CollisionFree (plans : Set Value) (p : Value) : Prop :=
  ∀ q ∈ plans, routeSig q = routeSig p → hashedBytes q = hashedBytes p

/-- The instruction stems from a response inserted for a plan of p's structure. -/
def StemsFrom (tr : List (Op × StoreInner)) (p : Value) (served : SwapInstructionsResponse) : Prop :=
  ∃ sig ix a q plan, .insertRoute sig ix a q plan ∈ labels tr ∧ SameStructure plan p ∧
    UpToPatch ix a q served

/-- On this run, whatever the first tier serves for p stems from p's structure. -/
def ServesFaithfully (tr : List (Op × StoreInner)) (p : Value) : Prop :=
  ∀ t amount floor served, (getRoute (finalStore tr) (routeSig p)).2 = some t →
    serveRoute t amount floor = .ok (some served) → StemsFrom tr p served

/-- A template serves an inserted response as it is or with its amounts patched. -/
theorem Provenance.served {tr : List (Op × StoreInner)} {sig : Sig} {t : RouteTemplate}
    (h : Provenance tr sig t) {amount floor : UInt64} {served : SwapInstructionsResponse}
    (hs : serveRoute t amount floor = .ok (some served)) :
    ∃ ix a q plan, .insertRoute sig ix a q plan ∈ labels tr ∧ UpToPatch ix a q served := by
  rcases serveRoute_cases hs with hv | ⟨inOff, outOff, data, hi, ho, hp, rfl⟩
  · obtain ⟨q, plan, hm⟩ := h.variant hv
    exact ⟨served, amount, q, plan, hm, Or.inl rfl⟩
  · obtain ⟨plan, hm⟩ := h.base
    refine ⟨_, _, _, plan, hm, Or.inr ⟨inOff, outOff, _, _, data, ?_, hp, rfl⟩⟩
    rw [h.inOffset, Option.map_eq_some_iff] at hi
    rw [h.outOffset, Option.map_eq_some_iff] at ho
    obtain ⟨⟨i, o⟩, hoff, rfl⟩ := hi
    obtain ⟨⟨i', o'⟩, hoff', rfl⟩ := ho
    rw [hoff] at hoff' ⊢
    cases hoff'
    rfl

theorem Provenance.hit {tr : List (Op × StoreInner)} {sig : Sig} {t : RouteTemplate}
    (h : Provenance tr sig t) : Provenance tr sig t.hit := ⟨h.created, h.inOffset, h.outOffset⟩

/-- Everything served for p stems from a plan with p's signature. -/
theorem served_of_sig {tr : List (Op × StoreInner)} (h : IsRun tr) {sig : Sig} {t : RouteTemplate}
    (ht : (getRoute (finalStore tr) sig).2 = some t) : Provenance tr sig t := by
  rcases getRoute_found h.inv ht with hf | ⟨u, hf, rfl⟩
  · exact h.provenance hf
  · exact (h.provenance hf).hit

def insertOnce (plan : Value) : List (Op × StoreInner) :=
  [(.insertRoute (routeSig plan) default 0 0 plan, insertRoute .new (routeSig plan) default 0 0 plan)]

theorem getRoute_insertOnce (plan : Value) :
    (getRoute (finalStore (insertOnce plan)) (routeSig plan)).2 =
      some (firstTemplate (routeSig plan) default 0 0) := by
  have hhot : (finalStore (insertOnce plan)).routesHot.get (routeSig plan) =
      some (firstTemplate (routeSig plan) default 0 0) := by
    rw [finalStore, insertOnce, lastState, lastState, insertRoute_new rfl, indexHopPair_hot,
      pushHotRoute_hot, if_pos rfl]
  rw [getRoute, getRouteRead, hhot]

theorem runOver_insertOnce {plans : Set Value} {q : Value} (hq : q ∈ plans) :
    RunOver plans (insertOnce q) := by
  refine ⟨⟨.insertRoute _ _ _ _ _, trivial⟩, ?_⟩
  intro sig ix a b plan hm
  cases List.mem_singleton.mp hm
  exact ⟨rfl, hq⟩

private theorem sameStructure_of_faithful {p q : Value} (hbytes : hashedBytes q = hashedBytes p)
    (h : ServesFaithfully (insertOnce q) p) : SameStructure q p := by
  have hsig : routeSig q = routeSig p := routeSig_of_hashedBytes hbytes
  obtain ⟨sig, ix, a, b, plan, hm, hsame, _⟩ := h (firstTemplate (routeSig q) default 0 0) 0 0 default
    (by rw [← hsig]; exact getRoute_insertOnce q) rfl
  cases List.mem_singleton.mp hm
  exact hsame

/-- The first tier serves p faithfully on every run over a set of plans exactly
when no plan of the set makes the hash read the bytes of p with another structure. -/
theorem servesFaithfully_iff (plans : Set Value) (p : Value) (hcf : CollisionFree plans p) :
    (∀ tr, RunOver plans tr → ServesFaithfully tr p) ↔
      ∀ q ∈ plans, hashedBytes q = hashedBytes p → SameStructure q p := by
  constructor
  · intro hall q hq hbytes
    exact sameStructure_of_faithful hbytes (hall _ (runOver_insertOnce hq))
  · intro hsame tr ⟨hrun, hkeyed⟩ t amount floor served ht hs
    obtain ⟨ix, a, q, plan, hm, hup⟩ := (served_of_sig hrun ht).served hs
    obtain ⟨hsig, hplan⟩ := hkeyed _ _ _ _ _ hm
    exact ⟨_, ix, a, q, plan, hm, hsame plan hplan (hcf plan hplan hsig.symm), hup⟩

section Split

/-- A leg split over two pools, in two different shares. -/
def splitPlan (share : Int) : Value :=
  .array [sampleHop share "pool1" "WSOL" "MINT", sampleHop (100 - share) "pool2" "WSOL" "MINT",
    sampleHop 100 "pool3" "MINT" "WSOL"]

theorem hashedBytes_splitPlan (share share' : Int) :
    hashedBytes (splitPlan share) = hashedBytes (splitPlan share') := rfl

private theorem split_differs : ¬ SameStructure (splitPlan 60) (splitPlan 40) := by
  rintro ⟨hops, hops', he, he', hall⟩
  cases he
  cases he'
  cases hall with
  | cons hhop _ =>
    obtain ⟨f, f', _, _, hf, hf', _, _, _, hsame⟩ := hhop
    cases hf
    cases hf'
    have hp := hsame "percent" rfl (by decide)
    cases hp

/-- A leg quoted 40 to 60 is served the instruction of the same leg at 60 to 40. -/
theorem split_share_confused :
    CollisionFree {splitPlan 60} (splitPlan 40) ∧
    RunOver {splitPlan 60} (insertOnce (splitPlan 60)) ∧
    ¬ ServesFaithfully (insertOnce (splitPlan 60)) (splitPlan 40) := by
  refine ⟨?_, runOver_insertOnce (Set.mem_singleton _), ?_⟩
  · intro q hq _
    rw [Set.mem_singleton_iff.mp hq]
    exact hashedBytes_splitPlan 60 40
  · intro h
    exact split_differs (sameStructure_of_faithful (hashedBytes_splitPlan 60 40) h)

private theorem sameHop_sampleHop (share : Int) (pool input output : String) :
    SameHop (sampleHop share pool input output) (sampleHop share pool input output) :=
  ⟨_, _, _, _, rfl, rfl, rfl, rfl, fun _ _ _ => rfl, fun _ _ _ => rfl⟩

/-- A split that is always quoted with the same shares is served faithfully. -/
theorem servesFaithfully_one_split : ServesFaithfully (insertOnce (splitPlan 60)) (splitPlan 60) := by
  have hall := (servesFaithfully_iff {splitPlan 60} (splitPlan 60) (fun q hq _ => by
    rw [Set.mem_singleton_iff.mp hq])).mpr (by
    intro q hq _
    rw [Set.mem_singleton_iff.mp hq]
    exact ⟨_, _, rfl, rfl, .cons (sameHop_sampleHop _ _ _ _) (.cons (sameHop_sampleHop _ _ _ _)
      (.cons (sameHop_sampleHop _ _ _ _) .nil))⟩)
  exact hall _ (runOver_insertOnce (Set.mem_singleton _))

end Split
end SolanaArbBot.TemplateCache
