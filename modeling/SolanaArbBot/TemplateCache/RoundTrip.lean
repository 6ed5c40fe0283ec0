import SolanaArbBot.TemplateCache.Filling

/-! What survives a restart: every lookup finds the same route, patches it to the
same bytes, and the next flush writes the same records. -/
namespace SolanaArbBot.TemplateCache
open Lib

/-- A template up to its hit count and its cached amounts. -/
def RouteTemplate.core (t : RouteTemplate) : RouteTemplate := { t.reload with hitCount := 0 }

/-- Serve by patching the base instruction, whatever amounts are cached. -/
def patchRoute (t : RouteTemplate) (newIn newOut : UInt64) :
    Except Panic (Option SwapInstructionsResponse) :=
  serveRoute t.reload newIn newOut

/-- A lookup returns what is stored, up to one hit. -/
theorem getRoute_core {g : StoreInner} (hi : g.Inv) (sig : Sig) :
    (getRoute g sig).2.map RouteTemplate.core = (g.find sig).map RouteTemplate.core := by
  rcases getRoute_cases g sig with h | h
  · rw [h]
  · rw [h]
    rcases getRouteWrite_cases g sig with ⟨hc, hw⟩ | ⟨t, hc, hw⟩
    · rw [hw, StoreInner.find, hc, Option.or_none]
    · rw [hw, hi.find_cold hc]
      rfl

/-- A lookup returns a template exactly when the route is live. -/
theorem getRoute_isSome {g : StoreInner} (hi : g.Inv) (sig : Sig) :
    (getRoute g sig).2.isSome ↔ g.Live sig := by
  have hsome := congrArg Option.isSome (getRoute_core hi sig)
  rw [Option.isSome_map, Option.isSome_map] at hsome
  rw [hsome]
  exact Iff.rfl

theorem getRouteForHops_core {g : StoreInner} (hi : g.Inv) (plan : Value) :
    (getRouteForHops g plan).2.map RouteTemplate.core =
      (hopPairSig g plan).bind fun sig => (g.find sig).map RouteTemplate.core := by
  rcases getRouteForHops_cases g plan with ⟨hn, h⟩ | ⟨sig, hs, h⟩
  · rw [h, hn]
    rfl
  · rw [h, hs, getRoute_core hi]
    rfl

/-- The records of a flushed file are those of the live templates. -/
theorem Flushed.mem_routes {g : StoreInner} (hi : g.Inv) {file : RouteFile} (h : Flushed g file)
    (rec : RouteRecord) :
    rec ∈ file.routes ↔ ∃ sig t, g.find sig = some t ∧ RouteRecord.fromTemplate t = rec := by
  obtain ⟨hot, cold, index, hh, hc, _, rfl⟩ := h
  refine List.mem_map.trans ?_
  constructor
  · rintro ⟨⟨sig, t⟩, hm, he⟩
    exact ⟨sig, t, (listing_find hi hh hc sig t).mp hm, he⟩
  · rintro ⟨sig, t, hf, he⟩
    exact ⟨(sig, t), (listing_find hi hh hc sig t).mpr hf, he⟩

/-- The hop pairs of a flushed file are the index with its signatures as text. -/
theorem Flushed.get_hopPairs {g : StoreInner} {file : RouteFile} (h : Flushed g file) (k : String) :
    file.hopPairs.get k = (g.hopPairIndex.get k).map sigText := by
  obtain ⟨hot, cold, index, _, _, hx, rfl⟩ := h
  have hn : ((index.map fun p => (p.1, sigText p.2)).map Prod.fst).Nodup := by
    rw [List.map_map]
    exact hx.keys_nodup
  apply Option.ext
  intro text
  refine (HashMap.get_collect hn k text).trans ?_
  rw [List.mem_map, Option.map_eq_some_iff]
  constructor
  · rintro ⟨⟨k', sig⟩, hm, he⟩
    cases he
    exact ⟨sig, hx.mem_iff.mp hm, rfl⟩
  · rintro ⟨sig, hg, rfl⟩
    exact ⟨(k, sig), hx.mem_iff.mpr hg, rfl⟩

theorem Flushed.schemaVersion {g : StoreInner} {file : RouteFile} (h : Flushed g file) :
    file.schemaVersion = 1 := by
  obtain ⟨_, _, _, _, _, _, rfl⟩ := h
  rfl

namespace RestartSpec
variable {g g' : StoreInner}

theorem live (h : RestartSpec g g') (sig : Sig) : g'.Live sig ↔ g.Live sig := by
  rw [StoreInner.Live, h.find, Option.isSome_map, StoreInner.Live]

theorem core (h : RestartSpec g g') (sig : Sig) :
    (g'.find sig).map RouteTemplate.core = (g.find sig).map RouteTemplate.core := by
  rw [h.find, Option.map_map]
  rfl

theorem hopPairSig (h : RestartSpec g g') (plan : Value) :
    hopPairSig g' plan = hopPairSig g plan := by
  rw [TemplateCache.hopPairSig, h.index, TemplateCache.hopPairSig]

/-- Flushing the restarted store writes the same file up to the order of its records. -/
theorem flushed (h : RestartSpec g g') (hi : g.Inv) {file file' : RouteFile} (hf : Flushed g file)
    (hf' : Flushed g' file') :
    (∀ rec, rec ∈ file'.routes ↔ rec ∈ file.routes) ∧ file'.hopPairs = file.hopPairs ∧
      file'.schemaVersion = file.schemaVersion := by
  refine ⟨fun rec => ?_, ?_, ?_⟩
  · rw [hf.mem_routes hi, hf'.mem_routes (h.inv hi)]
    constructor
    · rintro ⟨sig, t, ht, rfl⟩
      rw [h.find] at ht
      obtain ⟨u, hu, rfl⟩ := Option.map_eq_some_iff.mp ht
      exact ⟨sig, u, hu, (fromTemplate_reload u).symm⟩
    · rintro ⟨sig, t, ht, rfl⟩
      refine ⟨sig, t.reload, ?_, fromTemplate_reload t⟩
      rw [h.find, ht, Option.map_some]
  · apply HashMap.ext_get
    intro k
    rw [hf.get_hopPairs, hf'.get_hopPairs, h.index]
  · rw [hf.schemaVersion, hf'.schemaVersion]

end RestartSpec

/-- Loading the file flushed for a reachable store gives the same live routes,
index and lookups, the same patched bytes, and again the same records. -/
theorem routes_round_trip {tr : List (Op × StoreInner)} (h : IsRun tr) {file : RouteFile}
    {g' : StoreInner} (hf : Flushed (finalStore tr) file) (hl : Loaded file g') :
    let g := finalStore tr
    (∀ sig, g'.Live sig ↔ g.Live sig) ∧
    (∀ sig t t', g.find sig = some t → g'.find sig = some t' →
      t'.routeSignature = t.routeSignature ∧ t'.swapIxs = t.swapIxs ∧
      t'.templateInAmount = t.templateInAmount ∧ t'.templateQuotedOut = t.templateQuotedOut ∧
      t'.inAmountOffset = t.inAmountOffset ∧ t'.quotedOutOffset = t.quotedOutOffset ∧
      t'.seenCount = t.seenCount ∧ t'.hitCount = t.hitCount ∧
      ∀ newIn newOut, serveRoute t' newIn newOut = patchRoute t newIn newOut) ∧
    g'.hopPairIndex = g.hopPairIndex ∧
    (∀ sig, (getRoute g' sig).2.map RouteTemplate.core = (getRoute g sig).2.map RouteTemplate.core) ∧
    (∀ plan, (getRouteForHops g' plan).2.map RouteTemplate.core =
      (getRouteForHops g plan).2.map RouteTemplate.core) ∧
    ∀ file', Flushed g' file' →
      (∀ rec, rec ∈ file'.routes ↔ rec ∈ file.routes) ∧ file'.hopPairs = file.hopPairs ∧
        file'.schemaVersion = file.schemaVersion := by
  intro g
  have hi : g.Inv := h.inv
  have hs : RestartSpec g g' := Restarted.spec hi ⟨file, hf, hl⟩
  have hi' := hs.inv hi
  refine ⟨hs.live, ?_, hs.index, ?_, ?_, ?_⟩
  · intro sig t t' ht ht'
    rw [hs.find, ht, Option.map_some] at ht'
    cases ht'
    exact ⟨rfl, rfl, rfl, rfl, rfl, rfl, rfl, rfl, fun _ _ => rfl⟩
  · intro sig
    rw [getRoute_core hi', getRoute_core hi, hs.core]
  · intro plan
    rw [getRouteForHops_core hi', getRouteForHops_core hi, hs.hopPairSig]
    simp only [hs.core]
  · intro file' hf'
    exact hs.flushed hi hf hf'

/-- A route of each segment survives, and the cold one is found by its pair of hops. -/
theorem routes_round_trip_two_segments :
    (rotated.routesHot.get 2000).isSome ∧ (rotated.routesCold.get 0).isSome ∧
    ∃ g', Restarted rotated g' ∧ g'.Live 2000 ∧ g'.Live 0 ∧ hopPairSig g' samplePlan = some 0 ∧
      (getRouteForHops g' samplePlan).2.map RouteTemplate.core =
        (rotated.find 0).map RouteTemplate.core := by
  have hhot : (rotated.routesHot.get 2000).isSome := (rotated_spec.hot 2000).mpr rfl
  have hi : rotated.Inv := lastState_rotatedTrace ▸ isRun_rotatedTrace.inv
  obtain ⟨k, hk⟩ := Option.isSome_iff_exists.mp (by decide : (hopPairKey samplePlan).isSome = true)
  have hsig : hopPairSig rotated samplePlan = some 0 := by
    rw [hopPairSig, hk, Option.bind_some, rotated_spec.index, taught_index hk]
  obtain ⟨g', file, hf, hl⟩ := exists_restarted (finalStore rotatedTrace)
  have hround := routes_round_trip isRun_rotatedTrace hf hl
  rw [finalStore, lastState_rotatedTrace] at hf hround
  obtain ⟨hlive, _, hindex, _, hhops, _⟩ := hround
  have hsig' : hopPairSig g' samplePlan = some 0 := by
    rw [hopPairSig, hindex]
    exact hsig
  refine ⟨hhot, rotated_cold.1, g', ⟨file, hf, hl⟩, (hlive 2000).mpr ?_, (hlive 0).mpr ?_, hsig', ?_⟩
  · exact StoreInner.live_iff.mpr (Or.inl hhot)
  · exact StoreInner.live_iff.mpr (Or.inr rotated_cold.1)
  · rw [hhops, getRouteForHops_core hi, hsig, Option.bind_some]

end SolanaArbBot.TemplateCache
