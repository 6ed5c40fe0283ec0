import SolanaArbBot.Lib.Decimal
import SolanaArbBot.TemplateCache.Segments

/-! routes.json: what a flush writes and what a load into a store keeps. Hash
maps are visited in some order, which the writer and the reader take as given. -/
namespace SolanaArbBot.TemplateCache
open Lib

/-- On-disk form of a template; the signature is decimal text and the
per-amount cache is left out. -/
structure RouteRecord where
  sig : String
  swapIxs : SwapInstructionsResponse
  templateInAmount : UInt64
  templateQuotedOut : UInt64
  inAmountOffset : Option Nat
  quotedOutOffset : Option Nat
  seenCount : UInt64
  hitCount : UInt64
  deriving DecidableEq

structure RouteFile where
  schemaVersion : UInt32
  routes : List RouteRecord
  hopPairs : HashMap String String

def sigText (sig : Sig) : String := Nat.repr sig.toNat

def parseSig (s : String) : Option Sig := (parseUnsigned (2 ^ 128) s).map (BitVec.ofNat 128)

def RouteRecord.fromTemplate (t : RouteTemplate) : RouteRecord where
  sig := sigText t.routeSignature
  swapIxs := t.swapIxs
  templateInAmount := t.templateInAmount
  templateQuotedOut := t.templateQuotedOut
  inAmountOffset := t.inAmountOffset
  quotedOutOffset := t.quotedOutOffset
  seenCount := t.seenCount
  hitCount := t.hitCount

def RouteRecord.toTemplate (rec : RouteRecord) (sig : Sig) : RouteTemplate where
  routeSignature := sig
  swapIxs := rec.swapIxs
  templateInAmount := rec.templateInAmount
  templateQuotedOut := rec.templateQuotedOut
  inAmountOffset := rec.inAmountOffset
  quotedOutOffset := rec.quotedOutOffset
  amountVariants := .empty
  seenCount := rec.seenCount
  hitCount := rec.hitCount

/-- The file written when the segments and the index are visited in these orders. -/
def flushRoutesToDisk (hot cold : List (Sig × RouteTemplate)) (index : List (String × Sig)) :
    RouteFile where
  schemaVersion := 1
  routes := (hot ++ cold).map fun p => RouteRecord.fromTemplate p.2
  hopPairs := HashMap.collect (index.map fun p => (p.1, sigText p.2))

def Flushed (g : StoreInner) (file : RouteFile) : Prop :=
  ∃ hot cold index, g.routesHot.Listing hot ∧ g.routesCold.Listing cold ∧
    g.hopPairIndex.Listing index ∧ file = flushRoutesToDisk hot cold index

/-- Load one record, counting it; unreadable and known signatures are skipped. -/
def loadRecord (s : StoreInner × Nat) (rec : RouteRecord) : StoreInner × Nat :=
  match parseSig rec.sig with
  | none => s
  | some sig =>
    if s.1.routesHot.containsKey sig || s.1.routesCold.containsKey sig then s
    else ({ s.1 with routesHot := s.1.routesHot.insert sig (rec.toTemplate sig) }, s.2 + 1)

def loadHopPair (g : StoreInner) (p : String × String) : StoreInner :=
  match parseSig p.2 with
  | some sig => { g with hopPairIndex := g.hopPairIndex.orInsert p.1 sig }
  | none => g

/-- The store and the number of templates loaded, the hop pairs of the file being
visited in the given order. The segment bound plays no part here. -/
def loadRoutesFromDisk (g : StoreInner) (routes : List RouteRecord)
    (hopPairs : List (String × String)) : StoreInner × Nat :=
  let (g, count) := routes.foldl loadRecord (g, 0)
  (hopPairs.foldl loadHopPair g, count)

/-- A store that loading the file into an empty store may give. -/
def Loaded (file : RouteFile) (g : StoreInner) : Prop :=
  ∃ pairs, file.hopPairs.Listing pairs ∧ g = (loadRoutesFromDisk .new file.routes pairs).1

def Restarted (g g' : StoreInner) : Prop := ∃ file, Flushed g file ∧ Loaded file g'

def RouteTemplate.reload (t : RouteTemplate) : RouteTemplate := { t with amountVariants := .empty }

theorem parseSig_sigText (sig : Sig) : parseSig (sigText sig) = some sig := by
  rw [parseSig, sigText, parseUnsigned_repr sig.isLt, Option.map_some, BitVec.ofNat_toNat,
    BitVec.setWidth_eq]

theorem toTemplate_fromTemplate (t : RouteTemplate) :
    (RouteRecord.fromTemplate t).toTemplate t.routeSignature = t.reload := rfl

theorem fromTemplate_reload (t : RouteTemplate) :
    RouteRecord.fromTemplate t.reload = RouteRecord.fromTemplate t := rfl

private theorem notMem_of_key {K V : Type} {l : List (K × V)} {k : K} (h : k ∉ l.map Prod.fst) (v : V) :
    (k, v) ∉ l := fun hm => h (List.mem_map.mpr ⟨(k, v), hm, rfl⟩)

private theorem loadRecord_new {s : StoreInner × Nat} {u : RouteTemplate}
    (hf : s.1.find u.routeSignature = none) : loadRecord s (RouteRecord.fromTemplate u) =
      ({ s.1 with routesHot := s.1.routesHot.insert u.routeSignature u.reload }, s.2 + 1) := by
  obtain ⟨hh, hc⟩ := StoreInner.find_eq_none.mp hf
  have hp : parseSig (RouteRecord.fromTemplate u).sig = some u.routeSignature := parseSig_sigText _
  unfold loadRecord
  rw [hp]
  simp only [HashMap.containsKey, hh, hc, Option.isSome_none, Bool.or_self, Bool.false_eq_true,
    if_false]
  rw [toTemplate_fromTemplate]

private theorem foldl_loadRecord (l : List (Sig × RouteTemplate)) (s : StoreInner × Nat)
    (hk : ∀ p ∈ l, p.2.routeSignature = p.1) (hn : (l.map Prod.fst).Nodup)
    (hf : ∀ p ∈ l, s.1.find p.1 = none) :
    let s' := (l.map fun p => RouteRecord.fromTemplate p.2).foldl loadRecord s
    s'.1.routesCold = s.1.routesCold ∧ s'.1.hopPairIndex = s.1.hopPairIndex ∧
      s'.1.hops = s.1.hops ∧ s'.2 = s.2 + l.length ∧
      s'.1.routesHot.len = s.1.routesHot.len + l.length ∧
      ∀ x t, s'.1.routesHot.get x = some t ↔
        s.1.routesHot.get x = some t ∨ ∃ u, (x, u) ∈ l ∧ t = u.reload := by
  induction l generalizing s with
  | nil => simp
  | cons p l ih =>
    obtain ⟨sig, u⟩ := p
    have hu : u.routeSignature = sig := hk (sig, u) List.mem_cons_self
    subst hu
    have hnone := hf (u.routeSignature, u) List.mem_cons_self
    have hh := (StoreInner.find_eq_none.mp hnone).1
    rw [List.map_cons, List.nodup_cons] at hn
    obtain ⟨h1, h2, h3, h4, h5, h6⟩ := ih
      ({ s.1 with routesHot := s.1.routesHot.insert u.routeSignature u.reload }, s.2 + 1)
      (fun p hp => hk p (List.mem_cons_of_mem _ hp)) hn.2 (by
        intro p hp
        have hne : p.1 ≠ u.routeSignature := fun e => hn.1 (List.mem_map.mpr ⟨p, hp, e⟩)
        have := hf p (List.mem_cons_of_mem _ hp)
        rw [StoreInner.find] at this ⊢
        rwa [HashMap.get_insert, if_neg hne])
    rw [List.map_cons, List.foldl_cons, loadRecord_new hnone]
    refine ⟨h1, h2, h3, ?_, ?_, ?_⟩
    · rw [h4, List.length_cons]; omega
    · rw [h5, HashMap.len_insert_of_get_none _ hh, List.length_cons]; omega
    · intro x t
      rw [h6, HashMap.get_insert]
      by_cases hx : x = u.routeSignature
      · subst hx
        simp [hh, notMem_of_key hn.1, eq_comm]
      · simp [hx]

theorem loadHopPair_frame (g : StoreInner) (p : String × String) :
    (loadHopPair g p).routesHot = g.routesHot ∧ (loadHopPair g p).routesCold = g.routesCold ∧
      (loadHopPair g p).hops = g.hops := by
  unfold loadHopPair
  split <;> exact ⟨rfl, rfl, rfl⟩

private theorem get_loadHopPair (g : StoreInner) (p : String × String) (k : String) :
    (loadHopPair g p).hopPairIndex.get k =
      (g.hopPairIndex.get k).or (if k = p.1 then parseSig p.2 else none) := by
  unfold loadHopPair
  cases parseSig p.2 with
  | none => simp
  | some sig => exact HashMap.get_orInsert _ _ _ _

private theorem foldl_loadHopPair (l : List (String × String)) (g : StoreInner)
    (hn : (l.map Prod.fst).Nodup) :
    let g' := l.foldl loadHopPair g
    g'.routesHot = g.routesHot ∧ g'.routesCold = g.routesCold ∧ g'.hops = g.hops ∧
      ∀ k, (∀ v, (k, v) ∈ l → g.hopPairIndex.get k = none) → ∀ sig,
        g'.hopPairIndex.get k = some sig ↔
          g.hopPairIndex.get k = some sig ∨ ∃ v, (k, v) ∈ l ∧ parseSig v = some sig := by
  induction l generalizing g with
  | nil => simp
  | cons p l ih =>
    obtain ⟨k', v'⟩ := p
    rw [List.map_cons, List.nodup_cons] at hn
    obtain ⟨h1, h2, h3, h4⟩ := ih (loadHopPair g (k', v')) hn.2
    obtain ⟨f1, f2, f3⟩ := loadHopPair_frame g (k', v')
    rw [List.foldl_cons]
    refine ⟨h1.trans f1, h2.trans f2, h3.trans f3, ?_⟩
    intro k hk sig
    have hget := get_loadHopPair g (k', v') k
    by_cases hkk : k = k'
    · subst hkk
      have hno := notMem_of_key hn.1
      rw [hk v' List.mem_cons_self, if_pos rfl] at hget
      rw [h4 k (fun w hw => absurd hw (hno w)), hget, hk v' List.mem_cons_self]
      simp [hno]
    · rw [if_neg hkk, Option.or_none] at hget
      rw [h4 k (fun w hw => by rw [hget]; exact hk w (List.mem_cons_of_mem _ hw)), hget]
      simp [hkk]

/-- The store after a restart: one hot segment with every live route, its
per-amount cache forgotten, and the same hop-pair index. -/
structure RestartSpec (g g' : StoreInner) : Prop where
  cold : g'.routesCold = .empty
  hot : ∀ x, g'.routesHot.get x = (g.find x).map RouteTemplate.reload
  index : g'.hopPairIndex = g.hopPairIndex
  len : g'.routesHot.len = routeCount g

theorem listing_find {g : StoreInner} (hi : g.Inv) {hot cold : List (Sig × RouteTemplate)}
    (hh : g.routesHot.Listing hot) (hc : g.routesCold.Listing cold) (x : Sig) (t : RouteTemplate) :
    (x, t) ∈ hot ++ cold ↔ g.find x = some t := by
  rw [List.mem_append, hh.mem_iff, hc.mem_iff]
  constructor
  · rintro (h | h)
    · exact StoreInner.Inv.find_hot h
    · exact hi.find_cold h
  · intro h
    rcases Option.or_eq_some_iff.mp h with h | ⟨_, h⟩
    · exact Or.inl h
    · exact Or.inr h

private theorem listing_nodup {g : StoreInner} (hi : g.Inv) {hot cold : List (Sig × RouteTemplate)}
    (hh : g.routesHot.Listing hot) (hc : g.routesCold.Listing cold) :
    ((hot ++ cold).map Prod.fst).Nodup := by
  rw [List.map_append, List.nodup_append]
  refine ⟨hh.keys_nodup, hc.keys_nodup, ?_⟩
  intro a ha b hb hab
  obtain ⟨⟨_, t⟩, ht, rfl⟩ := List.mem_map.mp ha
  obtain ⟨⟨_, u⟩, hu, hub⟩ := List.mem_map.mp hb
  dsimp only at hub hab
  subst hab
  subst hub
  rcases hi.disjoint _ with h | h
  · rw [hh.mem_iff.mp ht] at h; cases h
  · rw [hc.mem_iff.mp hu] at h; cases h

private theorem index_text {index : List (String × Sig)} {m : HashMap String Sig}
    {pairs : List (String × String)} (hx : m.Listing index)
    (hp : (HashMap.collect (index.map fun p => (p.1, sigText p.2))).Listing pairs)
    (k : String) (sig : Sig) :
    (∃ v, (k, v) ∈ pairs ∧ parseSig v = some sig) ↔ m.get k = some sig := by
  have hn : ((index.map fun p => (p.1, sigText p.2)).map Prod.fst).Nodup := by
    rw [List.map_map]
    exact hx.keys_nodup
  constructor
  · rintro ⟨v, hv, hs⟩
    rw [hp.mem_iff, HashMap.get_collect hn, List.mem_map] at hv
    obtain ⟨⟨k', sig'⟩, hm, he⟩ := hv
    cases he
    rw [parseSig_sigText] at hs
    cases hs
    exact hx.mem_iff.mp hm
  · intro hg
    refine ⟨sigText sig, ?_, parseSig_sigText sig⟩
    rw [hp.mem_iff, HashMap.get_collect hn, List.mem_map]
    exact ⟨(k, sig), hx.mem_iff.mpr hg, rfl⟩

/-- Every restart of a store that keeps the invariant meets the description. -/
theorem Restarted.spec {g g' : StoreInner} (hi : g.Inv) (h : Restarted g g') : RestartSpec g g' := by
  obtain ⟨file, ⟨hot, cold, index, hh, hc, hx, rfl⟩, pairs, hp, rfl⟩ := h
  have hfind := listing_find hi hh hc
  have hkey : ∀ p ∈ hot ++ cold, p.2.routeSignature = p.1 := by
    intro p hm
    exact hi.key ((hfind p.1 p.2).mp hm)
  obtain ⟨r1, r2, _, _, r5, r6⟩ := foldl_loadRecord (hot ++ cold) (.new, 0) hkey
    (listing_nodup hi hh hc) (fun _ _ => rfl)
  obtain ⟨p1, p2, _, p4⟩ := foldl_loadHopPair pairs
    ((flushRoutesToDisk hot cold index).routes.foldl loadRecord (.new, 0)).1 hp.keys_nodup
  refine ⟨p2.trans r1, ?_, ?_, ?_⟩
  · intro x
    apply Option.ext
    intro t
    refine Iff.trans (by exact (congrArg (fun m => m.get x = some t) p1).to_iff) ?_
    refine (r6 x t).trans ?_
    rw [Option.map_eq_some_iff]
    constructor
    · rintro (hn | ⟨u, hu, he⟩)
      · cases hn
      · exact ⟨u, (hfind x u).mp hu, he.symm⟩
    · rintro ⟨u, hu, he⟩
      exact Or.inr ⟨u, (hfind x u).mpr hu, he.symm⟩
  · apply HashMap.ext_get
    intro k
    apply Option.ext
    intro sig
    have hnone : ((flushRoutesToDisk hot cold index).routes.foldl loadRecord (.new, 0)).1.hopPairIndex.get k
        = none := (congrArg (fun m => m.get k) r2).trans (HashMap.get_empty k)
    refine (p4 k (fun _ _ => hnone) sig).trans ?_
    rw [hnone, index_text hx hp k sig]
    simp
  · refine (congrArg HashMap.len p1).trans (r5.trans ?_)
    rw [List.length_append, hh.length_eq, hc.length_eq, routeCount]
    exact Nat.zero_add _

private theorem loadRecord_hops (s : StoreInner × Nat) (rec : RouteRecord) :
    (loadRecord s rec).1.hops = s.1.hops := by
  unfold loadRecord
  split
  · rfl
  · split <;> rfl

/-- The hop templates have files of their own. -/
theorem loadRoutesFromDisk_hops (g : StoreInner) (routes : List RouteRecord)
    (hopPairs : List (String × String)) : (loadRoutesFromDisk g routes hopPairs).1.hops = g.hops := by
  have hpairs : ∀ g : StoreInner, (hopPairs.foldl loadHopPair g).hops = g.hops := by
    intro g
    induction hopPairs generalizing g with
    | nil => rfl
    | cons p l ih => exact (ih _).trans (loadHopPair_frame g p).2.2
  have hroutes : ∀ s : StoreInner × Nat, (routes.foldl loadRecord s).1.hops = s.1.hops := by
    intro s
    induction routes generalizing s with
    | nil => rfl
    | cons rec l ih => exact (ih _).trans (loadRecord_hops s rec)
  exact (hpairs _).trans (hroutes (g, 0))

theorem Restarted.hops {g g' : StoreInner} (h : Restarted g g') : g'.hops = .empty := by
  obtain ⟨file, _, pairs, _, rfl⟩ := h
  exact loadRoutesFromDisk_hops .new file.routes pairs

/-- A flush can always be written, and loading it is always possible. -/
theorem exists_restarted (g : StoreInner) : ∃ g', Restarted g g' := by
  obtain ⟨hot, hh⟩ := g.routesHot.exists_listing
  obtain ⟨cold, hc⟩ := g.routesCold.exists_listing
  obtain ⟨index, hx⟩ := g.hopPairIndex.exists_listing
  obtain ⟨pairs, hp⟩ := (flushRoutesToDisk hot cold index).hopPairs.exists_listing
  exact ⟨_, _, ⟨hot, cold, index, hh, hc, hx, rfl⟩, pairs, hp, rfl⟩

namespace RestartSpec
variable {g g' : StoreInner}

theorem find (h : RestartSpec g g') (x : Sig) : g'.find x = (g.find x).map RouteTemplate.reload := by
  rw [StoreInner.find, h.cold, HashMap.get_empty, Option.or_none, h.hot]

theorem inv (h : RestartSpec g g') (hi : g.Inv) : g'.Inv where
  disjoint x := Or.inr (by rw [h.cold, HashMap.get_empty])
  hotKey x t ht := by
    rw [h.hot] at ht
    obtain ⟨u, hu, rfl⟩ := Option.map_eq_some_iff.mp ht
    exact hi.key (t := u) hu
  coldKey x t ht := by rw [h.cold, HashMap.get_empty] at ht; cases ht

end RestartSpec
end SolanaArbBot.TemplateCache
