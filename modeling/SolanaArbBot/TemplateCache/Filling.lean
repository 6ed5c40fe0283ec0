import SolanaArbBot.TemplateCache.Runs

/-! Runs that insert many new routes: the hot segment grows one by one, and the
insertion after it is full drops the cold segment. -/
namespace SolanaArbBot.TemplateCache
open Lib

abbrev nthSig (number : Nat) : Sig := BitVec.ofNat 128 number

/-- The insertion of a response for a plan without a pair of hops. -/
abbrev plainInsert (sig : Sig) : Op := .insertRoute sig default 0 0 .null

def fill (g : StoreInner) (sigs : List Sig) : StoreInner :=
  sigs.foldl (fun g sig => insertRoute g sig default 0 0 .null) g

def fillTrace (g : StoreInner) : List Sig → List (Op × StoreInner)
  | [] => []
  | sig :: sigs =>
    let g' := insertRoute g sig default 0 0 .null
    (plainInsert sig, g') :: fillTrace g' sigs

theorem allSteps_fillTrace (g : StoreInner) (sigs : List Sig) :
    AllSteps Step g (fillTrace g sigs) := by
  induction sigs generalizing g with
  | nil => trivial
  | cons sig sigs ih => exact ⟨.insertRoute _ _ _ _ _, ih _⟩

@[simp] theorem lastState_fillTrace (g : StoreInner) (sigs : List Sig) :
    lastState g (fillTrace g sigs) = fill g sigs := by
  induction sigs generalizing g with
  | nil => rfl
  | cons sig sigs ih => exact ih _

@[simp] theorem labels_fillTrace (g : StoreInner) (sigs : List Sig) :
    labels (fillTrace g sigs) = sigs.map plainInsert := by
  induction sigs generalizing g with
  | nil => rfl
  | cons sig sigs ih => rw [fillTrace, labels_cons, ih, List.map_cons]

private theorem fill_one {g : StoreInner} {sig : Sig} (hn : g.find sig = none) (hr : ¬ g.Full) :
    fill g [sig] =
      { g with routesHot := g.routesHot.insert sig (firstTemplate sig default 0 0) } := by
  have hc : ¬ g.routesHot.len ≥ routeSegCap := hr
  refine (insertRoute_new hn default 0 0 .null).trans ?_
  unfold pushHotRoute
  rw [if_neg hc]
  rfl

/-- What is left after new routes were inserted into a store with room for them. -/
structure FillSpec (g g' : StoreInner) (sigs : List Sig) : Prop where
  cold : g'.routesCold = g.routesCold
  index : g'.hopPairIndex = g.hopPairIndex
  len : g'.routesHot.len = g.routesHot.len + sigs.length
  live : ∀ x, (g'.routesHot.get x).isSome ↔ x ∈ sigs ∨ (g.routesHot.get x).isSome

theorem fill_spec {sigs : List Sig} (g : StoreInner) (hd : sigs.Nodup)
    (hn : ∀ sig ∈ sigs, g.find sig = none) (hr : g.routesHot.len + sigs.length ≤ routeSegCap) :
    FillSpec g (fill g sigs) sigs := by
  induction sigs generalizing g with
  | nil => exact ⟨rfl, rfl, rfl, fun x => by simp [fill]⟩
  | cons sig sigs ih =>
    rw [List.length_cons] at hr
    obtain ⟨hs, hd⟩ := List.nodup_cons.mp hd
    have hns := hn sig List.mem_cons_self
    have hroom : ¬ g.Full := by rw [StoreInner.Full]; omega
    have h1 := fill_one hns hroom
    have hlen := HashMap.len_insert_of_get_none (firstTemplate sig default 0 0)
      (StoreInner.find_eq_none.mp hns).1
    obtain ⟨r1, r2, r3, r4⟩ := ih (fill g [sig]) hd (by
      intro s hm
      have hne : s ≠ sig := fun he => hs (he ▸ hm)
      have hf := hn s (List.mem_cons_of_mem _ hm)
      rw [h1, StoreInner.find, HashMap.get_insert, if_neg hne]
      exact hf) (by rw [h1]; dsimp only; omega)
    have hcons : fill g (sig :: sigs) = fill (fill g [sig]) sigs := rfl
    rw [hcons]
    refine ⟨?_, ?_, ?_, ?_⟩
    · rw [r1, h1]
    · rw [r2, h1]
    · rw [r3, h1, List.length_cons]; dsimp only; omega
    · intro x
      rw [r4, h1, List.mem_cons, HashMap.get_insert]
      by_cases hx : x = sig <;> simp [hx]

/-- A new route in a full store makes the hot routes the cold ones. -/
structure RotateSpec (g g' : StoreInner) (sig : Sig) : Prop where
  cold : g'.routesCold = g.routesHot
  len : g'.routesHot.len = 1
  live : ∀ x, (g'.routesHot.get x).isSome ↔ x = sig

theorem rotate_spec {g : StoreInner} {sig : Sig} (hn : g.find sig = none) (hf : g.Full) :
    RotateSpec g (fill g [sig]) sig ∧ (fill g [sig]).hopPairIndex = g.hopPairIndex := by
  have hc : g.routesHot.len ≥ routeSegCap := hf
  have he : fill g [sig] = { g with
      routesHot := HashMap.empty.insert sig (firstTemplate sig default 0 0)
      routesCold := g.routesHot } := by
    refine (insertRoute_new hn default 0 0 .null).trans ?_
    unfold pushHotRoute
    rw [if_pos hc]
    rfl
  rw [he]
  refine ⟨⟨rfl, ?_, ?_⟩, rfl⟩
  · exact HashMap.len_insert_of_get_none _ (HashMap.get_empty sig)
  · intro x
    rw [HashMap.get_insert]
    by_cases hx : x = sig <;> simp [hx]

def sigsFrom (lo n : Nat) : List Sig := (List.range' lo n).map nthSig

@[simp] theorem sigsFrom_length (lo n : Nat) : (sigsFrom lo n).length = n := by
  rw [sigsFrom, List.length_map, List.length_range']

theorem mem_sigsFrom {lo n : Nat} (hb : lo + n ≤ 2 ^ 128) {sig : Sig} :
    sig ∈ sigsFrom lo n ↔ lo ≤ sig.toNat ∧ sig.toNat < lo + n := by
  rw [sigsFrom, List.mem_map]
  constructor
  · rintro ⟨k, hk, rfl⟩
    have hk := List.mem_range'_1.mp hk
    rw [BitVec.toNat_ofNat, Nat.mod_eq_of_lt (by omega)]
    exact hk
  · intro h
    exact ⟨sig.toNat, List.mem_range'_1.mpr h, BitVec.ofNat_toNat _ _ |>.trans (BitVec.setWidth_eq _)⟩

theorem sigsFrom_nodup {lo n : Nat} (hb : lo + n ≤ 2 ^ 128) : (sigsFrom lo n).Nodup := by
  refine List.Nodup.map_on ?_ List.nodup_range'
  intro a ha b hb' he
  have ha := List.mem_range'_1.mp ha
  have hb' := List.mem_range'_1.mp hb'
  have ht := congrArg BitVec.toNat he
  rwa [BitVec.toNat_ofNat, BitVec.toNat_ofNat, Nat.mod_eq_of_lt (by omega),
    Nat.mod_eq_of_lt (by omega)] at ht

theorem sigsFrom_succ (lo n : Nat) : sigsFrom lo (n + 1) = sigsFrom lo n ++ [nthSig (lo + n)] := by
  rw [sigsFrom, List.range'_1_concat, List.map_append]
  rfl

/-- What is left when new routes fill the hot segment and one more follows. -/
structure RefillSpec (g g' : StoreInner) (lo n : Nat) : Prop where
  hot : ∀ x, (g'.routesHot.get x).isSome ↔ x = nthSig (lo + n)
  hotLen : g'.routesHot.len = 1
  cold : ∀ x, (g'.routesCold.get x).isSome ↔
    (lo ≤ x.toNat ∧ x.toNat < lo + n) ∨ (g.routesHot.get x).isSome
  coldLen : g'.routesCold.len = routeSegCap
  index : g'.hopPairIndex = g.hopPairIndex

theorem refill_spec {g : StoreInner} {lo n : Nat} (hb : lo + n < 2 ^ 128)
    (hn : ∀ x : Sig, lo ≤ x.toNat → x.toNat ≤ lo + n → g.find x = none)
    (hlen : g.routesHot.len + n = routeSegCap) :
    RefillSpec g (fill g (sigsFrom lo (n + 1))) lo n := by
  have hmem (x : Sig) : x ∈ sigsFrom lo n ↔ lo ≤ x.toNat ∧ x.toNat < lo + n := mem_sigsFrom hb.le
  obtain ⟨fcold, findex, flen, flive⟩ := fill_spec g (sigsFrom_nodup hb.le)
    (fun x hx => hn x ((hmem x).mp hx).1 ((hmem x).mp hx).2.le) (by rw [sigsFrom_length, hlen])
  rw [sigsFrom_length, hlen] at flen
  have hto : (nthSig (lo + n)).toNat = lo + n := by
    rw [BitVec.toNat_ofNat, Nat.mod_eq_of_lt hb]
  have hnew : (fill g (sigsFrom lo n)).find (nthSig (lo + n)) = none := by
    obtain ⟨hh, hc⟩ := StoreInner.find_eq_none.mp (hn (nthSig (lo + n)) (by omega) (by omega))
    rw [StoreInner.find_eq_none, ← Option.not_isSome_iff_eq_none, flive, fcold]
    refine ⟨?_, hc⟩
    rw [hmem, hh, hto]
    rintro (⟨_, h⟩ | h)
    · exact absurd h (Nat.lt_irrefl _)
    · cases h
  obtain ⟨⟨rcold, rlen, rlive⟩, rindex⟩ := rotate_spec hnew flen.ge
  have he : fill g (sigsFrom lo (n + 1)) = fill (fill g (sigsFrom lo n)) [nthSig (lo + n)] := by
    rw [sigsFrom_succ, fill, List.foldl_append]
    rfl
  rw [he]
  refine ⟨rlive, rlen, ?_, ?_, ?_⟩
  · intro x
    rw [rcold, flive, hmem]
  · rw [rcold, flen]
  · rw [rindex, findex]

section Sample

def taught : StoreInner := insertRoute .new 0 default 0 0 samplePlan

theorem taught_hot (x : Sig) : (taught.routesHot.get x).isSome ↔ x = 0 := by
  rw [taught, insertRoute_new rfl, indexHopPair_hot, pushHotRoute_hot]
  by_cases hx : x = 0 <;> simp [hx, StoreInner.new]

private theorem taught_cold (x : Sig) : taught.routesCold.get x = none := by
  rw [taught, insertRoute_new rfl, indexHopPair_cold, pushHotRoute_cold, if_neg (by decide)]
  rfl

private theorem taught_len : taught.routesHot.len = 1 := by
  rw [taught, insertRoute_new rfl, indexHopPair_hot]
  exact HashMap.len_insert_of_get_none _ rfl

theorem taught_index {k : String} (hk : hopPairKey samplePlan = some k) :
    taught.hopPairIndex.get k = some 0 := by
  rw [taught, insertRoute_new rfl, indexHopPair, hk]
  refine (HashMap.get_orInsert _ _ _ _).trans ?_
  rw [if_pos rfl]
  rfl

/-- The same store after the 2000 plain routes that push the first one into the cold segment. -/
def rotated : StoreInner := fill taught (sigsFrom 1 2000)

theorem rotated_spec : RefillSpec taught rotated 1 1999 := by
  refine refill_spec (by omega) ?_ (by rw [taught_len, routeSegCap])
  intro x hlo _
  refine StoreInner.find_eq_none.mpr ⟨?_, taught_cold x⟩
  rw [← Option.not_isSome_iff_eq_none, taught_hot]
  rintro rfl
  exact absurd hlo (by decide)

/-- Its first route is cold and not hot. -/
theorem rotated_cold : (rotated.routesCold.get 0).isSome ∧ rotated.routesHot.get 0 = none := by
  constructor
  · exact (rotated_spec.cold 0).mpr (Or.inr ((taught_hot 0).mpr rfl))
  · rw [← Option.not_isSome_iff_eq_none, rotated_spec.hot]
    decide

def rotatedTrace : List (Op × StoreInner) :=
  (.insertRoute 0 default 0 0 samplePlan, taught) :: fillTrace taught (sigsFrom 1 2000)

theorem isRun_rotatedTrace : IsRun rotatedTrace :=
  ⟨.insertRoute 0 default 0 0 samplePlan, allSteps_fillTrace _ _⟩

theorem lastState_rotatedTrace : lastState .new rotatedTrace = rotated := by
  rw [rotatedTrace, lastState, lastState_fillTrace, rotated]

end Sample
end SolanaArbBot.TemplateCache
