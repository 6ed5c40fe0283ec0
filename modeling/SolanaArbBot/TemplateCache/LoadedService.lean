import SolanaArbBot.TemplateCache.Disk

/-! Serving a template that was read back from routes.json, where nothing was
checked: the offsets and both amounts are whatever the file holds. -/
namespace SolanaArbBot.TemplateCache
open Lib

/-- What a build with overflow checks would stop at. -/
inductive Fault where
  | overflow
  | panic (p : Panic)
  deriving DecidableEq

def usizeAddChecked (a b : Nat) : Except Fault Nat :=
  if a + b < 2 ^ 64 then .ok (a + b) else .error .overflow

def u64AddChecked (a b : UInt64) : Except Fault UInt64 :=
  if a.toNat + b.toNat < 2 ^ 64 then .ok (a + b) else .error .overflow

def u64SubChecked (a b : UInt64) : Except Fault UInt64 :=
  if b ≤ a then .ok (a - b) else .error .overflow

/-- The patch with every addition checked; the second end is computed only when
the first one lies inside the buffer. -/
def patchAmountsB64Checked (dataB64 : String) (inOff outOff : Nat) (newIn newOut : UInt64) :
    Except Fault (Option String) :=
  match Base64.decode dataB64 with
  | none => .ok none
  | some data => do
    let inEnd ← usizeAddChecked inOff 8
    if inEnd > data.length then .ok none
    else do
      let outEnd ← usizeAddChecked outOff 8
      if outEnd > data.length then .ok none
      else do
        let data ← (copyIntoSlice data inOff inEnd (leBytes newIn)).mapError .panic
        let data ← (copyIntoSlice data outOff outEnd (leBytes newOut)).mapError .panic
        return some (Base64.encode data)

def serveRouteChecked (tmpl : RouteTemplate) (newIn _newOut : UInt64) :
    Except Fault (Option SwapInstructionsResponse) :=
  match tmpl.amountVariants.get newIn with
  | some v => .ok (some v)
  | none =>
    match tmpl.inAmountOffset, tmpl.quotedOutOffset with
    | some inOff, some outOff => do
      let newOut ← u64AddChecked newIn (← u64SubChecked tmpl.templateQuotedOut tmpl.templateInAmount)
      match ← patchAmountsB64Checked tmpl.swapIxs.swapInstruction.data inOff outOff newIn newOut with
      | none => return none
      | some newData => return some (tmpl.swapIxs.withData newData)
    | _, _ => .ok none

private theorem usizeAddChecked_ok {a b c : Nat} (h : usizeAddChecked a b = .ok c) :
    c = a + b ∧ usizeAdd a b = a + b := by
  unfold usizeAddChecked at h
  split at h
  · next hlt =>
    cases h
    exact ⟨rfl, Nat.mod_eq_of_lt hlt⟩
  · cases h

private theorem u64AddChecked_ok {a b c : UInt64} (h : u64AddChecked a b = .ok c) : c = a + b := by
  unfold u64AddChecked at h
  split at h <;> cases h
  rfl

private theorem u64SubChecked_ok {a b c : UInt64} (h : u64SubChecked a b = .ok c) : c = a - b := by
  unfold u64SubChecked at h
  split at h <;> cases h
  rfl

private theorem bind_ok {ε α β : Type} {x : Except ε α} {f : α → Except ε β} {b : β}
    (h : x >>= f = .ok b) : ∃ a, x = .ok a ∧ f a = .ok b := by
  cases x with
  | error e => cases h
  | ok a => exact ⟨a, rfl, h⟩

private theorem mapError_ok {α : Type} {x : Except Panic α} {a : α}
    (h : x.mapError Fault.panic = .ok a) : x = .ok a := by
  cases x with
  | error e => cases h
  | ok b =>
    cases h
    rfl

/-- Where no check fires the patch computes what the unchecked one does. -/
theorem patchAmountsB64_of_checked {dataB64 : String} {inOff outOff : Nat} {newIn newOut : UInt64}
    {r : Option String} (h : patchAmountsB64Checked dataB64 inOff outOff newIn newOut = .ok r) :
    patchAmountsB64 dataB64 inOff outOff newIn newOut = .ok r := by
  unfold patchAmountsB64Checked at h
  unfold patchAmountsB64
  cases hd : Base64.decode dataB64 with
  | none =>
    rw [hd] at h
    cases h
    rfl
  | some data =>
    rw [hd] at h
    dsimp only at h ⊢
    obtain ⟨inEnd, hi, h⟩ := bind_ok h
    obtain ⟨rfl, hi'⟩ := usizeAddChecked_ok hi
    split at h
    · next hlong =>
      cases h
      rw [if_pos (Or.inl (by rw [hi']; exact hlong))]
    · next hin =>
      obtain ⟨outEnd, ho, h⟩ := bind_ok h
      obtain ⟨rfl, ho'⟩ := usizeAddChecked_ok ho
      split at h
      · next hlong =>
        cases h
        rw [if_pos (Or.inr (by rw [ho']; exact hlong))]
      · next hout =>
        obtain ⟨data1, h1, h⟩ := bind_ok h
        obtain ⟨data2, h2, h⟩ := bind_ok h
        rw [hi', ho', if_neg (by omega), mapError_ok h1]
        dsimp only [bind, Except.bind]
        rw [mapError_ok h2]
        cases h
        rfl

/-- Where no check fires the service answers what the unchecked one does. -/
theorem serveRoute_of_checked {t : RouteTemplate} {newIn newOut : UInt64}
    {r : Option SwapInstructionsResponse} (h : serveRouteChecked t newIn newOut = .ok r) :
    serveRoute t newIn newOut = .ok r := by
  unfold serveRouteChecked at h
  unfold serveRoute
  cases hv : t.amountVariants.get newIn with
  | some v =>
    rw [hv] at h
    cases h
    rfl
  | none =>
    rw [hv] at h
    dsimp only at h ⊢
    cases hi : t.inAmountOffset with
    | none =>
      rw [hi] at h
      cases h
      rfl
    | some inOff =>
      cases ho : t.quotedOutOffset with
      | none =>
        rw [hi, ho] at h
        cases h
        rfl
      | some outOff =>
        rw [hi, ho] at h
        dsimp only at h ⊢
        obtain ⟨d, hd, h⟩ := bind_ok h
        obtain ⟨out, hout, h⟩ := bind_ok h
        obtain ⟨patched, hp, h⟩ := bind_ok h
        rw [u64AddChecked_ok hout, u64SubChecked_ok hd] at hp
        rw [patchAmountsB64_of_checked hp]
        cases patched <;> cases h <;> rfl

/-- The stored response with both amounts at their offsets, where every other
byte of the decoded data and its length stay. -/
def Repriced (t : RouteTemplate) (newIn newOut : UInt64) (r : SwapInstructionsResponse) : Prop :=
  ∃ inOff outOff data data', t.inAmountOffset = some inOff ∧ t.quotedOutOffset = some outOff ∧
    Base64.decode t.swapIxs.swapInstruction.data = some data ∧
    r = t.swapIxs.withData r.swapInstruction.data ∧
    Base64.decode r.swapInstruction.data = some data' ∧ data'.length = data.length ∧
    OccursAt (leBytes newIn) data' inOff ∧ OccursAt (leBytes newOut) data' outOff ∧
    ∀ k, ¬ (inOff ≤ k ∧ k < inOff + 8) → ¬ (outOff ≤ k ∧ k < outOff + 8) → data'[k]? = data[k]?

/-- No operation overflows, no slice is out of range, and what is served is
nothing or the stored response at the new amounts. -/
def ServedSoundly (t : RouteTemplate) (newIn newOut : UInt64) : Prop :=
  ∃ r, serveRouteChecked t newIn newOut = .ok r ∧ serveRoute t newIn newOut = .ok r ∧
    ∀ x, r = some x → Repriced t newIn newOut x

/-- The two amounts of the template have a difference, it can be added to the new
amount, an end of a slot that is computed is a machine word, and where both slots
lie in the data the sum is the requested floor and the slots agree where they overlap. -/
def RepriceableAt (t : RouteTemplate) (inOff outOff : Nat) (newIn newOut : UInt64) : Prop :=
  (t.templateInAmount ≤ t.templateQuotedOut ∧
    newIn.toNat + (t.templateQuotedOut - t.templateInAmount).toNat < 2 ^ 64) ∧
  ∀ data, Base64.decode t.swapIxs.swapInstruction.data = some data →
    inOff + 8 < 2 ^ 64 ∧ (inOff + 8 ≤ data.length →
      outOff + 8 < 2 ^ 64 ∧ (outOff + 8 ≤ data.length →
        newIn + (t.templateQuotedOut - t.templateInAmount) = newOut ∧
        Agree (leBytes newIn) (leBytes newOut) inOff outOff))

/-- A template with both offsets can be patched for these amounts. -/
def Repriceable (t : RouteTemplate) (newIn newOut : UInt64) : Prop :=
  ∀ inOff outOff, t.inAmountOffset = some inOff → t.quotedOutOffset = some outOff →
    RepriceableAt t inOff outOff newIn newOut

variable {t : RouteTemplate} {newIn newOut : UInt64} {inOff outOff : Nat} {data : List UInt8}

private theorem copyIntoSlice_fits {p : Nat} {w : List UInt8} (h : p + w.length ≤ data.length) :
    (copyIntoSlice data p (p + w.length) w).mapError Fault.panic = .ok (splice data p w) := by
  rw [copyIntoSlice, if_pos ⟨Nat.le_add_right _ _, h⟩]
  rfl

private theorem patchAmountsB64Checked_eq {dataB64 : String} (hd : Base64.decode dataB64 = some data) :
    patchAmountsB64Checked dataB64 inOff outOff newIn newOut =
      if inOff + 8 < 2 ^ 64 then
        if inOff + 8 > data.length then .ok none
        else if outOff + 8 < 2 ^ 64 then
          if outOff + 8 > data.length then .ok none
          else .ok (some (Base64.encode
            (splice (splice data inOff (leBytes newIn)) outOff (leBytes newOut))))
        else .error .overflow
      else .error .overflow := by
  unfold patchAmountsB64Checked
  rw [hd]
  dsimp only
  by_cases h1 : inOff + 8 < 2 ^ 64
  · rw [if_pos h1, usizeAddChecked, if_pos h1]
    dsimp only [bind, Except.bind]
    by_cases h2 : inOff + 8 > data.length
    · rw [if_pos h2, if_pos h2]
    · rw [if_neg h2, if_neg h2]
      by_cases h3 : outOff + 8 < 2 ^ 64
      · rw [if_pos h3, usizeAddChecked, if_pos h3]
        dsimp only
        by_cases h4 : outOff + 8 > data.length
        · rw [if_pos h4, if_pos h4]
        · have hl := splice_length data inOff (leBytes newIn) (by rw [leBytes_length]; omega)
          have hin : inOff + (leBytes newIn).length ≤ data.length := by rw [leBytes_length]; omega
          have hout : outOff + (leBytes newOut).length ≤
              (splice data inOff (leBytes newIn)).length := by rw [hl, leBytes_length]; omega
          rw [if_neg h4, if_neg h4]
          have hfst := copyIntoSlice_fits hin
          have hsnd := copyIntoSlice_fits hout
          rw [leBytes_length] at hfst hsnd
          rw [hfst]
          dsimp only
          rw [hsnd]
          rfl
      · rw [if_neg h3, usizeAddChecked, if_neg h3]
  · rw [if_neg h1, usizeAddChecked, if_neg h1]
    rfl

private theorem serveRouteChecked_eq (hempty : t.amountVariants.get newIn = none)
    (hi : t.inAmountOffset = some inOff) (ho : t.quotedOutOffset = some outOff) :
    serveRouteChecked t newIn newOut =
      if t.templateInAmount ≤ t.templateQuotedOut ∧
          newIn.toNat + (t.templateQuotedOut - t.templateInAmount).toNat < 2 ^ 64 then
        (patchAmountsB64Checked t.swapIxs.swapInstruction.data inOff outOff newIn
          (newIn + (t.templateQuotedOut - t.templateInAmount))).map
            (Option.map t.swapIxs.withData)
      else .error .overflow := by
  unfold serveRouteChecked
  rw [hempty, hi, ho]
  dsimp only
  by_cases hsub : t.templateInAmount ≤ t.templateQuotedOut
  · rw [u64SubChecked, if_pos hsub]
    dsimp only [bind, Except.bind]
    by_cases hadd : newIn.toNat + (t.templateQuotedOut - t.templateInAmount).toNat < 2 ^ 64
    · rw [u64AddChecked, if_pos hadd, if_pos ⟨hsub, hadd⟩]
      dsimp only
      cases patchAmountsB64Checked t.swapIxs.swapInstruction.data inOff outOff newIn
          (newIn + (t.templateQuotedOut - t.templateInAmount)) with
      | error e => rfl
      | ok d => cases d <;> rfl
    · rw [u64AddChecked, if_neg hadd, if_neg fun h => hadd h.2]
  · rw [u64SubChecked, if_neg hsub, if_neg fun h => hsub h.1]
    rfl

/-- Overwriting both slots reprices the response exactly when the amount written
last is the requested floor and the slots agree. -/
private theorem repriced_iff (hi : t.inAmountOffset = some inOff) (ho : t.quotedOutOffset = some outOff)
    (hd : Base64.decode t.swapIxs.swapInstruction.data = some data)
    (hin : inOff + 8 ≤ data.length) (hout : outOff + 8 ≤ data.length) (written : UInt64) :
    Repriced t newIn newOut (t.swapIxs.withData (Base64.encode
      (splice (splice data inOff (leBytes newIn)) outOff (leBytes written)))) ↔
      written = newOut ∧ Agree (leBytes newIn) (leBytes newOut) inOff outOff := by
  have hl : (splice data inOff (leBytes newIn)).length = data.length := splice_length _ _ _ hin
  have hout' : outOff + (leBytes written).length ≤ (splice data inOff (leBytes newIn)).length := by
    rw [hl]; exact hout
  have hlast := occursAt_splice hout'
  have hfirst := @occursAt_splice_splice _ data (leBytes newIn) (leBytes written) inOff outOff hin hout
  constructor
  · rintro ⟨i, o, d, d', hi', ho', _, _, hd', _, hoi, hoo, _⟩
    cases hi.symm.trans hi'
    cases ho.symm.trans ho'
    cases (Base64.decode_encode _).symm.trans hd'
    have hw : written = newOut := leBytes_injective (hlast.2.symm.trans hoo.2)
    rw [hw] at hoi hfirst
    exact ⟨hw, hfirst.mp hoi⟩
  · rintro ⟨rfl, ha⟩
    refine ⟨inOff, outOff, data, _, hi, ho, hd, rfl, Base64.decode_encode _, ?_, hfirst.mpr ha, hlast, ?_⟩
    · rw [splice_length _ _ _ hout', hl]
    · intro k hki hko
      rw [getElem?_splice hout', leBytes_length, if_neg hko, getElem?_splice hin, leBytes_length,
        if_neg hki]

private theorem patched_sound_iff (hi : t.inAmountOffset = some inOff)
    (ho : t.quotedOutOffset = some outOff)
    (hd : Base64.decode t.swapIxs.swapInstruction.data = some data) (written : UInt64) :
    (∃ r, (patchAmountsB64Checked t.swapIxs.swapInstruction.data inOff outOff newIn written).map
        (Option.map t.swapIxs.withData) = .ok r ∧ ∀ x, r = some x → Repriced t newIn newOut x) ↔
      inOff + 8 < 2 ^ 64 ∧ (inOff + 8 ≤ data.length →
        outOff + 8 < 2 ^ 64 ∧ (outOff + 8 ≤ data.length →
          written = newOut ∧ Agree (leBytes newIn) (leBytes newOut) inOff outOff)) := by
  have hok (r : Option SwapInstructionsResponse) :
      (∃ r', (Except.ok r : Except Fault _) = .ok r' ∧ ∀ x, r' = some x → Repriced t newIn newOut x) ↔
        ∀ x, r = some x → Repriced t newIn newOut x :=
    ⟨fun ⟨_, he, h⟩ => Except.ok.inj he ▸ h, fun h => ⟨r, rfl, h⟩⟩
  have hnone : ∀ x, (none : Option SwapInstructionsResponse) = some x → Repriced t newIn newOut x :=
    fun x hx => absurd hx (by simp)
  rw [patchAmountsB64Checked_eq hd]
  by_cases h1 : inOff + 8 < 2 ^ 64
  · rw [if_pos h1, and_iff_right h1]
    by_cases h2 : inOff + 8 > data.length
    · rw [if_pos h2]
      exact iff_of_true ⟨none, rfl, hnone⟩ fun h => absurd h (by omega)
    · rw [if_neg h2, imp_iff_right (Nat.not_lt.mp h2)]
      by_cases h3 : outOff + 8 < 2 ^ 64
      · rw [if_pos h3, and_iff_right h3]
        by_cases h4 : outOff + 8 > data.length
        · rw [if_pos h4]
          exact iff_of_true ⟨none, rfl, hnone⟩ fun h => absurd h (by omega)
        · rw [if_neg h4, imp_iff_right (Nat.not_lt.mp h4)]
          refine (hok _).trans ?_
          simp only [Option.map_some, Option.some.injEq, forall_eq']
          exact repriced_iff hi ho hd (Nat.not_lt.mp h2) (Nat.not_lt.mp h4) written
      · rw [if_neg h3]
        exact iff_of_false (fun ⟨_, he, _⟩ => nomatch he) fun h => h3 h.1
  · rw [if_neg h1]
    exact iff_of_false (fun ⟨_, he, _⟩ => nomatch he) fun h => h1 h.1

private theorem servedSoundly_iff :
    ServedSoundly t newIn newOut ↔
      ∃ r, serveRouteChecked t newIn newOut = .ok r ∧ ∀ x, r = some x → Repriced t newIn newOut x :=
  ⟨fun ⟨r, hr, _, hx⟩ => ⟨r, hr, hx⟩, fun ⟨r, hr, hx⟩ => ⟨r, hr, serveRoute_of_checked hr, hx⟩⟩

private theorem repriceable_iff_at (hi : t.inAmountOffset = some inOff)
    (ho : t.quotedOutOffset = some outOff) :
    Repriceable t newIn newOut ↔ RepriceableAt t inOff outOff newIn newOut := by
  constructor
  · exact fun hr => hr inOff outOff hi ho
  · intro hr i o hi' ho'
    cases hi.symm.trans hi'
    cases ho.symm.trans ho'
    exact hr

private theorem serveRouteChecked_of_no_offsets (hempty : t.amountVariants.get newIn = none)
    (hoff : ¬ ∃ inOff outOff, t.inAmountOffset = some inOff ∧ t.quotedOutOffset = some outOff) :
    serveRouteChecked t newIn newOut = .ok none := by
  rw [serveRouteChecked, hempty]
  dsimp only
  split
  · next inOff outOff hi ho => exact absurd ⟨inOff, outOff, hi, ho⟩ hoff
  · rfl

private theorem servedSoundly_iff_at (hempty : t.amountVariants.get newIn = none)
    (hi : t.inAmountOffset = some inOff) (ho : t.quotedOutOffset = some outOff) :
    ServedSoundly t newIn newOut ↔ RepriceableAt t inOff outOff newIn newOut := by
  rw [servedSoundly_iff, RepriceableAt, serveRouteChecked_eq hempty hi ho]
  by_cases hamounts : t.templateInAmount ≤ t.templateQuotedOut ∧
      newIn.toNat + (t.templateQuotedOut - t.templateInAmount).toNat < 2 ^ 64
  · rw [if_pos hamounts, and_iff_right hamounts]
    cases hd : Base64.decode t.swapIxs.swapInstruction.data with
    | none =>
      have hp : patchAmountsB64Checked t.swapIxs.swapInstruction.data inOff outOff newIn
          (newIn + (t.templateQuotedOut - t.templateInAmount)) = .ok none := by
        rw [patchAmountsB64Checked, hd]
      rw [hp]
      constructor
      · rintro _ data ⟨⟩
      · intro _
        exact ⟨none, rfl, fun x hx => absurd hx (by simp)⟩
    | some data =>
      rw [patched_sound_iff hi ho hd]
      simp only [Option.some.injEq, forall_eq']
  · rw [if_neg hamounts]
    constructor
    · rintro ⟨r, hr, _⟩
      cases hr
    · exact fun hr => absurd hr.1 hamounts

private theorem loadRecord_cases (s : StoreInner × Nat) (rec : RouteRecord) :
    loadRecord s rec = s ∨ ∃ sig, loadRecord s rec =
      ({ s.1 with routesHot := s.1.routesHot.insert sig (rec.toTemplate sig) }, s.2 + 1) := by
  unfold loadRecord
  split
  · exact Or.inl rfl
  · next sig _ =>
    split
    · exact Or.inl rfl
    · exact Or.inr ⟨sig, rfl⟩

private theorem foldl_loadRecord_hot {P : Sig → RouteTemplate → Prop} (routes : List RouteRecord)
    (hp : ∀ rec ∈ routes, ∀ sig, P sig (rec.toTemplate sig)) (s : StoreInner × Nat)
    (hs : ∀ sig t, s.1.routesHot.get sig = some t → P sig t) :
    (routes.foldl loadRecord s).1.routesCold = s.1.routesCold ∧
      ∀ sig t, (routes.foldl loadRecord s).1.routesHot.get sig = some t → P sig t := by
  induction routes generalizing s with
  | nil => exact ⟨rfl, hs⟩
  | cons rec routes ih =>
    have hp' : ∀ rec ∈ routes, ∀ sig, P sig (rec.toTemplate sig) := fun r hr =>
      hp r (List.mem_cons_of_mem _ hr)
    rw [List.foldl_cons]
    rcases loadRecord_cases s rec with he | ⟨sig, he⟩
    · rw [he]
      exact ih hp' s hs
    · rw [he]
      refine ih hp' _ ?_
      intro x t ht
      rw [HashMap.get_insert] at ht
      split at ht
      · next hx =>
        cases ht
        rw [hx]
        exact hp rec List.mem_cons_self sig
      · exact hs x t ht

private theorem foldl_loadHopPair_routes (pairs : List (String × String)) (g : StoreInner) :
    (pairs.foldl loadHopPair g).routesHot = g.routesHot ∧
      (pairs.foldl loadHopPair g).routesCold = g.routesCold := by
  induction pairs generalizing g with
  | nil => exact ⟨rfl, rfl⟩
  | cons p pairs ih =>
    obtain ⟨hh, hc, _⟩ := loadHopPair_frame g p
    exact ⟨(ih _).1.trans hh, (ih _).2.trans hc⟩

/-- A freshly loaded store has its templates in the hot segment, each from a record
of the file. -/
theorem Loaded.segments {file : RouteFile} {g : StoreInner} (h : Loaded file g) :
    g.routesCold = .empty ∧ ∀ sig t, g.routesHot.get sig = some t →
      ∃ rec ∈ file.routes, t = rec.toTemplate sig := by
  obtain ⟨pairs, _, rfl⟩ := h
  rw [loadRoutesFromDisk]
  dsimp only
  obtain ⟨hh, hc⟩ := foldl_loadHopPair_routes pairs (file.routes.foldl loadRecord (.new, 0)).1
  rw [hh, hc]
  refine foldl_loadRecord_hot (P := fun sig t => ∃ rec ∈ file.routes, t = rec.toTemplate sig)
    file.routes (fun rec hr sig => ⟨rec, hr, rfl⟩) (.new, 0) ?_
  intro sig t ht
  cases ht

theorem Loaded.inv {file : RouteFile} {g : StoreInner} (h : Loaded file g) : g.Inv := by
  obtain ⟨hcold, hhot⟩ := h.segments
  refine ⟨?_, ?_, ?_⟩
  · intro sig
    rw [hcold]
    exact Or.inr (HashMap.get_empty sig)
  · intro sig t ht
    obtain ⟨rec, _, rfl⟩ := hhot sig t ht
    rfl
  · intro sig t ht
    rw [hcold, HashMap.get_empty] at ht
    cases ht

theorem Loaded.find {file : RouteFile} {g : StoreInner} {sig : Sig} (h : Loaded file g)
    (hf : g.find sig = some t) : ∃ rec ∈ file.routes, t = rec.toTemplate sig := by
  obtain ⟨hcold, hhot⟩ := h.segments
  rw [StoreInner.find, hcold, HashMap.get_empty, Option.or_none] at hf
  exact hhot sig t hf

/-- A template from disk is served soundly for exactly the amounts it can be
repriced to. -/
theorem loaded_servedSoundly_iff {file : RouteFile} {g : StoreInner} {sig : Sig} {t : RouteTemplate}
    (h : Loaded file g) (hf : g.find sig = some t) (newIn newOut : UInt64) :
    ServedSoundly t newIn newOut ↔ Repriceable t newIn newOut := by
  have hempty : t.amountVariants.get newIn = none := by
    obtain ⟨rec, _, rfl⟩ := h.find hf
    exact HashMap.get_empty _
  by_cases hoff : ∃ inOff outOff, t.inAmountOffset = some inOff ∧ t.quotedOutOffset = some outOff
  · obtain ⟨inOff, outOff, hi, ho⟩ := hoff
    rw [repriceable_iff_at hi ho]
    exact servedSoundly_iff_at hempty hi ho
  · rw [servedSoundly_iff, serveRouteChecked_of_no_offsets hempty hoff]
    constructor
    · intro _ inOff outOff hi ho
      exact absurd ⟨inOff, outOff, hi, ho⟩ hoff
    · intro _
      exact ⟨none, rfl, fun x hx => absurd hx (by simp)⟩

/-- A stored route whose data hold the two amounts and nothing else. -/
def sampleRecord (inOff outOff : Nat) : RouteRecord where
  sig := "1"
  swapIxs := (default : SwapInstructionsResponse).withData (Base64.encode (leBytes 10 ++ leBytes 6610))
  templateInAmount := 10
  templateQuotedOut := 6610
  inAmountOffset := some inOff
  quotedOutOffset := some outOff
  seenCount := 1
  hitCount := 0

def sampleFile (rec : RouteRecord) : RouteFile := ⟨1, [rec], .empty⟩

def sampleStore (rec : RouteRecord) : StoreInner := (loadRoutesFromDisk .new [rec] []).1

theorem sampleFile_loaded (rec : RouteRecord) : Loaded (sampleFile rec) (sampleStore rec) :=
  ⟨[], by rfl, rfl⟩

/-- The floor 6600 above the amount is served at the offsets of the capture. -/
theorem loaded_servedSoundly_captured :
    ServedSoundly ((sampleRecord 0 8).toTemplate 1) 20 6620 := by
  have hf : (sampleStore (sampleRecord 0 8)).find 1 = some ((sampleRecord 0 8).toTemplate 1) := by decide
  refine (loaded_servedSoundly_iff (sampleFile_loaded (sampleRecord 0 8)) hf 20 6620).mpr ?_
  rintro _ _ ⟨⟩ ⟨⟩
  refine ⟨by decide, ?_⟩
  intro data hd
  have hdata : data = leBytes 10 ++ leBytes 6610 := Option.some.inj (hd.symm.trans (Base64.decode_encode _))
  subst hdata
  exact ⟨by decide, fun _ => ⟨by decide, fun _ => ⟨by decide, by decide⟩⟩⟩

/-- An offset eight below the word limit passes the bounds test and panics. -/
theorem loaded_offset_wraps :
    Loaded (sampleFile (sampleRecord (2 ^ 64 - 8) 8)) (sampleStore (sampleRecord (2 ^ 64 - 8) 8)) ∧
    (sampleStore (sampleRecord (2 ^ 64 - 8) 8)).find 1 =
      some ((sampleRecord (2 ^ 64 - 8) 8).toTemplate 1) ∧
    serveRoute ((sampleRecord (2 ^ 64 - 8) 8).toTemplate 1) 20 6620 = .error .sliceIndex ∧
    ¬ ServedSoundly ((sampleRecord (2 ^ 64 - 8) 8).toTemplate 1) 20 6620 := by
  have hpanic : serveRoute ((sampleRecord (2 ^ 64 - 8) 8).toTemplate 1) 20 6620 = .error .sliceIndex := by
    decide
  refine ⟨sampleFile_loaded _, by decide, hpanic, ?_⟩
  rintro ⟨r, _, hr, _⟩
  rw [hpanic] at hr
  cases hr

end SolanaArbBot.TemplateCache
