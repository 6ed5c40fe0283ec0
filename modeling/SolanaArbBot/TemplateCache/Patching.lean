import SolanaArbBot.Metis
import SolanaArbBot.Lib.Base64
import SolanaArbBot.Lib.Bytes
import SolanaArbBot.Lib.HashMap
import SolanaArbBot.TemplateCache.Signature

/-! Locating the two amounts inside instruction data and serving a cached
template for another amount. Offsets are machine words; slicing may panic. -/
namespace SolanaArbBot.TemplateCache
open Lib

/-- One complete response per route structure. -/
structure RouteTemplate where
  routeSignature : Sig
  swapIxs : SwapInstructionsResponse
  templateInAmount : UInt64
  templateQuotedOut : UInt64
  inAmountOffset : Option Nat
  quotedOutOffset : Option Nat
  amountVariants : HashMap UInt64 SwapInstructionsResponse
  seenCount : UInt64
  hitCount : UInt64
  deriving DecidableEq

/-- Scan positions for the only hit, giving up at the second one. The inner
option is the position found. -/
def scanUnique (hit : Nat → Bool) : List Nat → Option Nat → Nat → Option (Option Nat)
  | [], found, _ => some found
  | p :: ps, found, count =>
    if hit p then
      if count + 1 > 1 then none else scanUnique hit ps (some p) (count + 1)
    else scanUnique hit ps found count

def discoverOffsets (data : List UInt8) (inAmount quotedOut : UInt64) : Option (Nat × Nat) :=
  let inLe := leBytes inAmount
  let outLe := leBytes quotedOut
  if data.length < 16 then none
  else
    let ps := List.range (data.length - 16 + 1)
    match scanUnique (fun p => window data p 8 == inLe && window data (p + 8) 8 == outLe) ps none 0 with
    | none => none
    | some (some p) => some (p, p + 8)
    | some none =>
      match scanUnique (fun p => window data p 8 == inLe) ps none 0 with
      | none => none
      | some foundIn => foundIn.map fun p => (p, p + 8)

/-- Addition of machine words, wrapping as the release profile does. -/
def usizeAdd (a b : Nat) : Nat := (a + b) % 2 ^ 64

def copyIntoSlice (data : List UInt8) (lo hi : Nat) (word : List UInt8) :
    Except Panic (List UInt8) :=
  if lo ≤ hi ∧ hi ≤ data.length then .ok (splice data lo word) else .error .sliceIndex

def patchAmountsB64 (dataB64 : String) (inOff outOff : Nat) (newIn newOut : UInt64) :
    Except Panic (Option String) :=
  match Base64.decode dataB64 with
  | none => .ok none
  | some data =>
    if usizeAdd inOff 8 > data.length ∨ usizeAdd outOff 8 > data.length then .ok none
    else do
      let data ← copyIntoSlice data inOff (usizeAdd inOff 8) (leBytes newIn)
      let data ← copyIntoSlice data outOff (usizeAdd outOff 8) (leBytes newOut)
      return some (Base64.encode data)

/-- The floor argument is ignored; the patched floor keeps the distance between
the two amounts of the template. -/
def serveRoute (tmpl : RouteTemplate) (newIn _newOut : UInt64) :
    Except Panic (Option SwapInstructionsResponse) :=
  match tmpl.amountVariants.get newIn with
  | some v => .ok (some v)
  | none =>
    match tmpl.inAmountOffset, tmpl.quotedOutOffset with
    | some inOff, some outOff => do
      let newOut := newIn + (tmpl.templateQuotedOut - tmpl.templateInAmount)
      match ← patchAmountsB64 tmpl.swapIxs.swapInstruction.data inOff outOff newIn newOut with
      | none => return none
      | some newData => return some (tmpl.swapIxs.withData newData)
    | _, _ => .ok none

private theorem scanUnique_found (hit : Nat → Bool) (ps : List Nat) (p : Nat) :
    scanUnique hit ps (some p) 1 = if ps.filter hit = [] then some (some p) else none := by
  induction ps with
  | nil => rfl
  | cons q ps ih =>
    rw [scanUnique]
    split
    · next hq => simp [hq]
    · next hq => simp [hq, ih]

/-- The scan answers from the list of all hits: none, exactly one, or several. -/
theorem scanUnique_eq (hit : Nat → Bool) (ps : List Nat) :
    scanUnique hit ps none 0 =
      match ps.filter hit with
      | [] => some none
      | [p] => some (some p)
      | _ => none := by
  induction ps with
  | nil => rfl
  | cons q ps ih =>
    rw [scanUnique]
    split
    · next hq =>
      rw [List.filter_cons_of_pos hq]
      simp only [Nat.zero_add, gt_iff_lt, Nat.lt_irrefl, if_false, scanUnique_found]
      cases ps.filter hit with
      | nil => rfl
      | cons r rs => simp
    · next hq => rw [List.filter_cons_of_neg hq, ih]

/-- With a hit in range the scan finds that hit or gives up. -/
theorem scanUnique_of_hit {hit : Nat → Bool} {ps : List Nat} {p : Nat} (hp : p ∈ ps)
    (hh : hit p = true) :
    scanUnique hit ps none 0 = some (some p) ∨ scanUnique hit ps none 0 = none := by
  have hm : p ∈ ps.filter hit := List.mem_filter.mpr ⟨hp, hh⟩
  rw [scanUnique_eq]
  cases hf : ps.filter hit with
  | nil => rw [hf] at hm; exact absurd hm List.not_mem_nil
  | cons r rs =>
    cases rs with
    | nil =>
      rw [hf, List.mem_singleton] at hm
      left; rw [hm]
    | cons s rs => right; rfl

/-- Where the pair of amounts stands at p, only p or nothing is discovered. -/
theorem discoverOffsets_of_window {data : List UInt8} {inAmount quotedOut : UInt64} {p : Nat}
    (hlen : p + 16 ≤ data.length) (hin : window data p 8 = leBytes inAmount)
    (hout : window data (p + 8) 8 = leBytes quotedOut) :
    discoverOffsets data inAmount quotedOut = some (p, p + 8) ∨
      discoverOffsets data inAmount quotedOut = none := by
  have hp : p ∈ List.range (data.length - 16 + 1) := List.mem_range.mpr (by omega)
  have hh : (window data p 8 == leBytes inAmount && window data (p + 8) 8 == leBytes quotedOut) =
      true := by simp [hin, hout]
  have hs := @scanUnique_of_hit (fun p => window data p 8 == leBytes inAmount &&
    window data (p + 8) 8 == leBytes quotedOut) _ p hp hh
  unfold discoverOffsets
  rw [if_neg (by omega)]
  rcases hs with hs | hs
  · left; simp only [hs]
  · right; simp only [hs]

/-- A patch inside the buffer overwrites the two slots and nothing else. -/
theorem patchAmountsB64_encode {data : List UInt8} {inOff outOff : Nat} (newIn newOut : UInt64)
    (hin : inOff + 8 ≤ data.length) (hout : outOff + 8 ≤ data.length)
    (hfit : data.length < 2 ^ 64) :
    patchAmountsB64 (Base64.encode data) inOff outOff newIn newOut =
      .ok (some (Base64.encode (splice (splice data inOff (leBytes newIn)) outOff (leBytes newOut)))) := by
  have hi : usizeAdd inOff 8 = inOff + 8 := Nat.mod_eq_of_lt (by omega)
  have ho : usizeAdd outOff 8 = outOff + 8 := Nat.mod_eq_of_lt (by omega)
  have hl : (splice data inOff (leBytes newIn)).length = data.length :=
    splice_length _ _ _ (by rw [leBytes_length]; exact hin)
  unfold patchAmountsB64
  rw [Base64.decode_encode]
  simp only [hi, ho]
  rw [if_neg (by omega), copyIntoSlice, if_pos ⟨by omega, hin⟩]
  simp only [bind, Except.bind, copyIntoSlice, hl]
  rw [if_pos ⟨by omega, hout⟩]
  rfl

/-- What is served is the cached response or a patch of the base instruction. -/
theorem serveRoute_cases {t : RouteTemplate} {newIn newOut : UInt64} {r : SwapInstructionsResponse}
    (h : serveRoute t newIn newOut = .ok (some r)) :
    t.amountVariants.get newIn = some r ∨ ∃ inOff outOff data,
      t.inAmountOffset = some inOff ∧ t.quotedOutOffset = some outOff ∧
      patchAmountsB64 t.swapIxs.swapInstruction.data inOff outOff newIn
        (newIn + (t.templateQuotedOut - t.templateInAmount)) = .ok (some data) ∧
      r = t.swapIxs.withData data := by
  unfold serveRoute at h
  split at h
  · next v hv =>
    cases h
    exact Or.inl hv
  · split at h
    · next inOff outOff hi ho =>
      refine Or.inr ⟨inOff, outOff, ?_⟩
      dsimp only at h
      cases hp : patchAmountsB64 t.swapIxs.swapInstruction.data inOff outOff newIn
          (newIn + (t.templateQuotedOut - t.templateInAmount)) with
      | error e =>
        rw [hp] at h
        cases h
      | ok d =>
        rw [hp] at h
        cases d with
        | none => cases h
        | some data =>
          cases h
          exact ⟨data, hi, ho, rfl, rfl⟩
    · cases h

end SolanaArbBot.TemplateCache
