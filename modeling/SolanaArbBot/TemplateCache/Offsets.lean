import Mathlib.Data.List.Nodup
import SolanaArbBot.TemplateCache.Patching

/-! Which buffers an offset pair is discovered in. The second scan looks for
eight bytes but stops where the sixteen of the first one would end. -/
namespace SolanaArbBot.TemplateCache
open Lib

def OnlyAt (P : Nat → Prop) (p : Nat) : Prop := P p ∧ ∀ q, P q → q = p

theorem onlyAt_congr {P Q : Nat → Prop} (h : ∀ q, P q ↔ Q q) (p : Nat) : OnlyAt P p ↔ OnlyAt Q p :=
  and_congr (h p) (forall_congr' fun q => imp_congr_left (h q))

private theorem filter_range_eq_singleton {hit : Nat → Bool} {n p : Nat} :
    (List.range n).filter hit = [p] ↔ OnlyAt (fun q => q < n ∧ hit q = true) p := by
  have hmem (q : Nat) : q ∈ (List.range n).filter hit ↔ q < n ∧ hit q = true := by
    rw [List.mem_filter, List.mem_range]
  constructor
  · intro h
    rw [h] at hmem
    exact ⟨(hmem p).mp List.mem_cons_self, fun q hq => List.mem_singleton.mp ((hmem q).mpr hq)⟩
  · rintro ⟨hp, honly⟩
    have hnd : ((List.range n).filter hit).Nodup := List.nodup_range.filter hit
    apply List.perm_singleton.mp
    rw [List.perm_ext_iff_of_nodup hnd (List.nodup_singleton p)]
    intro q
    rw [hmem, List.mem_singleton]
    exact ⟨honly q, fun hq => hq ▸ hp⟩

/-- A scan of the first offsets finds what stands at exactly one of them. -/
theorem scanUnique_range_eq_some {hit : Nat → Bool} {n p : Nat} :
    scanUnique hit (List.range n) none 0 = some (some p) ↔
      OnlyAt (fun q => q < n ∧ hit q = true) p := by
  rw [← filter_range_eq_singleton, scanUnique_eq]
  cases (List.range n).filter hit with
  | nil => simp
  | cons r rs => cases rs <;> simp

theorem scanUnique_range_eq_none {hit : Nat → Bool} {n : Nat} :
    scanUnique hit (List.range n) none 0 = some none ↔ ∀ q, ¬ (q < n ∧ hit q = true) := by
  have hnil : (List.range n).filter hit = [] ↔ ∀ q, ¬ (q < n ∧ hit q = true) := by
    simp
  rw [← hnil, scanUnique_eq]
  cases (List.range n).filter hit with
  | nil => simp
  | cons r rs => cases rs <;> simp

variable {data : List UInt8} {inAmount quotedOut : UInt64}

def PairAt (data : List UInt8) (inAmount quotedOut : UInt64) (p : Nat) : Prop :=
  OccursAt (leBytes inAmount ++ leBytes quotedOut) data p

instance (data : List UInt8) (inAmount quotedOut : UInt64) (p : Nat) :
    Decidable (PairAt data inAmount quotedOut p) := inferInstanceAs (Decidable (OccursAt _ _ _))

/-- The amount stands at p with room for another word behind it. -/
def InAt (data : List UInt8) (inAmount : UInt64) (p : Nat) : Prop :=
  OccursAt (leBytes inAmount) data p ∧ p + 16 ≤ data.length

private theorem pairAt_iff (hlen : 16 ≤ data.length) (p : Nat) :
    (p < data.length - 16 + 1 ∧ (window data p 8 == leBytes inAmount &&
      window data (p + 8) 8 == leBytes quotedOut) = true) ↔ PairAt data inAmount quotedOut p := by
  rw [PairAt, occursAt_append]
  simp only [OccursAt, leBytes_length, Bool.and_eq_true, beq_iff_eq]
  constructor
  · rintro ⟨hp, h1, h2⟩
    exact ⟨⟨by omega, h1⟩, by omega, h2⟩
  · rintro ⟨⟨_, h1⟩, hp, h2⟩
    exact ⟨by omega, h1, h2⟩

private theorem inAt_iff (hlen : 16 ≤ data.length) (p : Nat) :
    (p < data.length - 16 + 1 ∧ (window data p 8 == leBytes inAmount) = true) ↔
      InAt data inAmount p := by
  simp only [InAt, OccursAt, leBytes_length, beq_iff_eq]
  constructor
  · rintro ⟨hp, h1⟩
    exact ⟨⟨by omega, h1⟩, by omega⟩
  · rintro ⟨⟨_, h1⟩, hp⟩
    exact ⟨by omega, h1⟩

private theorem found_iff {r p q : Nat} : some (r, r + 8) = some (p, q) ↔ q = p + 8 ∧ r = p := by
  rw [Option.some.injEq, Prod.mk.injEq]
  constructor
  · rintro ⟨rfl, rfl⟩
    exact ⟨rfl, rfl⟩
  · rintro ⟨rfl, rfl⟩
    exact ⟨rfl, rfl⟩

/-- What the two scans answer. -/
theorem discoverOffsets_eq_some {p q : Nat} :
    discoverOffsets data inAmount quotedOut = some (p, q) ↔
      q = p + 8 ∧ (OnlyAt (PairAt data inAmount quotedOut) p ∨
        (∀ r, ¬ PairAt data inAmount quotedOut r) ∧ OnlyAt (InAt data inAmount) p) := by
  unfold discoverOffsets
  split
  · next hshort =>
    have hpair (r : Nat) : ¬ PairAt data inAmount quotedOut r := by
      rintro ⟨hr, _⟩
      simp only [List.length_append, leBytes_length] at hr
      omega
    have hin (r : Nat) : ¬ InAt data inAmount r := fun h => by have := h.2; omega
    simp [OnlyAt, hpair, hin]
  · next hlen =>
    have hlen : 16 ≤ data.length := by omega
    have hpair := fun r => @pairAt_iff data inAmount quotedOut hlen r
    have hin := fun r => @inAt_iff data inAmount hlen r
    have hone (r : Nat) := scanUnique_range_eq_some.trans (onlyAt_congr hpair r)
    have hnone := scanUnique_range_eq_none.trans (forall_congr' fun r => not_congr (hpair r))
    have hone' (r : Nat) := scanUnique_range_eq_some.trans (onlyAt_congr hin r)
    dsimp only
    split
    · next hs =>
      -- two pairs: neither scan can name a position
      simp only [hs, reduceCtorEq, false_iff] at hone hnone
      simp [hone, hnone]
    · next r hs =>
      have hr := (hone r).mp hs
      have hsome : ¬ ∀ r, ¬ PairAt data inAmount quotedOut r := fun h => h r hr.1
      have honly : OnlyAt (PairAt data inAmount quotedOut) p ↔ r = p :=
        ⟨fun h => h.2 r hr.1, fun h => h ▸ hr⟩
      simp only [found_iff, honly, hsome, false_and, or_false]
    · next hs =>
      have hno := hnone.mp hs
      have honly : ¬ OnlyAt (PairAt data inAmount quotedOut) p := fun h => hno p h.1
      simp only [honly, hno, not_false_eq_true, implies_true, true_and, false_or, ← hone']
      split
      · next hs' => simp [hs']
      · next r hs' =>
        rw [hs']
        cases r with
        | none => simp
        | some r =>
          rw [Option.map_some, found_iff]
          simp only [Option.some.injEq]

/-- The answer an unambiguous match calls for: the only pair in the buffer or,
where there is no pair, the only place of the amount. -/
def Unambiguous (data : List UInt8) (inAmount quotedOut : UInt64) (p q : Nat) : Prop :=
  q = p + 8 ∧ p + 16 ≤ data.length ∧ (OnlyAt (PairAt data inAmount quotedOut) p ∨
    (∀ r, ¬ PairAt data inAmount quotedOut r) ∧ OnlyAt (OccursAt (leBytes inAmount) data) p)

/-- There is no pair, and the second scan sees the amount once while it stands
again in the last fifteen bytes. -/
def HiddenInTail (data : List UInt8) (inAmount quotedOut : UInt64) : Prop :=
  (∀ r, ¬ PairAt data inAmount quotedOut r) ∧ (∃ p, OnlyAt (InAt data inAmount) p) ∧
    ∃ r, OccursAt (leBytes inAmount) data r ∧ data.length < r + 16

/-- Offsets are discovered at unambiguous matches only, unless a second place of
the amount hides in the tail. -/
theorem discoverOffsets_unambiguous_iff (data : List UInt8) (inAmount quotedOut : UInt64) :
    (∀ p q, discoverOffsets data inAmount quotedOut = some (p, q) ↔
      Unambiguous data inAmount quotedOut p q) ↔ ¬ HiddenInTail data inAmount quotedOut := by
  simp only [discoverOffsets_eq_some, Unambiguous]
  constructor
  · rintro h ⟨hno, ⟨p, hp⟩, r, hr, htail⟩
    obtain ⟨_, _, ⟨hpair, _⟩ | ⟨_, honly⟩⟩ := (h p (p + 8)).mp ⟨rfl, Or.inr ⟨hno, hp⟩⟩
    · exact hno p hpair
    · have hrp := honly.2 r hr
      have := hp.1.2
      omega
  · intro h p q
    refine and_congr_right fun _ => ?_
    constructor
    · rintro (hpair | ⟨hno, hp⟩)
      · refine ⟨?_, Or.inl hpair⟩
        have := hpair.1.1
        simp only [List.length_append, leBytes_length] at this
        omega
      · refine ⟨hp.1.2, Or.inr ⟨hno, hp.1.1, ?_⟩⟩
        intro r hr
        by_contra hne
        refine h ⟨hno, ⟨p, hp⟩, r, hr, ?_⟩
        by_contra hroom
        exact hne (hp.2 r ⟨hr, by omega⟩)
    · rintro ⟨hroom, hpair | ⟨hno, hp⟩⟩
      · exact Or.inl hpair
      · exact Or.inr ⟨hno, ⟨hp.1, hroom⟩, fun r hr => hp.2 r hr.1⟩

/-- The amount at both ends of a buffer of three words: the first place is taken. -/
theorem amount_hidden_in_tail :
    let data := leBytes 5 ++ leBytes 0 ++ leBytes 5
    discoverOffsets data 5 6605 = some (0, 8) ∧ ¬ Unambiguous data 5 6605 0 8 := by
  refine ⟨by decide, ?_⟩
  rintro ⟨_, _, ⟨hpair, _⟩ | ⟨_, _, honly⟩⟩
  · exact absurd hpair (by decide)
  · exact absurd (honly 16 (by decide)) (by decide)

end SolanaArbBot.TemplateCache
