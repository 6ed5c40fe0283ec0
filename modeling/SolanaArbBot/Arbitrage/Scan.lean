import Mathlib.Data.List.Nodup
import Mathlib.Data.UInt
import Mathlib.Order.WellFounded
import SolanaArbBot.Lib.Loop
import SolanaArbBot.Lib.Stride

/-! The enumeration of a scan cycle: every amount with every token, once for free
routes and once for direct ones. The configuration is not validated. -/
namespace SolanaArbBot.Arbitrage
open Lib

def pairsAt (tokenMints : List String) (amount : UInt64) : List (UInt64 × String × Bool) :=
  tokenMints.flatMap fun tokenMint => [(amount, tokenMint, false), (amount, tokenMint, true)]

/-- The loop that builds all_pairs, over the amount and the pairs so far. -/
def amountInRange (maxLamports : UInt64) (s : UInt64 × List (UInt64 × String × Bool)) : Bool :=
  decide (s.1 ≤ maxLamports)

def pushAmount (tokenMints : List String) (stepLamports : UInt64)
    (s : UInt64 × List (UInt64 × String × Bool)) : UInt64 × List (UInt64 × String × Bool) :=
  (s.1 + stepLamports, s.2 ++ pairsAt tokenMints s.1)

/-- The loop ends with this list. -/
def AllPairs (tokenMints : List String) (minLamports maxLamports stepLamports : UInt64)
    (pairs : List (UInt64 × String × Bool)) : Prop :=
  ∃ amount, EndsIn (amountInRange maxLamports) (pushAmount tokenMints stepLamports)
    (minLamports, []) (amount, pairs)

section
variable (tokenMints : List String) (minLamports maxLamports stepLamports : UInt64)

/-- The amounts of a scan in increasing order. -/
structure ScanAmounts (amounts : List UInt64) : Prop where
  increasing : amounts.Pairwise (· < ·)
  mem_iff : ∀ a, a ∈ amounts ↔
    a ≤ maxLamports ∧ ∃ k, a.toNat = minLamports.toNat + k * stepLamports.toNat

/-- The loop ends, and lists each amount with each token. -/
def ScanExact : Prop :=
  ∃ amounts, ScanAmounts minLamports maxLamports stepLamports amounts ∧
    AllPairs tokenMints minLamports maxLamports stepLamports (amounts.flatMap (pairsAt tokenMints))

/-- The range is empty, or the first amount past it is a 64-bit word. -/
def StepsOver : Prop :=
  maxLamports < minLamports ∨ 0 < stepLamports ∧
    minLamports.toNat + ((maxLamports.toNat - minLamports.toNat) / stepLamports.toNat + 1) *
      stepLamports.toNat < 2 ^ 64

/-- Some amount that the steps come to, going round if need be, is past the range. -/
def WrapsOver : Prop :=
  maxLamports.toNat < lastPlace minLamports.toNat stepLamports.toNat (2 ^ 64)

instance : Decidable (StepsOver minLamports maxLamports stepLamports) :=
  inferInstanceAs (Decidable (_ ∨ _ ∧ _))

instance : Decidable (WrapsOver minLamports maxLamports stepLamports) :=
  inferInstanceAs (Decidable (_ < _))

def amountAt (k : Nat) : UInt64 := UInt64.ofNat (minLamports.toNat + k * stepLamports.toNat)

end

variable {tokenMints : List String} {minLamports maxLamports stepLamports : UInt64}

theorem toNat_amountAt (k : Nat) : (amountAt minLamports stepLamports k).toNat =
    (minLamports.toNat + k * stepLamports.toNat) % 2 ^ 64 := UInt64.toNat_ofNat'

private theorem amountAt_zero : amountAt minLamports stepLamports 0 = minLamports := by
  rw [amountAt, Nat.zero_mul, Nat.add_zero, UInt64.ofNat_toNat]

private theorem amountAt_succ (k : Nat) : amountAt minLamports stepLamports (k + 1) =
    amountAt minLamports stepLamports k + stepLamports := by
  rw [← UInt64.toNat_inj, UInt64.toNat_add, toNat_amountAt, toNat_amountAt, Nat.mod_add_mod,
    Nat.succ_mul, Nat.add_assoc]

private theorem iterate_pushAmount (n : Nat) :
    (pushAmount tokenMints stepLamports)^[n] (minLamports, []) =
      (amountAt minLamports stepLamports n,
        ((List.range n).map (amountAt minLamports stepLamports)).flatMap (pairsAt tokenMints)) := by
  induction n with
  | zero => rw [Function.iterate_zero_apply, amountAt_zero]; rfl
  | succ n ih =>
    rw [Function.iterate_succ_apply', ih, pushAmount, amountAt_succ, List.range_succ]
    simp [List.flatMap_append]

private theorem allPairs_iff {pairs : List (UInt64 × String × Bool)} :
    AllPairs tokenMints minLamports maxLamports stepLamports pairs ↔
      ∃ n, (∀ i < n, amountAt minLamports stepLamports i ≤ maxLamports) ∧
        maxLamports < amountAt minLamports stepLamports n ∧
        ((List.range n).map (amountAt minLamports stepLamports)).flatMap (pairsAt tokenMints) = pairs := by
  simp only [AllPairs, endsIn_iff, iterate_pushAmount, amountInRange, decide_eq_true_eq,
    decide_eq_false_iff_not, UInt64.not_le, Prod.mk.injEq]
  constructor
  · rintro ⟨_, n, hall, hend, _, hp⟩
    exact ⟨n, hall, hend, hp⟩
  · rintro ⟨n, hall, hend, hp⟩
    exact ⟨_, n, hall, hend, rfl, hp⟩

private theorem stepsOver_iff :
    StepsOver minLamports maxLamports stepLamports ↔
      ∃ k, maxLamports.toNat < minLamports.toNat + k * stepLamports.toNat ∧
        minLamports.toNat + k * stepLamports.toNat < 2 ^ 64 := by
  rw [StepsOver, UInt64.lt_iff_toNat_lt, UInt64.lt_iff_toNat_lt, UInt64.toNat_zero]
  have hmin := minLamports.toNat_lt
  generalize minLamports.toNat = m at hmin ⊢
  generalize maxLamports.toNat = M
  generalize stepLamports.toNat = s
  constructor
  · rintro (hempty | ⟨hpos, hfits⟩)
    · exact ⟨0, by omega, by omega⟩
    · have hover : M - m < ((M - m) / s + 1) * s := by
        rw [Nat.mul_comm]
        exact Nat.lt_mul_div_succ _ hpos
      exact ⟨(M - m) / s + 1, by omega, hfits⟩
  · rintro ⟨k, hover, hfits⟩
    by_cases hempty : M < m
    · exact Or.inl hempty
    · have hpos : 0 < s := by
        rcases Nat.eq_zero_or_pos s with rfl | hpos
        · omega
        · exact hpos
      have hk : (M - m) / s + 1 ≤ k := (Nat.div_lt_iff_lt_mul hpos).mpr (by omega)
      have hle := Nat.mul_le_mul_right s hk
      exact Or.inr ⟨hpos, by omega⟩

private theorem wrapsOver_iff :
    WrapsOver minLamports maxLamports stepLamports ↔
      ∃ k, maxLamports < amountAt minLamports stepLamports k := by
  simp only [WrapsOver, UInt64.lt_iff_toNat_lt, toNat_amountAt]
  exact (exists_lt_mod_iff minLamports.toNat_lt).symm

private theorem exists_scanAmounts (minLamports maxLamports stepLamports : UInt64) :
    ∃ amounts, ScanAmounts minLamports maxLamports stepLamports amounts := by
  classical
  let chosen (v : Nat) : Prop := ∃ k, v = minLamports.toNat + k * stepLamports.toNat
  have htoNat (v : Nat) (hv : v ∈ (List.range (maxLamports.toNat + 1)).filter chosen) :
      (UInt64.ofNat v).toNat = v := by
    have hlt := List.mem_range.mp (List.mem_filter.mp hv).1
    have hmax := maxLamports.toNat_lt
    rw [UInt64.toNat_ofNat', Nat.mod_eq_of_lt (by omega)]
  refine ⟨((List.range (maxLamports.toNat + 1)).filter chosen).map UInt64.ofNat, ?_, ?_⟩
  · rw [List.pairwise_map]
    refine (List.pairwise_lt_range.filter _).imp_of_mem ?_
    intro v w hv hw hlt
    rw [UInt64.lt_iff_toNat_lt, htoNat v hv, htoNat w hw]
    exact hlt
  · intro a
    rw [List.mem_map, UInt64.le_iff_toNat_le]
    constructor
    · rintro ⟨v, hv, rfl⟩
      rw [htoNat v hv]
      obtain ⟨hrange, hchosen⟩ := List.mem_filter.mp hv
      exact ⟨Nat.le_of_lt_succ (List.mem_range.mp hrange), of_decide_eq_true hchosen⟩
    · rintro ⟨hle, hk⟩
      refine ⟨a.toNat, List.mem_filter.mpr ⟨?_, decide_eq_true hk⟩, UInt64.ofNat_toNat⟩
      exact List.mem_range.mpr (Nat.lt_succ_of_le hle)

/-- The loop ends with one list at most. -/
theorem AllPairs.unique {pairs pairs' : List (UInt64 × String × Bool)}
    (h : AllPairs tokenMints minLamports maxLamports stepLamports pairs)
    (h' : AllPairs tokenMints minLamports maxLamports stepLamports pairs') : pairs = pairs' := by
  obtain ⟨_, hends⟩ := h
  obtain ⟨_, hends'⟩ := h'
  exact congrArg Prod.snd (hends.unique hends')

private theorem amounts_of_pairs (hne : tokenMints ≠ []) {as bs : List UInt64}
    (h : as.flatMap (pairsAt tokenMints) = bs.flatMap (pairsAt tokenMints)) : as = bs := by
  obtain ⟨mint, mints, rfl⟩ := List.exists_cons_of_ne_nil hne
  induction as generalizing bs with
  | nil =>
    cases bs with
    | nil => rfl
    | cons b bs => cases h
  | cons a as ih =>
    cases bs with
    | nil => cases h
    | cons b bs =>
      rw [List.flatMap_cons, List.flatMap_cons] at h
      have hhead : a = b := by
        have := congrArg List.head? h
        simpa [pairsAt] using this
      subst hhead
      rw [ih (List.append_cancel_left h)]

private theorem toNat_of_increasing {n : Nat}
    (h : ∀ i < n, amountAt minLamports stepLamports i < amountAt minLamports stepLamports (i + 1)) :
    ∀ i ≤ n, minLamports.toNat + i * stepLamports.toNat < 2 ^ 64 := by
  intro i
  induction i with
  | zero =>
    intro _
    rw [Nat.zero_mul, Nat.add_zero]
    exact minLamports.toNat_lt
  | succ i ih =>
    intro hi
    have hlt := h i hi
    have hbefore := ih (Nat.le_of_succ_le hi)
    have hstep := stepLamports.toNat_lt
    rw [UInt64.lt_iff_toNat_lt, toNat_amountAt, toNat_amountAt, Nat.mod_eq_of_lt hbefore] at hlt
    rw [Nat.succ_mul, ← Nat.add_assoc] at hlt ⊢
    omega

private theorem stepsOver_of_exact (hne : tokenMints ≠ [])
    (h : ScanExact tokenMints minLamports maxLamports stepLamports) :
    StepsOver minLamports maxLamports stepLamports := by
  obtain ⟨amounts, hamounts, hpairs⟩ := h
  obtain ⟨n, hall, hend, he⟩ := allPairs_iff.mp hpairs
  have hlist := amounts_of_pairs hne he
  have hinc := hamounts.increasing
  rw [← hlist, List.pairwise_map] at hinc
  have hnext (i : Nat) (hi : i < n) :
      amountAt minLamports stepLamports i < amountAt minLamports stepLamports (i + 1) := by
    rcases Nat.lt_or_ge (i + 1) n with hlt | hge
    · have hpair := List.pairwise_iff_getElem.mp hinc i (i + 1) (by rwa [List.length_range])
        (by rwa [List.length_range]) i.lt_succ_self
      rwa [List.getElem_range, List.getElem_range] at hpair
    · have : i + 1 = n := by omega
      rw [this]
      exact UInt64.lt_of_le_of_lt (hall i hi) hend
  have hfits := toNat_of_increasing hnext n le_rfl
  rw [UInt64.lt_iff_toNat_lt, toNat_amountAt, Nat.mod_eq_of_lt hfits] at hend
  exact stepsOver_iff.mpr ⟨n, hend, hfits⟩

section Fits
variable {n : Nat}

private theorem toNat_amountAt_of_fits (hfits : minLamports.toNat + n * stepLamports.toNat < 2 ^ 64)
    {i : Nat} (hi : i ≤ n) : (amountAt minLamports stepLamports i).toNat =
      minLamports.toNat + i * stepLamports.toNat := by
  have := Nat.mul_le_mul_right stepLamports.toNat hi
  rw [toNat_amountAt, Nat.mod_eq_of_lt (by omega)]

private theorem scanAmounts_range (hfits : minLamports.toNat + n * stepLamports.toNat < 2 ^ 64)
    (hover : maxLamports.toNat < minLamports.toNat + n * stepLamports.toNat)
    (hin : ∀ i < n, minLamports.toNat + i * stepLamports.toNat ≤ maxLamports.toNat) :
    ScanAmounts minLamports maxLamports stepLamports
      ((List.range n).map (amountAt minLamports stepLamports)) where
  increasing := by
    rw [List.pairwise_map]
    refine List.pairwise_lt_range.imp_of_mem ?_
    intro i j hi hj hlt
    have hjn := List.mem_range.mp hj
    rw [UInt64.lt_iff_toNat_lt, toNat_amountAt_of_fits hfits (by omega),
      toNat_amountAt_of_fits hfits hjn.le]
    have hpos : 0 < stepLamports.toNat := by
      rcases Nat.eq_zero_or_pos stepLamports.toNat with h0 | hpos
      · have := hin j hjn
        rw [h0] at this hover
        omega
      · exact hpos
    exact Nat.add_lt_add_left (Nat.mul_lt_mul_of_pos_right hlt hpos) _
  mem_iff a := by
    rw [List.mem_map, UInt64.le_iff_toNat_le]
    constructor
    · rintro ⟨i, hi, rfl⟩
      have hi := List.mem_range.mp hi
      rw [toNat_amountAt_of_fits hfits hi.le]
      exact ⟨hin i hi, i, rfl⟩
    · rintro ⟨hmax, k, hk⟩
      have hkn : k < n := by
        by_contra hge
        have := Nat.mul_le_mul_right stepLamports.toNat (Nat.not_lt.mp hge)
        omega
      refine ⟨k, List.mem_range.mpr hkn, UInt64.toNat_inj.mp ?_⟩
      exact (toNat_amountAt_of_fits hfits hkn.le).trans hk.symm

end Fits

private theorem exact_of_stepsOver (h : StepsOver minLamports maxLamports stepLamports) :
    ScanExact tokenMints minLamports maxLamports stepLamports := by
  obtain ⟨n, ⟨hover, hfits⟩, hbefore⟩ := WellFounded.has_min Nat.lt_wfRel.wf _ (stepsOver_iff.mp h)
  have hin (i : Nat) (hi : i < n) : minLamports.toNat + i * stepLamports.toNat ≤ maxLamports.toNat := by
    have := Nat.mul_le_mul_right stepLamports.toNat hi.le
    by_contra hout
    exact hbefore i ⟨Nat.lt_of_not_le hout, by omega⟩ hi
  refine ⟨_, scanAmounts_range hfits hover hin, allPairs_iff.mpr ⟨n, ?_, ?_, rfl⟩⟩
  · intro i hi
    rw [UInt64.le_iff_toNat_le, toNat_amountAt_of_fits hfits hi.le]
    exact hin i hi
  · rw [UInt64.lt_iff_toNat_lt, toNat_amountAt_of_fits hfits le_rfl]
    exact hover

private theorem exact_nil_iff :
    ScanExact [] minLamports maxLamports stepLamports ↔ WrapsOver minLamports maxLamports stepLamports := by
  rw [wrapsOver_iff]
  constructor
  · rintro ⟨amounts, _, hpairs⟩
    obtain ⟨n, _, hend, _⟩ := allPairs_iff.mp hpairs
    exact ⟨n, hend⟩
  · intro h
    obtain ⟨n, hend, hbefore⟩ := WellFounded.has_min Nat.lt_wfRel.wf _ h
    obtain ⟨amounts, hamounts⟩ := exists_scanAmounts minLamports maxLamports stepLamports
    have hnothing (as : List UInt64) : as.flatMap (pairsAt []) = [] := by
      rw [List.flatMap_eq_nil_iff]
      exact fun _ _ => rfl
    refine ⟨amounts, hamounts, allPairs_iff.mpr ⟨n, ?_, hend, ?_⟩⟩
    · intro i hi
      by_contra hout
      exact hbefore i (UInt64.not_le.mp hout) hi
    · rw [hnothing, hnothing]

/-- The enumeration ends and is exact exactly if the steps lead over the end of the
range within the 64-bit words, or there is no token and they lead past it at all. -/
theorem scanExact_iff (tokenMints : List String) (minLamports maxLamports stepLamports : UInt64) :
    ScanExact tokenMints minLamports maxLamports stepLamports ↔
      StepsOver minLamports maxLamports stepLamports ∨
        tokenMints = [] ∧ WrapsOver minLamports maxLamports stepLamports := by
  constructor
  · intro h
    rcases eq_or_ne tokenMints [] with rfl | hne
    · exact Or.inr ⟨rfl, exact_nil_iff.mp h⟩
    · exact Or.inl (stepsOver_of_exact hne h)
  · rintro (h | ⟨rfl, h⟩)
    · exact exact_of_stepsOver h
    · exact exact_nil_iff.mpr h

/-- A step of zero goes on for ever in a range that is not empty. -/
theorem not_allPairs_zero (h : minLamports ≤ maxLamports) (pairs : List (UInt64 × String × Bool)) :
    ¬ AllPairs tokenMints minLamports maxLamports 0 pairs := by
  intro hpairs
  obtain ⟨n, _, hend, _⟩ := allPairs_iff.mp hpairs
  have hstays : amountAt minLamports 0 n = minLamports := by
    rw [amountAt, UInt64.toNat_zero, Nat.mul_zero, Nat.add_zero, UInt64.ofNat_toNat]
  rw [hstays] at hend
  exact absurd h (UInt64.not_le.mpr hend)

/-- The configured range with a step that comes out as zero lamports. -/
theorem zero_step_not_exact : ¬ ScanExact ["MINT"] 1000000 50000000 0 := by
  rintro ⟨_, _, hpairs⟩
  exact not_allPairs_zero (by decide) _ hpairs

end SolanaArbBot.Arbitrage
