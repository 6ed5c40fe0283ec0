import Mathlib.Data.Nat.ModEq
import SolanaArbBot.TemplateCache.Signature

/-! The two halves of a signature. The passes differ in the seed alone, and what
the seeds have in common the halves keep for every plan. -/
namespace SolanaArbBot.TemplateCache

def upperHalf (routePlan : Value) : Nat := (routeSig routePlan).toNat / 2 ^ 64

def lowerHalf (routePlan : Value) : Nat := (routeSig routePlan).toNat % 2 ^ 64

/-- The low bits of the lower half are not determined by those of the upper half. -/
def Independent (k : Nat) : Prop :=
  ∃ p q, upperHalf p ≡ upperHalf q [MOD 2 ^ k] ∧ ¬ lowerHalf p ≡ lowerHalf q [MOD 2 ^ k]

def upperSeed : UInt64 := 0xcbf2_9ce4_8422_2325

def lowerSeed : UInt64 := 0x517c_c1b7_2722_0a95

theorem toNat_routeSig (p : Value) :
    (routeSig p).toNat = 2 ^ 64 * (fnv1a64 p upperSeed).toNat + (fnv1a64 p lowerSeed).toNat := by
  have h1 := (fnv1a64 p upperSeed).toNat_lt
  have h2 := (fnv1a64 p lowerSeed).toNat_lt
  have hsig : (routeSig p).toNat =
      ((fnv1a64 p upperSeed).toNat % 2 ^ 128) <<< 64 % 2 ^ 128 |||
        (fnv1a64 p lowerSeed).toNat % 2 ^ 128 := by
    rw [routeSig, BitVec.toNat_or, BitVec.toNat_shiftLeft, BitVec.toNat_ofNat, BitVec.toNat_ofNat]
    rfl
  rw [hsig, Nat.mod_eq_of_lt (by omega : (fnv1a64 p upperSeed).toNat < 2 ^ 128),
    Nat.mod_eq_of_lt (by omega : (fnv1a64 p lowerSeed).toNat < 2 ^ 128), Nat.mod_eq_of_lt,
    ← Nat.shiftLeft_add_eq_or_of_lt h2, Nat.shiftLeft_eq, Nat.mul_comm]
  rw [Nat.shiftLeft_eq]
  omega

theorem upperHalf_eq (p : Value) : upperHalf p = (fnv1a64 p upperSeed).toNat := by
  rw [upperHalf, toNat_routeSig, Nat.mul_add_div (by decide),
    Nat.div_eq_of_lt (fnv1a64 p lowerSeed).toNat_lt, Nat.add_zero]

theorem lowerHalf_eq (p : Value) : lowerHalf p = (fnv1a64 p lowerSeed).toNat := by
  rw [lowerHalf, toNat_routeSig, Nat.mul_add_mod, Nat.mod_eq_of_lt (fnv1a64 p lowerSeed).toNat_lt]

/-! The five lowest bits. -/

def low5 (h : UInt64) : BitVec 5 := h.toBitVec.setWidth 5

private theorem low5_mix (h : UInt64) (byte : UInt8) :
    low5 ((h ^^^ byte.toUInt64) * 0x0000_0001_0000_01b3) = (low5 h ^^^ low5 byte.toUInt64) * 19 := by
  rw [low5, UInt64.toBitVec_mul, BitVec.setWidth_mul _ _ (by decide), UInt64.toBitVec_xor,
    BitVec.setWidth_xor]
  rfl

private theorem flip_mul : ∀ x : BitVec 5, (x ^^^ 16) * 19 = x * 19 ^^^ 16 := by decide

/-- Hashes that differ in the fifth bit alone still do after any bytes. -/
private theorem low5_feed {h h' : UInt64} (heq : low5 h' = low5 h ^^^ 16) (bytes : List UInt8) :
    low5 (feed h' bytes) = low5 (feed h bytes) ^^^ 16 := by
  induction bytes generalizing h h' with
  | nil => exact heq
  | cons byte bytes ih =>
    apply ih
    rw [low5_mix, low5_mix, heq, BitVec.xor_assoc, BitVec.xor_comm 16, ← BitVec.xor_assoc, flip_mul]

/-- Of every plan the halves agree in the four lowest bits and differ in the next. -/
theorem low5_halves (p : Value) :
    low5 (fnv1a64 p lowerSeed) = low5 (fnv1a64 p upperSeed) ^^^ 16 := by
  rw [fnv1a64_eq_feed, fnv1a64_eq_feed]
  exact low5_feed (by decide) _

private theorem lowerHalf_mod {k : Nat} (hk : k ≤ 5) (p : Value) :
    lowerHalf p % 2 ^ k = upperHalf p % 2 ^ k ^^^ 16 % 2 ^ k := by
  have h := congrArg BitVec.toNat (low5_halves p)
  rw [BitVec.toNat_xor, low5, low5, BitVec.toNat_setWidth, BitVec.toNat_setWidth] at h
  have hdvd : 2 ^ k ∣ 2 ^ 5 := Nat.pow_dvd_pow 2 hk
  rw [lowerHalf_eq, upperHalf_eq, ← Nat.mod_mod_of_dvd _ hdvd, ← Nat.xor_mod_two_pow]
  rw [← Nat.mod_mod_of_dvd (_ ^^^ _) hdvd, Nat.xor_mod_two_pow]
  exact congrArg (· % 2 ^ k) h

/-! The sixth bit. -/

def poolPlan (pool : String) : Value :=
  .array [.object [("swapInfo", .object [("ammKey", .string pool)])]]

/-- Two pools whose plans collide in the whole upper half, but not in the lower one. -/
private theorem halves_collide :
    upperHalf (poolPlan "BVWHaAE8h") = upperHalf (poolPlan "SxomS5n85") ∧
      ¬ lowerHalf (poolPlan "BVWHaAE8h") ≡ lowerHalf (poolPlan "SxomS5n85") [MOD 2 ^ 6] := by
  simp only [upperHalf_eq, lowerHalf_eq]
  decide

/-- The low bits of the lower half are free of those of the upper half from the sixth on. -/
theorem independent_iff (k : Nat) : Independent k ↔ 6 ≤ k := by
  constructor
  · rintro ⟨p, q, hupper, hlower⟩
    by_contra hk
    apply hlower
    rw [Nat.ModEq, lowerHalf_mod (by omega), lowerHalf_mod (by omega)]
    exact congrArg (· ^^^ _) hupper
  · intro hk
    obtain ⟨hupper, hlower⟩ := halves_collide
    refine ⟨_, _, congrArg (· % 2 ^ k) hupper, ?_⟩
    exact fun h => hlower (h.of_dvd (Nat.pow_dvd_pow 2 hk))

/-- The parity of one half is the parity of the other. -/
theorem not_independent_one : ¬ Independent 1 := by
  rintro ⟨p, q, hupper, hlower⟩
  apply hlower
  rw [Nat.ModEq, lowerHalf_mod (by decide), lowerHalf_mod (by decide)]
  exact congrArg (· ^^^ _) hupper

end SolanaArbBot.TemplateCache
