import Mathlib.Data.Int.GCD
import Mathlib.Data.Nat.ModEq
import Mathlib.Tactic.Common

/-! Going round a circle of N places by steps of length s. The places come to are
those of one residue class modulo the stride, the greatest common divisor. -/
namespace SolanaArbBot.Lib
variable {m s N M : Nat}

/-- The last place before the circle closes that lies in the residue class of m. -/
def lastPlace (m s N : Nat) : Nat := N - Nat.gcd s N + m % Nat.gcd s N

private theorem le_lastPlace {v : Nat} (hv : v < N) : v ≤ lastPlace v s N := by
  have hN := Nat.zero_lt_of_lt hv
  obtain ⟨n, hn⟩ := Nat.gcd_dvd_right s N
  rw [lastPlace]
  generalize Nat.gcd s N = g at hn
  subst hn
  have hq : v / g ≤ n - 1 := Nat.le_sub_one_of_lt (Nat.div_lt_of_lt_mul hv)
  have hmul := Nat.mul_le_mul_left g hq
  rw [Nat.mul_sub, Nat.mul_one] at hmul
  have hdiv := Nat.div_add_mod v g
  omega

private theorem place_mod_gcd (k : Nat) : (m + k * s) % N % Nat.gcd s N = m % Nat.gcd s N := by
  obtain ⟨c, hc⟩ := Nat.gcd_dvd_left s N
  rw [Nat.mod_mod_of_dvd _ (Nat.gcd_dvd_right s N)]
  generalize Nat.gcd s N = g at hc
  rw [hc, Nat.mul_left_comm, Nat.add_mul_mod_self_left]

private theorem exists_lastPlace (hm : m < N) : ∃ k, (m + k * s) % N = lastPlace m s N := by
  have hN := Nat.zero_lt_of_lt hm
  have hg := Nat.gcd_pos_of_pos_right s hN
  rcases Nat.lt_or_ge (Nat.gcd s N) N with hlt | hge
  · obtain ⟨j, _, hj⟩ := Nat.exists_mul_mod_eq_gcd hlt
    obtain ⟨n, hn⟩ := Nat.gcd_dvd_right s N
    rw [lastPlace]
    generalize Nat.gcd s N = g at hg hlt hj hn
    subst hn
    refine ⟨j * (n - 1 - m / g), ?_⟩
    have hunit : s * j ≡ g [MOD g * n] := by rw [Nat.ModEq, hj, Nat.mod_eq_of_lt hlt]
    have hturn : m + j * (n - 1 - m / g) * s ≡ m + g * (n - 1 - m / g) [MOD g * n] := by
      rw [Nat.mul_right_comm, Nat.mul_comm j s]
      exact (hunit.mul_right _).add_left m
    have hdiv := Nat.div_add_mod m g
    have hr := Nat.mod_lt m hg
    have hq : m / g ≤ n - 1 := Nat.le_sub_one_of_lt (Nat.div_lt_of_lt_mul hm)
    have hmul := Nat.mul_le_mul_left g hq
    rw [Nat.mul_sub, Nat.mul_one] at hmul
    have hsum : m + g * (n - 1 - m / g) = g * n - g + m % g := by
      rw [Nat.mul_sub, Nat.mul_sub, Nat.mul_one]
      omega
    rw [hturn, hsum]
    exact Nat.mod_eq_of_lt (by omega)
  · have heq : Nat.gcd s N = N := Nat.le_antisymm (Nat.gcd_le_right s hN) hge
    refine ⟨0, ?_⟩
    rw [lastPlace, heq, Nat.zero_mul, Nat.add_zero, Nat.sub_self, Nat.zero_add]

/-- Some place past M is come to exactly if the last place of the class is past M. -/
theorem exists_lt_mod_iff (hm : m < N) : (∃ k, M < (m + k * s) % N) ↔ M < lastPlace m s N := by
  constructor
  · rintro ⟨k, hk⟩
    have hle := le_lastPlace (s := s) (Nat.mod_lt (m + k * s) (Nat.zero_lt_of_lt hm))
    rw [lastPlace, place_mod_gcd] at hle
    exact hk.trans_le hle
  · intro hM
    obtain ⟨k, hk⟩ := exists_lastPlace (s := s) hm
    exact ⟨k, hk ▸ hM⟩

end SolanaArbBot.Lib
