import Mathlib.Tactic.Ring
import Respace.Number.Binary64

/-! Whole numbers as floating-point numbers. A whole number has its significand of 53 bits at the exponent
    that its highest bit tells, and is past all finite numbers from half a unit below the power of two that
    would follow the greatest of them. -/

namespace Respace.Number

/-- An even number is what a smaller quotient is rounded to just when it is at most half a unit away. -/
theorem roundDiv_eq_even_iff {n d k : Nat} (hk : k % 2 = 0) (hn : n < k * d) :
    roundDiv n d = k ↔ 2 * (k * d) ≤ 2 * n + d := by
  have hd : 0 < d := Nat.pos_of_ne_zero fun h => by simp [h] at hn
  have hdiv : n / d < k := Nat.div_lt_of_lt_mul (by rwa [Nat.mul_comm])
  have hsplit : d * (n / d) + n % d = n := Nat.div_add_mod n d
  obtain ⟨j, hj⟩ : ∃ j, k = n / d + 1 + j := ⟨k - (n / d + 1), by omega⟩
  have hkd : k * d = d * (n / d) + d + j * d := by rw [hj]; ring
  have hjd : j ≠ 0 → d ≤ j * d := fun h => Nat.le_mul_of_pos_left d (Nat.pos_of_ne_zero h)
  have hr : n % d < d := Nat.mod_lt n hd
  simp only [roundDiv]
  by_cases hj0 : j = 0
  · -- the number is the next one above the quotient, which is odd
    subst hj0
    rw [Nat.zero_mul] at hkd
    split
    · omega
    · split <;> omega
  · have := hjd hj0
    split
    · omega
    · split <;> omega

namespace Binary64

/-- Half a unit, `2 ^ 970`, below the power of two that follows the greatest finite number. -/
def overflow : Nat := (2 ^ 54 - 1) * 2 ^ 970

theorem one_lt_overflow : 1 < overflow := by decide +kernel

/-- The exponent of a whole number is that of its highest bit, 52 bits down. -/
theorem unitExponent_one {n : Nat} (hn : n ≠ 0) : unitExponent n 1 = (n.log2 : Int) - 52 := by
  have hlow : 2 ^ n.log2 ≤ n := Nat.log2_self_le hn
  have hone : Nat.log2 1 = 0 := by decide
  have hunits : ¬ (inUnits n 1 ((n.log2 : Int) - 52)).1 / (inUnits n 1 ((n.log2 : Int) - 52)).2 <
      2 ^ 52 := by
    rw [inUnits, Nat.not_lt]
    split
    · next he =>
      obtain ⟨k, hk⟩ : ∃ k, n.log2 = 52 + k := ⟨n.log2 - 52, by omega⟩
      have hexp : ((n.log2 : Int) - 52).toNat = k := by omega
      simp only [hexp, Nat.one_mul, Nat.pow_eq]
      rw [Nat.le_div_iff_mul_le (Nat.two_pow_pos k)]
      calc 2 ^ 52 * 2 ^ k = 2 ^ n.log2 := by rw [hk, Nat.pow_add]
        _ ≤ n := hlow
    · next he =>
      have hexp : n.log2 + (-((n.log2 : Int) - 52)).toNat = 52 := by omega
      simp only [Nat.div_one, Nat.pow_eq]
      calc 2 ^ 52 = 2 ^ n.log2 * 2 ^ (-((n.log2 : Int) - 52)).toNat := by rw [← Nat.pow_add, hexp]
        _ ≤ n * 2 ^ (-((n.log2 : Int) - 52)).toNat := Nat.mul_le_mul_right _ hlow
  simp only [unitExponent, hone, Int.natCast_zero, Int.sub_zero, Nat.pow_eq]
  rw [if_neg hunits, minExponent]
  omega

/-- A whole number is past all finite numbers from half a unit below the next power of two on. -/
theorem ofRatio_eq_infinite_iff {negative : Bool} {n : Nat} :
    (∃ b, ofRatio negative n 1 = .infinite b) ↔ overflow ≤ n := by
  -- half a unit, with an exponent that is never computed with
  obtain ⟨k, hk⟩ : ∃ k, k = 970 := ⟨_, rfl⟩
  have hunit : 0 < 2 ^ k := Nat.two_pow_pos k
  rw [overflow, ← hk]
  by_cases hn : n = 0
  · subst hn
    simp only [ofRatio, if_pos, zero, reduceCtorEq, exists_false, false_iff]
    omega
  have hlow : 2 ^ n.log2 ≤ n := Nat.log2_self_le hn
  have hhigh : n < 2 ^ (n.log2 + 1) := Nat.lt_log2_self
  simp only [ofRatio, if_neg hn, unitExponent_one hn]
  rcases Nat.lt_trichotomy n.log2 1023 with hl | hl | hl
  · -- the exponent is too small, even if the significand is rounded up to the next power of two
    have hless : 2 ^ (n.log2 + 1) ≤ 2 ^ (53 + k) := Nat.pow_le_pow_right (by decide) (by omega)
    rw [Nat.pow_add 2 53] at hless
    refine iff_of_false ?_ (by omega)
    split <;> rw [if_neg] <;> simp [maxExponent] <;> omega
  · -- the exponent is the greatest, and the significand may be rounded up
    have hexp : n.log2 + 1 = 54 + k ∧ ((n.log2 : Int) - 52).toNat = 1 + k := by omega
    have hunits : inUnits n 1 ((n.log2 : Int) - 52) = (n, 2 ^ 1 * 2 ^ k) := by
      rw [inUnits, if_pos (by omega), hexp.2, Nat.one_mul, Nat.pow_eq, Nat.pow_add]
    rw [hexp.1, Nat.pow_add] at hhigh
    have hround : roundDiv n (2 ^ 1 * 2 ^ k) = 2 ^ 53 ↔ _ :=
      roundDiv_eq_even_iff (by decide) (by omega)
    simp only [hunits, Nat.pow_eq]
    by_cases hup : roundDiv n (2 ^ 1 * 2 ^ k) = 2 ^ 53
    · have := hround.1 hup
      rw [if_pos hup, if_pos (by rw [maxExponent]; omega)]
      exact iff_of_true ⟨_, rfl⟩ (by omega)
    · have := mt hround.2 hup
      rw [if_neg hup, if_neg (by rw [maxExponent]; omega)]
      exact iff_of_false (by simp) (by omega)
  · have hmore : 2 ^ (54 + k) ≤ 2 ^ n.log2 := Nat.pow_le_pow_right (by decide) (by omega)
    rw [Nat.pow_add 2 54] at hmore
    refine iff_of_true ?_ (by omega)
    split <;> exact ⟨_, if_pos (by rw [maxExponent]; omega)⟩

end Binary64

end Respace.Number
