import ChatCommands.Number.Binary64
import Mathlib.Algebra.Group.Nat.Defs

/-!
What is left of a quotient when it is rounded to a floating point number.

Rounding moves a quotient by half a step of the grid at most. Where the step is less than the
distance of any two quotients with the same divisor, the integer part stays, and only a quotient
without a rest becomes an integer.
-/

namespace ChatCommands.Binary64

theorem twoTo_eq (k : Nat) : twoTo k = 2 ^ k := rfl

/-- A rounded quotient is off by half of the divisor at most. -/
theorem roundDiv_near (num : Nat) {den : Nat} (positive : 0 < den) :
    2 * num ≤ 2 * (den * roundDiv num den) + den ∧
      2 * (den * roundDiv num den) ≤ 2 * num + den := by
  have split := Nat.div_add_mod num den
  have rest := Nat.mod_lt num positive
  have next : den * (num / den + 1) = den * (num / den) + den := Nat.mul_succ _ _
  simp only [roundDiv]
  split
  · omega
  split
  · omega
  split <;> omega

section Grid

variable {num den k : Nat} (positive : 0 < den) (fine : den < 2 * 2 ^ k)
include positive fine

/-- The point of a fine grid that is nearest to a quotient lies between the same integers. -/
theorem roundDiv_between : num / den * 2 ^ k ≤ roundDiv (num * 2 ^ k) den ∧
    roundDiv (num * 2 ^ k) den < (num / den + 1) * 2 ^ k ∧
    (roundDiv (num * 2 ^ k) den = num / den * 2 ^ k ↔ num % den = 0) := by
  obtain ⟨low, high⟩ := roundDiv_near (num * 2 ^ k) positive
  generalize roundDiv (num * 2 ^ k) den = m at low high
  have step : 0 < 2 ^ k := Nat.two_pow_pos k
  generalize 2 ^ k = p at fine low high step
  have rest : num % den < den := Nat.mod_lt num positive
  have split : num * p = den * (num / den * p) + num % den * p := by
    rw [← Nat.mul_assoc, ← Nat.add_mul, Nat.div_add_mod]
  have least : num % den * p + p ≤ den * p := by
    rw [← Nat.succ_mul]
    exact Nat.mul_le_mul_right p rest
  rw [Nat.add_mul, Nat.one_mul]
  generalize num / den * p = floor at split ⊢
  rw [split] at low high
  have scaled {a b : Nat} (order : a ≤ b) : den * a ≤ den * b := Nat.mul_le_mul_left den order
  have low' : floor ≤ m := by
    refine Nat.le_of_not_lt fun below => ?_
    have := scaled below
    rw [Nat.mul_succ] at this
    omega
  refine ⟨low', Nat.lt_of_not_le fun above => ?_, ?_, fun none => ?_⟩
  · have := scaled above
    rw [Nat.mul_add] at this
    omega
  · rintro rfl
    refine Nat.eq_zero_of_not_pos fun some => ?_
    have := Nat.mul_le_mul_right p some
    omega
  · rw [none, Nat.zero_mul, Nat.add_zero] at high
    refine Nat.le_antisymm (Nat.le_of_not_lt fun above => ?_) low'
    have := scaled above
    rw [Nat.mul_succ] at this
    omega

theorem roundDiv_parts : roundDiv (num * 2 ^ k) den / 2 ^ k = num / den ∧
    (roundDiv (num * 2 ^ k) den % 2 ^ k = 0 ↔ num % den = 0) := by
  obtain ⟨low, high, whole⟩ := roundDiv_between positive fine
  have quotient : roundDiv (num * 2 ^ k) den / 2 ^ k = num / den :=
    Nat.div_eq_of_lt_le low high
  have split := Nat.div_add_mod' (roundDiv (num * 2 ^ k) den) (2 ^ k)
  rw [quotient] at split
  refine ⟨quotient, ?_⟩
  rw [← whole]
  omega

end Grid

/-- The quotient of two integers that floating point numbers show exactly, rounded: what it says of
the integer part and of the rest is right. -/
theorem ofRatio_parts {num den : Nat} (small : num < 2 ^ 53) (positive : 0 < den)
    (small' : den < 2 ^ 53) :
    ∃ mantissa k : Nat, ofRatio false num den = finite false mantissa (-(k : Int)) ∧
      mantissa / 2 ^ k = num / den ∧ (mantissa % 2 ^ k = 0 ↔ num % den = 0) := by
  by_cases some : num = 0
  · subst some
    have zero (k : Nat) : 0 / 2 ^ k = 0 / den ∧ (0 % 2 ^ k = 0 ↔ 0 % den = 0) := by
      simp
    exact ⟨0, (-minExponent).toNat, if_pos rfl, zero _⟩
  have high : num.log2 < 53 := (Nat.log2_lt some).mpr small
  have high' : den.log2 < 53 := (Nat.log2_lt (by omega)).mpr small'
  rw [ofRatio, if_neg some]
  extract_lets scale reached exact exponent mantissa
  -- The step of the grid is a power of two with an exponent from 0 to 106 places below the point.
  obtain ⟨k, place, long, short⟩ :
      ∃ k : Nat, exponent = -(k : Int) ∧ den.log2 ≤ k ∧ k ≤ 106 := by
    have near : scale - 53 ≤ exact ∧ exact ≤ scale - 52 := by
      simp only [exact]
      split <;> omega
    have usual : exponent = exact := by
      simp only [exponent]
      exact if_neg (by simp only [minExponent]; omega)
    exact ⟨(-exponent).toNat, by omega, by omega, by omega⟩
  have fine : den < 2 * 2 ^ k := by
    calc den < 2 ^ (den.log2 + 1) := Nat.lt_log2_self
      _ ≤ 2 ^ (k + 1) := Nat.pow_le_pow_right (by decide) (by omega)
      _ = 2 * 2 ^ k := by rw [Nat.pow_succ, Nat.mul_comm]
  have rounded : mantissa = roundDiv (num * 2 ^ k) den := by
    simp only [mantissa, place]
    split
    · obtain rfl : k = 0 := by omega
      simp [twoTo]
    · rw [show (-(-(k : Int))).toNat = k by omega, twoTo_eq]
  have parts : mantissa / 2 ^ k = num / den ∧ (mantissa % 2 ^ k = 0 ↔ num % den = 0) :=
    rounded ▸ roundDiv_parts positive fine
  split
  -- A mantissa of one bit too many is halved, and the step of the grid doubled.
  · rename_i full
    have double : mantissa = 2 * twoTo (mantissaBits - 1) := full
    have room : k ≠ 0 := by
      rintro rfl
      have least : num / den ≤ num := Nat.div_le_self num den
      rw [Nat.pow_zero, Nat.div_one] at parts
      have same : twoTo mantissaBits = 2 ^ 53 := rfl
      omega
    obtain ⟨j, rfl⟩ := Nat.exists_eq_succ_of_ne_zero room
    rw [double, Nat.pow_succ', Nat.mul_div_mul_left _ _ Nat.two_pos, Nat.mul_mod_mul_left] at parts
    refine ⟨twoTo (mantissaBits - 1), j, ?_, parts.1, ?_⟩
    · rw [place, bounded, if_neg (by simp only [maxExponent]; omega)]
      congr 1
      omega
    · rw [← parts.2]
      omega
  · refine ⟨mantissa, k, ?_, parts⟩
    rw [place, bounded, if_neg (by simp only [maxExponent]; omega)]

theorem truncate_finite (mantissa k : Nat) :
    (finite false mantissa (-(k : Int))).truncate? = some (mantissa / 2 ^ k : Nat) := by
  rw [truncate?]
  split
  · obtain rfl : k = 0 := by omega
    simp [signed, twoTo]
  · rw [Int.neg_neg, Int.toNat_natCast, twoTo_eq]
    rfl

theorem isInteger_finite (mantissa k : Nat) :
    (finite false mantissa (-(k : Int))).isInteger = (mantissa % 2 ^ k == 0) := by
  rw [isInteger, Int.neg_neg, Int.toNat_natCast, twoTo_eq]
  by_cases whole : k = 0
  · subst whole
    simp [Nat.mod_one]
  · rw [decide_eq_false (by omega), Bool.false_or]

end ChatCommands.Binary64
