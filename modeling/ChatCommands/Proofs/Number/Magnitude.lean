import ChatCommands.Number.Binary64
import ChatCommands.Proofs.Text.Decimal

/-!
How large a floating point number can be: the integer part of one that is read has far fewer digits
than an integer may have, and an integer that is half a step above the largest number is too large.
-/

namespace ChatCommands

namespace Binary64

/-- Numbers whose mantissa and exponent are as rounding leaves them. -/
def Moderate : Binary64 → Prop
  | finite _ mantissa exponent => mantissa ≤ 2 ^ 54 ∧ exponent ≤ maxExponent
  | _ => True

theorem moderate_zero (negative : Bool) : (zero negative).Moderate :=
  ⟨Nat.zero_le _, by decide⟩

theorem moderate_bounded {negative : Bool} {mantissa : Nat} {exponent : Int}
    (h : mantissa ≤ 2 ^ 54) : (bounded negative mantissa exponent).Moderate := by
  unfold bounded
  split
  · trivial
  · exact ⟨h, by omega⟩

theorem roundDiv_le (num den : Nat) : roundDiv num den ≤ num / den + 1 := by
  simp only [roundDiv]
  split
  · omega
  split
  · omega
  split <;> omega

/-- A quotient scaled down to 53 bits has no more than one bit more. -/
theorem roundDiv_scaled (num : Nat) {den : Nat} (positive : 0 < den) (up down : Nat)
    (fits : num.log2 + up ≤ den.log2 + down + 53) :
    roundDiv (num * 2 ^ up) (den * 2 ^ down) ≤ 2 ^ 54 := by
  have large : num * 2 ^ up < 2 ^ 54 * (den * 2 ^ down) := by
    calc num * 2 ^ up < 2 ^ (num.log2 + 1) * 2 ^ up :=
          Nat.mul_lt_mul_of_pos_right Nat.lt_log2_self (Nat.two_pow_pos up)
      _ = 2 ^ (num.log2 + 1 + up) := (Nat.pow_add ..).symm
      _ ≤ 2 ^ (54 + (den.log2 + down)) := Nat.pow_le_pow_right (by decide) (by omega)
      _ = 2 ^ 54 * (2 ^ den.log2 * 2 ^ down) := by rw [Nat.pow_add, Nat.pow_add]
      _ ≤ 2 ^ 54 * (den * 2 ^ down) :=
          Nat.mul_le_mul_left _ (Nat.mul_le_mul_right _ (Nat.log2_self_le (by omega)))
  have quotient : num * 2 ^ up / (den * 2 ^ down) < 2 ^ 54 :=
    (Nat.div_lt_iff_lt_mul (Nat.mul_pos positive (Nat.two_pow_pos down))).mpr large
  have rounded := roundDiv_le (num * 2 ^ up) (den * 2 ^ down)
  omega

theorem mantissa_le {num den : Nat} (positive : 0 < den) {exponent : Int}
    (fits : (num.log2 : Int) - den.log2 - 53 ≤ exponent) :
    (if 0 ≤ exponent then roundDiv num (den * twoTo exponent.toNat)
      else roundDiv (num * twoTo (-exponent).toNat) den) ≤ 2 ^ 54 := by
  split
  · have scaled := roundDiv_scaled num positive 0 exponent.toNat (by omega)
    rwa [Nat.pow_zero, Nat.mul_one] at scaled
  · have scaled := roundDiv_scaled num positive (-exponent).toNat 0 (by omega)
    rwa [Nat.pow_zero, Nat.mul_one] at scaled

theorem moderate_ofRatio (negative : Bool) (num : Nat) {den : Nat} (positive : 0 < den) :
    (ofRatio negative num den).Moderate := by
  unfold ofRatio
  split
  · exact moderate_zero negative
  · extract_lets scale reached exact exponent mantissa
    -- The exponent is the difference of the logarithms less 52 or 53, or the least there is.
    have enough : scale - 53 ≤ exponent := by
      have : scale - 53 ≤ exact := by
        simp only [exact]
        split <;> omega
      simp only [exponent]
      split <;> omega
    split
    · exact moderate_bounded (by decide)
    · exact moderate_bounded (mantissa_le positive enough)

theorem moderate_ofDecimal (negative : Bool) (digits : Nat) (power : Int) :
    (ofDecimal negative digits power).Moderate := by
  unfold ofDecimal
  split
  · exact moderate_zero negative
  split
  · trivial
  split
  · exact moderate_zero negative
  split
  · exact moderate_ofRatio _ _ Nat.one_pos
  · exact moderate_ofRatio _ _ (Nat.pow_pos (by decide))

end Binary64

namespace Numeral

theorem short_iff (n : Int) : Short n ↔ n.natAbs < 10 ^ maxDigits :=
  Nat.length_toDigits_le_iff (by decide) (by decide)

theorem ofDigits_lt {digits : List Nat} (ten : ∀ d ∈ digits, d < 10) :
    ofDigits digits < 10 ^ digits.length := by
  have more (n : Nat) : digits.foldl (fun n d => 10 * n + d) n < 10 ^ digits.length * (n + 1) := by
    induction digits generalizing n with
    | nil => simp
    | cons d rest ih =>
      obtain ⟨here, later⟩ := List.forall_mem_cons.mp ten
      calc (d :: rest).foldl (fun n d => 10 * n + d) n
          < 10 ^ rest.length * (10 * n + d + 1) := ih later (10 * n + d)
        _ ≤ 10 ^ rest.length * (10 * (n + 1)) := Nat.mul_le_mul_left _ (by omega)
        _ = 10 ^ (d :: rest).length * (n + 1) := by
            rw [List.length_cons, Nat.pow_succ, Nat.mul_assoc]
  simpa [ofDigits] using more 0

theorem short_of_digits {digits : List Nat} (ten : ∀ d ∈ digits, d < 10)
    (few : digits.length ≤ maxDigits) {n : Int} (value : n.natAbs = ofDigits digits) : Short n := by
  rw [short_iff, value]
  exact Nat.lt_of_lt_of_le (ofDigits_lt ten) (Nat.pow_le_pow_right (by decide) few)

theorem digitRun_lt (inside : Bool) (t : Text) : ∀ d ∈ (digitRun inside t).1, d < 10 := by
  fun_induction digitRun inside t with
  | case1 => exact fun _ none => nomatch none
  | case2 c rest d value digits after run ih =>
    rw [run] at ih
    exact List.forall_mem_cons.mpr ⟨Text.digitValue_lt value, ih⟩
  | case3 => exact fun _ none => nomatch none
  | case4 inside c rest notMark d value digits after run ih =>
    rw [run] at ih
    exact List.forall_mem_cons.mpr ⟨Text.digitValue_lt value, ih⟩
  | case5 => exact fun _ none => nomatch none

/-- An integer that is read from a text is short. -/
theorem short_readInt {t : Text} {n : Int} (h : readInt t = some n) : Short n := by
  simp only [readInt] at h
  have ten := digitRun_lt false (sign (trim t)).2
  split at h
  · cases h
  · rename_i digits run
    rw [run] at ten
    split at h
    · rename_i few
      cases h
      exact short_of_digits ten few (by split <;> simp)
    · cases h
  · cases h

end Numeral

namespace Binary64

theorem natAbs_signed (negative : Bool) (n : Nat) : (signed negative n).natAbs = n := by
  unfold signed
  split <;> simp

theorem twoTo_mul_lt {a b : Nat} (h : a + b < Numeral.maxDigits) :
    2 ^ a * 2 ^ b < 10 ^ Numeral.maxDigits := by
  rw [← Nat.pow_add]
  exact Nat.lt_of_le_of_lt (Nat.pow_le_pow_left (by decide) _)
    (Nat.pow_lt_pow_right (by decide) h)

/-- The integer part of a number that is not infinite is short. -/
theorem short_truncate {x : Binary64} (h : x.Moderate) {n : Int} (whole : x.truncate? = some n) :
    Numeral.Short n := by
  rw [Numeral.short_iff]
  cases x with
  | infinite s => cases whole
  | nan => cases whole
  | finite s mantissa exponent =>
    obtain ⟨small, low⟩ := h
    simp only [truncate?] at whole
    split at whole
    · cases whole
      have fits : 54 + exponent.toNat < Numeral.maxDigits := by
        simp only [maxExponent, Numeral.maxDigits] at low ⊢
        omega
      rw [natAbs_signed]
      exact Nat.lt_of_le_of_lt (Nat.mul_le_mul_right _ small) (twoTo_mul_lt fits)
    · cases whole
      rw [natAbs_signed]
      calc mantissa / twoTo (-exponent).toNat ≤ mantissa := Nat.div_le_self ..
        _ ≤ 2 ^ 54 * 2 ^ 0 := by rwa [Nat.pow_zero, Nat.mul_one]
        _ < 10 ^ Numeral.maxDigits := twoTo_mul_lt (by decide)

end Binary64

end ChatCommands
