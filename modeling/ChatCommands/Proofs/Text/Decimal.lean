import ChatCommands.Proofs.Expr.Digits
import Mathlib.Algebra.Group.Nat.Defs

/-!
Numbers written in digits, and read back.

A number is written without zeros in front, or padded with them to a width. Both say the number
again when the digits are read, and four digits in base sixteen are four digits whatever they say.
-/

namespace ChatCommands

namespace Text

theorem digitValue_of_isDigit {c : Char} (digit : c.isDigit = true) :
    digitValue c = some (c.toNat - '0'.toNat) := by
  have bounds := Char.isDigit_iff_toNat.mp digit
  have low : 0x30 ≤ c.toNat := bounds.1
  have high : c.toNat < 0x30 + 10 := Nat.lt_succ_of_le bounds.2
  simp [digitValue, digitZeros, low, high]

theorem isDigit_of_mem_ofNat {n : Nat} {c : Char} (h : c ∈ ofNat n) : c.isDigit = true :=
  Nat.isDigit_of_mem_toDigits (by decide) (by decide) h

theorem ofNat_ne_nil (n : Nat) : ofNat n ≠ [] :=
  Nat.toDigits_ne_nil

theorem digits_ofNat (n : Nat) : (ofNat n).Digits :=
  ⟨ofNat_ne_nil n, fun _ h => by
    rw [isDigit, digitValue_of_isDigit (isDigit_of_mem_ofNat h)]
    rfl⟩

/-- Only zero is written with a zero in front. -/
theorem head_ofNat {n : Nat} (positive : 0 < n) : (ofNat n).head? ≠ some '0' := by
  induction n using Nat.strongRecOn with
  | ind n ih =>
    unfold ofNat
    rw [Nat.toDigits_eq_if (by decide)]
    split
    · rename_i small
      have digit : ∀ d < 10, 0 < d → Nat.digitChar d ≠ '0' := by decide
      simpa using digit n small positive
    · have shorter := ih (n / 10) (by omega) (by omega)
      unfold ofNat at shorter
      cases h : Nat.toDigits 10 (n / 10) with
      | nil => exact absurd h Nat.toDigits_ne_nil
      | cons c ds => simpa [h] using shorter

theorem ofInt_of_nonneg {n : Int} (h : 0 ≤ n) : ofInt n = ofNat n.natAbs := by
  cases n with
  | ofNat m => rfl
  | negSucc m => exact absurd h (by simp)

theorem ofInt_of_neg {n : Int} (h : n < 0) : ofInt n = '-' :: ofNat n.natAbs := by
  cases n with
  | ofNat m => exact absurd h (by simp)
  | negSucc m => rfl

theorem ofNat_injective {m n : Nat} (h : ofNat m = ofNat n) : m = n := by
  have same := congrArg (Nat.ofDigitChars 10 · 0) h
  simpa [ofNat] using same

theorem ofInt_injective {m n : Int} (h : ofInt m = ofInt n) : m = n := by
  have noDash (k : Nat) (t : Text) : ofNat k ≠ '-' :: t := by
    intro same
    have := isDigit_of_mem_ofNat (n := k) (c := '-') (same ▸ List.mem_cons_self)
    cases this
  rcases Int.lt_or_le m 0 with hm | hm <;> rcases Int.lt_or_le n 0 with hn | hn
  · rw [ofInt_of_neg hm, ofInt_of_neg hn] at h
    have := ofNat_injective (List.cons.inj h).2
    omega
  · rw [ofInt_of_neg hm, ofInt_of_nonneg hn] at h
    exact absurd h.symm (noDash _ _)
  · rw [ofInt_of_nonneg hm, ofInt_of_neg hn] at h
    exact absurd h (noDash _ _)
  · rw [ofInt_of_nonneg hm, ofInt_of_nonneg hn] at h
    have := ofNat_injective h
    omega

/-! ### Padding with zeros -/

theorem isDigit_of_mem_padded {width n : Nat} {c : Char} (h : c ∈ padded width n) :
    c.isDigit = true := by
  rcases List.mem_append.mp h with zero | digit
  · rw [List.eq_of_mem_replicate zero]
    decide
  · exact isDigit_of_mem_ofNat digit

theorem length_padded {width n : Nat} (fits : n < 10 ^ (width + 1)) :
    (padded (width + 1) n).length = width + 1 := by
  have short : (ofNat n).length ≤ width + 1 :=
    (Nat.length_toDigits_le_iff (by decide) (Nat.succ_pos _)).mpr fits
  simp only [padded, List.length_append, List.length_replicate]
  omega

theorem ofDigitChars_padded (width n : Nat) : Nat.ofDigitChars 10 (padded width n) 0 = n := by
  simp [padded, Nat.ofDigitChars_append, ofNat]

/-! ### Base sixteen -/

theorem hex_four {n : Nat} (h : n < 0x10000) :
    hex 4 n = [Nat.digitChar (n / 4096), Nat.digitChar (n / 256 % 16),
      Nat.digitChar (n / 16 % 16), Nat.digitChar (n % 16)] := by
  have one (m : Nat) (hm : m < 16) : Nat.toDigits 16 m = [Nat.digitChar m] :=
    Nat.toDigits_of_lt_base hm
  have more (m : Nat) (hm : 16 ≤ m) :
      Nat.toDigits 16 m = Nat.toDigits 16 (m / 16) ++ [Nat.digitChar (m % 16)] :=
    Nat.toDigits_of_base_le (by decide) hm
  have zero : Nat.digitChar 0 = '0' := rfl
  have d256 : n / 16 / 16 = n / 256 := Nat.div_div_eq_div_mul ..
  have d4096 : n / 16 / 16 / 16 = n / 4096 := by simp only [Nat.div_div_eq_div_mul]
  unfold hex
  by_cases h1 : n < 16
  · have e1 : n / 16 = 0 := by omega
    have e2 : n / 256 = 0 := by omega
    have e3 : n / 4096 = 0 := by omega
    simp [one n h1, e1, e2, e3, Nat.mod_eq_of_lt h1, zero, List.replicate]
  by_cases h2 : n < 256
  · have e2 : n / 256 = 0 := by omega
    have e3 : n / 4096 = 0 := by omega
    simp [more n (by omega), one (n / 16) (by omega), e2, e3,
      Nat.mod_eq_of_lt (show n / 16 < 16 by omega), zero, List.replicate]
  by_cases h3 : n < 4096
  · have e3 : n / 4096 = 0 := by omega
    simp [more n (by omega), more (n / 16) (by omega), d256, one (n / 256) (by omega), e3,
      Nat.mod_eq_of_lt (show n / 256 < 16 by omega), zero]
  · simp [more n (by omega), more (n / 16) (by omega), d256, more (n / 256) (by omega),
      Nat.div_div_eq_div_mul, one (n / 4096) (by omega)]

end Text

namespace Numeral

open Text

/-- Whether an integer has no more digits than are read. -/
def Short (n : Int) : Prop :=
  (ofNat n.natAbs).length ≤ maxDigits

instance (n : Int) : Decidable (Short n) :=
  inferInstanceAs (Decidable (_ ≤ _))

theorem ofDigits_map_ofNat (n : Nat) :
    ofDigits ((ofNat n).map fun c => c.toNat - '0'.toNat) = n := by
  rw [ofDigits, List.foldl_map]
  exact Nat.ofDigitChars_ten_toDigits

theorem digitRun_ascii {t : Text} (digits : ∀ c ∈ t, c.isDigit = true) (inside : Bool) :
    digitRun inside t = (t.map fun c => c.toNat - '0'.toNat, []) := by
  induction t generalizing inside with
  | nil => rfl
  | cons c t ih =>
    obtain ⟨digit, others⟩ := List.forall_mem_cons.mp digits
    unfold digitRun
    split
    · rename_i same
      cases same
    · rename_i same
      obtain ⟨rfl, _⟩ := List.cons.inj same
      cases digit
    · rename_i same
      obtain ⟨rfl, rfl⟩ := List.cons.inj same
      simp [digitValue_of_isDigit digit, ih others]

theorem readInt_signed {t : Text} {negative : Bool} {n : Nat}
    (visible : ∀ c ∈ t, isBlank c = false) (signed : sign t = (negative, ofNat n)) :
    readInt t =
      if (ofNat n).length ≤ maxDigits then some (if negative then -(n : Int) else n) else none := by
  have value := ofDigits_map_ofNat n
  have length : ((ofNat n).map fun c => c.toNat - '0'.toNat).length = (ofNat n).length :=
    List.length_map _
  rw [readInt, trim_eq_self visible, signed]
  simp only [digitRun_ascii (fun c h => isDigit_of_mem_ofNat h) false]
  split
  · rename_i none
    have := congrArg (fun r => r.1.length) none
    simp [ofNat_ne_nil] at this
  · rename_i digits same
    obtain ⟨rfl, -⟩ := Prod.mk.inj same
    rw [value, length]
  · rename_i other
    exact absurd rfl (other _)

/-- The numeral of an integer is read as the integer, unless it has too many digits. -/
theorem readInt_ofInt (n : Int) : readInt (ofInt n) = if Short n then some n else none := by
  have visible : ∀ c ∈ ofNat n.natAbs, isBlank c = false :=
    fun c h => isBlank_of_isDigit ((digits_ofNat _).2 c h)
  rcases Int.lt_or_le n 0 with negative | positive
  · have signed : sign ('-' :: ofNat n.natAbs) = (true, ofNat n.natAbs) := rfl
    rw [ofInt_of_neg negative,
      readInt_signed (List.forall_mem_cons.mpr ⟨by decide, visible⟩) signed]
    have abs : -(n.natAbs : Int) = n := by omega
    rw [if_pos rfl, abs]
    rfl
  · have signed : sign (ofNat n.natAbs) = (false, ofNat n.natAbs) := by
      cases h : ofNat n.natAbs with
      | nil => exact absurd h (ofNat_ne_nil _)
      | cons c rest => exact sign_eq_self ((digits_ofNat n.natAbs).2 c (h ▸ List.mem_cons_self))
    rw [ofInt_of_nonneg positive, readInt_signed visible signed]
    have abs : (n.natAbs : Int) = n := by omega
    rw [if_neg Bool.false_ne_true, abs]
    rfl

end Numeral

end ChatCommands
