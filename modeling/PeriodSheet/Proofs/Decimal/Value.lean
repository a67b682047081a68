import Mathlib.Algebra.Order.Field.Basic
import Mathlib.Algebra.Order.Field.Rat
import Mathlib.Tactic.FieldSimp
import Mathlib.Tactic.Ring
import PeriodSheet.Value

/-!
# The value of a decimal

The rational number that a decimal stands for.  One number has several decimals, which differ in the
fraction zeros at their end (`Decimal.Extends`); dropping the zeros keeps the value, and so does
reading a decimal as a whole number where it is one.
-/

namespace PeriodSheet.Decimal

/-- The rational number that a decimal stands for. -/
def value (d : Decimal) : ℚ :=
  d.signed / (tenPow d.scale : Nat)

theorem cast_tenPow_ne_zero (n : Nat) : ((tenPow n : Nat) : ℚ) ≠ 0 := by
  have hpos : 0 < tenPow n := Nat.pow_pos (by decide)
  exact_mod_cast hpos.ne'

theorem tenPow_add (m n : Nat) : tenPow (m + n) = tenPow m * tenPow n :=
  Nat.pow_add 10 m n

theorem tenPow_succ (n : Nat) : tenPow (n + 1) = tenPow n * 10 :=
  rfl

/-- A decimal extends another where it has so many more fraction zeros; zero may lose its sign. -/
structure Extends (short long : Decimal) (zeros : Nat) : Prop where
  coefficient : long.coefficient = short.coefficient * tenPow zeros
  scale : long.scale = short.scale + zeros
  negative : short.coefficient ≠ 0 → long.negative = short.negative

theorem Extends.signed {short long : Decimal} {zeros : Nat} (h : Extends short long zeros) :
    long.signed = short.signed * (tenPow zeros : Nat) := by
  unfold Decimal.signed
  by_cases hzero : short.coefficient = 0
  · simp [h.coefficient, hzero]
  · rw [h.negative hzero, h.coefficient]
    split <;> simp

theorem Extends.value_eq {short long : Decimal} {zeros : Nat} (h : Extends short long zeros) :
    long.value = short.value := by
  have hzeros := cast_tenPow_ne_zero zeros
  have hscale := cast_tenPow_ne_zero short.scale
  rw [value, value, h.signed, h.scale, tenPow_add]
  push_cast
  field_simp

/-- Without any more zeros it is the same number, where a zero has no sign. -/
theorem Extends.eq_of_sign {short long : Decimal} (h : Extends short long 0)
    (hlong : long.isZero = true → long.negative = false)
    (hshort : short.isZero = true → short.negative = false) : long = short := by
  have hcoefficient : long.coefficient = short.coefficient := by simpa [tenPow] using h.coefficient
  have hscale : long.scale = short.scale := h.scale
  have hnegative : long.negative = short.negative := by
    by_cases hzero : short.coefficient = 0
    · rw [hlong (by simp [isZero, hcoefficient, hzero]), hshort (by simp [isZero, hzero])]
    · exact h.negative hzero
  cases long
  cases short
  simp_all

/-- What is left without trailing zeros is the coefficient divided by a power of ten. -/
theorem exists_dropZeros (c s : Nat) :
    ∃ zeros, c = (dropZeros c s).1 * tenPow zeros ∧ s = (dropZeros c s).2 + zeros := by
  fun_induction dropZeros c s with
  | case1 c => exact ⟨0, by simp [tenPow], rfl⟩
  | case2 c s h ih =>
    obtain ⟨zeros, hc, hs⟩ := ih
    refine ⟨zeros + 1, ?_, by omega⟩
    rw [tenPow_succ, ← Nat.mul_assoc, ← hc]
    omega
  | case3 c s h => exact ⟨0, by simp [tenPow], rfl⟩

theorem dropZeros_dropZeros (c s : Nat) :
    dropZeros (dropZeros c s).1 (dropZeros c s).2 = dropZeros c s := by
  fun_induction dropZeros c s with
  | case1 c => rfl
  | case2 c s h ih => exact ih
  | case3 c s h => rw [dropZeros, if_neg h]

theorem normalize_of_isZero {d : Decimal} (h : d.isZero = true) : d.normalize = zero := by
  rw [normalize, if_pos h]

theorem scale_normalize_le (d : Decimal) : d.normalize.scale ≤ d.scale := by
  unfold normalize
  split
  · exact Nat.zero_le _
  · exact dropZeros_snd_le _ _

theorem exists_extends_normalize (d : Decimal) (h : d.isZero = false) :
    ∃ zeros, Extends d.normalize d zeros := by
  obtain ⟨zeros, hc, hs⟩ := exists_dropZeros d.coefficient d.scale
  refine ⟨zeros, ?_⟩
  unfold normalize
  rw [if_neg (by simp [h])]
  exact ⟨hc, hs, fun _ => rfl⟩

theorem isZero_normalize (d : Decimal) : d.normalize.isZero = true ↔ d.isZero = true := by
  cases h : d.isZero with
  | true => simp [normalize_of_isZero h, isZero, zero]
  | false =>
    obtain ⟨zeros, hextends⟩ := exists_extends_normalize d h
    have hne : d.coefficient ≠ 0 := by simpa [isZero] using h
    simp only [isZero, beq_iff_eq, Bool.false_eq_true, iff_false]
    intro hzero
    rw [hextends.coefficient, hzero, Nat.zero_mul] at hne
    exact hne rfl

theorem normalize_normalize (d : Decimal) : d.normalize.normalize = d.normalize := by
  cases h : d.isZero with
  | true =>
    rw [normalize_of_isZero h]
    exact normalize_of_isZero rfl
  | false =>
    have hnonzero : d.normalize.isZero = false := by
      rw [Bool.eq_false_iff, ne_eq, isZero_normalize, h]
      decide
    have hself : d.normalize = ⟨d.negative, (dropZeros d.coefficient d.scale).1,
        (dropZeros d.coefficient d.scale).2, _, _⟩ := if_neg (by simp [h])
    rw [normalize, if_neg (by simp [hnonzero])]
    simp only [hself, dropZeros_dropZeros]

@[simp]
theorem value_zero : zero.value = 0 := by
  simp [value, signed, zero]

theorem value_eq_zero_of_isZero {d : Decimal} (h : d.isZero = true) : d.value = 0 := by
  have hc : d.coefficient = 0 := by simpa [isZero] using h
  simp [value, signed, hc]

theorem value_normalize (d : Decimal) : d.normalize.value = d.value := by
  cases h : d.isZero with
  | true =>
    rw [value_eq_zero_of_isZero h, normalize, if_pos h, value_zero]
  | false =>
    obtain ⟨zeros, hextends⟩ := exists_extends_normalize d h
    exact hextends.value_eq.symm

/-! ### Signs -/

theorem value_pos_iff (d : Decimal) : 0 < d.value ↔ d.isPositive = true := by
  have hpos : (0 : ℚ) < (tenPow d.scale : Nat) := by exact_mod_cast Nat.pow_pos (by decide)
  rw [value, lt_div_iff₀ hpos, zero_mul, Int.cast_pos, isPositive, isZero, signed]
  cases d.negative <;> simp [Nat.pos_iff_ne_zero]

theorem value_neg_iff (d : Decimal) : d.value < 0 ↔ d.isNegative = true := by
  have hpos : (0 : ℚ) < (tenPow d.scale : Nat) := by exact_mod_cast Nat.pow_pos (by decide)
  rw [value, div_lt_iff₀ hpos, zero_mul, Int.cast_lt_zero, isNegative, isZero, signed]
  cases d.negative <;> simp [Nat.pos_iff_ne_zero]

theorem value_eq_zero_iff (d : Decimal) : d.value = 0 ↔ d.isZero = true := by
  rw [value, div_eq_zero_iff, or_iff_left (cast_tenPow_ne_zero d.scale), Int.cast_eq_zero, isZero,
    signed]
  cases d.negative <;> simp

theorem abs_value (d : Decimal) : |d.value| = d.coefficient / (tenPow d.scale : Nat) := by
  rw [value, abs_div, Nat.abs_cast, signed]
  cases d.negative <;> simp

/-- Of two decimals of one value, the one with more fraction digits extends the other. -/
theorem extends_of_value_eq {short long : Decimal} (h : short.value = long.value)
    (hle : short.scale ≤ long.scale) : short.Extends long (long.scale - short.scale) where
  coefficient := by
    have habs := congrArg abs h
    rw [abs_value, abs_value,
      div_eq_div_iff (cast_tenPow_ne_zero _) (cast_tenPow_ne_zero _)] at habs
    have hcross : short.coefficient * tenPow long.scale =
        long.coefficient * tenPow short.scale := by
      exact_mod_cast habs
    have hscale : tenPow long.scale = tenPow (long.scale - short.scale) * tenPow short.scale := by
      rw [← tenPow_add, Nat.sub_add_cancel hle]
    rw [hscale, ← Nat.mul_assoc] at hcross
    exact (Nat.eq_of_mul_eq_mul_right (Nat.pow_pos (by decide)) hcross).symm
  scale := (Nat.add_sub_cancel' hle).symm
  negative hne := by
    have hshort := short.value_neg_iff
    have hlong := long.value_neg_iff
    have hzero : long.isZero = short.isZero := by
      rw [Bool.eq_iff_iff, ← value_eq_zero_iff, ← value_eq_zero_iff, h]
    have hnonzero : short.isZero = false := by simpa [isZero] using hne
    rw [isNegative, hnonzero] at hshort
    rw [← h, isNegative, hzero, hnonzero, hshort] at hlong
    simpa using (Bool.eq_iff_iff.2 hlong).symm

/-! ### Whole numbers -/

theorem toInt64?_eq_some {d : Decimal} {n : Int} :
    d.toInt64? = some n ↔ d.value = n ∧ -(twoPow 63 : Int) ≤ n ∧ n < twoPow 63 := by
  have hpos : (0 : Int) < tenPow d.scale := by exact_mod_cast Nat.pow_pos (by decide)
  have hvalue : d.value = n ↔ d.signed = n * tenPow d.scale := by
    rw [value, div_eq_iff (cast_tenPow_ne_zero d.scale)]
    exact_mod_cast Iff.rfl
  unfold toInt64?
  rw [hvalue]
  dsimp only
  constructor
  · intro h
    split at h
    · rename_i hwhole
      obtain rfl := Option.some.inj h
      exact ⟨(Int.ediv_mul_cancel (Int.dvd_of_emod_eq_zero hwhole.1)).symm, hwhole.2⟩
    · cases h
  · rintro ⟨hsigned, hbounds⟩
    have hquotient : d.signed / tenPow d.scale = n := by
      rw [hsigned, Int.mul_ediv_cancel _ hpos.ne']
    have hrest : d.signed % tenPow d.scale = 0 := by
      rw [hsigned, Int.mul_emod_left]
    rw [hquotient, if_pos ⟨hrest, hbounds⟩]

end PeriodSheet.Decimal
