import Mathlib.Tactic.Linarith
import PeriodSheet.Decimal.Arithmetic
import PeriodSheet.Proofs.Decimal.Value

/-!
# Exact results

What the operations on decimals give, told from the rational numbers that they work on.  Each one
gives the exact result where that is the value of some decimal, and nothing exactly where it is not
below `Decimal.overflowBound`, half a unit above the largest coefficient (`Decimal.Gives`).  One
search for the most fraction digits that fit, `Decimal.nearest?`, is behind all of them.
-/

namespace PeriodSheet

/-! ### Quotients -/

/-- A common factor does not count. -/
theorem roundDiv_mul_right (tie : Tie) (num den : Nat) {k : Nat} (h : 0 < k) :
    roundDiv tie (num * k) (den * k) = roundDiv tie num den := by
  have hlow : 2 * (num % den * k) < den * k ↔ 2 * (num % den) < den := by
    rw [← Nat.mul_assoc, Nat.mul_lt_mul_right h]
  have hhigh : den * k < 2 * (num % den * k) ↔ den < 2 * (num % den) := by
    rw [← Nat.mul_assoc, Nat.mul_lt_mul_right h]
  simp only [roundDiv, Nat.mul_div_mul_right _ _ h, Nat.mul_mod_mul_right, hlow, hhigh]

/-- A multiple of the divisor is not rounded. -/
theorem roundDiv_mul (tie : Tie) (c : Nat) {den : Nat} (h : 0 < den) :
    roundDiv tie (c * den) den = c := by
  simp [roundDiv, Nat.mul_div_cancel c h, h]

/-- A quotient is rounded to an even number, or beyond it, from half a unit below that number on: at
the half itself, the number that is one less is odd. -/
theorem le_roundDiv_toEven_iff {n num den : Nat} (hden : 0 < den) (hpos : 0 < n)
    (heven : n % 2 = 0) : n ≤ roundDiv .toEven num den ↔ (2 * n - 1) * den ≤ 2 * num := by
  obtain ⟨k, rfl⟩ : ∃ k, n = k + 1 := ⟨n - 1, by omega⟩
  have hbound : (2 * (k + 1) - 1) * den = 2 * (den * k) + den := by
    rw [show 2 * (k + 1) - 1 = 2 * k + 1 from rfl]
    ring
  have hnum := Nat.div_add_mod num den
  have hlt := Nat.mod_lt num hden
  rw [hbound]
  unfold roundDiv
  generalize num / den = quotient at *
  generalize num % den = remainder at *
  rcases Nat.lt_trichotomy quotient k with hlow | rfl | hhigh
  · -- the quotient is more than one unit below the number
    have hle : den * (quotient + 1) ≤ den * k := Nat.mul_le_mul_left den hlow
    rw [Nat.mul_succ] at hle
    exact iff_of_false (by grind) (by omega)
  · grind
  · have hle : den * (k + 1) ≤ den * quotient := Nat.mul_le_mul_left den hhigh
    rw [Nat.mul_succ] at hle
    exact iff_of_true (by grind) (by omega)

/-! ### Numbers at a scale -/

/-- An integer with so many fraction digits, without bound on either. -/
structure Scaled where
  mantissa : Int
  scale : Nat
deriving DecidableEq

/-- A decimal as a number at a scale. -/
def Decimal.scaled (d : Decimal) : Scaled :=
  ⟨d.signed, d.scale⟩

namespace Scaled

def value (x : Scaled) : ℚ :=
  x.mantissa / (tenPow x.scale : Nat)

/-- Whether a number fits a decimal as it stands. -/
def Fits (x : Scaled) : Prop :=
  x.mantissa.natAbs < Decimal.limit ∧ x.scale ≤ Decimal.maxScale

instance (x : Scaled) : Decidable x.Fits :=
  inferInstanceAs (Decidable (_ ∧ _))

/-- The mantissa at a scale that is not below the number's own. -/
def mantissaAt (x : Scaled) (scale : Nat) : Int :=
  x.mantissa * tenPow (scale - x.scale)

/-- The sum at the larger scale of the two. -/
def add (x y : Scaled) : Scaled :=
  let scale := max x.scale y.scale
  ⟨x.mantissaAt scale + y.mantissaAt scale, scale⟩

def mul (x y : Scaled) : Scaled :=
  ⟨x.mantissa * y.mantissa, x.scale + y.scale⟩

def neg (x : Scaled) : Scaled :=
  ⟨-x.mantissa, x.scale⟩

theorem mantissaAt_div (x : Scaled) {scale : Nat} (h : x.scale ≤ scale) :
    (x.mantissaAt scale : ℚ) / (tenPow scale : Nat) = x.value := by
  have hscale := Decimal.cast_tenPow_ne_zero x.scale
  have hmore := Decimal.cast_tenPow_ne_zero (scale - x.scale)
  rw [← Nat.add_sub_cancel' h, Decimal.tenPow_add, value, mantissaAt, Nat.add_sub_cancel_left]
  push_cast
  field_simp

theorem value_add (x y : Scaled) : (x.add y).value = x.value + y.value := by
  rw [← x.mantissaAt_div (Nat.le_max_left x.scale y.scale),
    ← y.mantissaAt_div (Nat.le_max_right x.scale y.scale), ← add_div, ← Int.cast_add]
  rfl

theorem value_mul (x y : Scaled) : (x.mul y).value = x.value * y.value := by
  rw [value, mul, Decimal.tenPow_add, Int.cast_mul, Nat.cast_mul, mul_div_mul_comm]
  rfl

theorem value_neg (x : Scaled) : x.neg.value = -x.value := by
  rw [value, neg, Int.cast_neg, neg_div]
  rfl

end Scaled

theorem Decimal.value_scaled (d : Decimal) : d.scaled.value = d.value :=
  rfl

namespace Decimal

/-! ### The search for fraction digits -/

variable {num den : Nat}

/-- A quotient has no nearest decimal where even its integer does not fit. -/
theorem nearest?_eq_none_iff (negative : Bool) (hden : 0 < den) (scale : Nat)
    (h : scale ≤ maxScale) :
    nearest? negative num den scale h = none ↔ (2 * limit - 1) * den ≤ 2 * num := by
  have hfits : ∀ n : Nat, ¬ roundDiv .toEven n den < limit ↔ (2 * limit - 1) * den ≤ 2 * n :=
    fun n => Nat.not_lt.trans (le_roundDiv_toEven_iff hden (by decide) (by decide))
  induction scale with
  | zero =>
    rw [nearest?, ← hfits]
    split <;> simp [*]
  | succ scale ih =>
    have hinteger : nearest? negative num den scale (Nat.le_of_succ_le h) = none ↔
        (2 * limit - 1) * den ≤ 2 * num := ih (Nat.le_of_succ_le h)
    rw [nearest?, ← hinteger]
    split
    · -- with more digits it fits, and so the integer does
      rename_i hc
      refine iff_of_false (by simp) fun hnone => ?_
      have hmore : num ≤ num * tenPow (scale + 1) :=
        Nat.le_mul_of_pos_right num (Nat.pow_pos (by decide))
      have hlarge := hinteger.1 hnone
      exact (hfits _).2 (by omega) hc
    · rfl

/-- A quotient that has few enough digits is not rounded. -/
theorem exists_nearest? (negative : Bool) (hden : 0 < den) {c digits : Nat} (hc : c < limit)
    (hexact : num * tenPow digits = c * den) (scale : Nat) (h : scale ≤ maxScale)
    (hdigits : digits ≤ scale) :
    ∃ r, nearest? negative num den scale h = some r ∧ r.negative = negative ∧
      r.coefficient * den = num * tenPow r.scale := by
  induction scale with
  | zero =>
    obtain rfl := Nat.le_zero.1 hdigits
    have hround : roundDiv .toEven num den = c := by
      rw [← Nat.mul_one num, show 1 = tenPow 0 from rfl, hexact, roundDiv_mul _ _ hden]
    have hfit : roundDiv .toEven num den < limit := hround ▸ hc
    rw [nearest?, dif_pos hfit]
    exact ⟨_, rfl, rfl, (congrArg (· * den) hround).trans hexact.symm⟩
  | succ scale ih =>
    have hmore : num * tenPow (scale + 1) = c * tenPow (scale + 1 - digits) * den := by
      rw [← Nat.add_sub_cancel' hdigits, tenPow_add, ← Nat.mul_assoc, hexact,
        Nat.add_sub_cancel_left]
      exact Nat.mul_right_comm _ _ _
    have hround : roundDiv .toEven (num * tenPow (scale + 1)) den =
        c * tenPow (scale + 1 - digits) := by
      rw [hmore, roundDiv_mul _ _ hden]
    rw [nearest?]
    split
    · rename_i hfit
      exact ⟨_, rfl, rfl, (congrArg (· * den) hround).trans hmore.symm⟩
    · -- the number has fewer digits than there were tried
      rename_i hfit
      refine ih (Nat.le_of_succ_le h) (Nat.le_of_lt_succ (Nat.lt_of_le_of_ne hdigits ?_))
      rintro rfl
      rw [hround, Nat.sub_self] at hfit
      exact hfit (by rwa [show tenPow 0 = 1 from rfl, Nat.mul_one])

/-! ### What an operation gives -/

/-- Half a unit above the largest coefficient. -/
def overflowBound : ℚ :=
  (limit : Nat) - 1 / 2

/-- A result gives an exact number: the number itself where that is the value of a decimal, and
nothing exactly where it is too large. -/
structure Gives (result : Option Decimal) (exact : ℚ) : Prop where
  of_value : ∀ d : Decimal, d.value = exact → ∃ r, result = some r ∧ r.value = exact
  eq_none_iff : result = none ↔ overflowBound ≤ |exact|

/-- The number that a sign and a quotient stand for. -/
def quotient (negative : Bool) (num den : Nat) : ℚ :=
  (if negative then -(num : ℚ) else num) / den

theorem value_eq_quotient (d : Decimal) :
    d.value = quotient d.negative d.coefficient (tenPow d.scale) := by
  rw [value, quotient, signed]
  cases d.negative <;> simp

theorem abs_quotient (negative : Bool) (num den : Nat) :
    |quotient negative num den| = (num : ℚ) / den := by
  rw [quotient, abs_div, Nat.abs_cast]
  cases negative <;> simp

theorem quotient_eq_quotient {negative : Bool} {num' den' : Nat} (hden : 0 < den)
    (hden' : 0 < den') (h : num * den' = num' * den) :
    quotient negative num den = quotient negative num' den' := by
  have hne : (den : ℚ) ≠ 0 := by exact_mod_cast hden.ne'
  have hne' : (den' : ℚ) ≠ 0 := by exact_mod_cast hden'.ne'
  have hcross : (num : ℚ) * den' = num' * den := by exact_mod_cast h
  rw [quotient, quotient, div_eq_div_iff hne hne']
  cases negative <;> simp [hcross]

/-- **The nearest decimal gives a quotient**, if fraction digits are tried up to as many as a
decimal can have, or as many as the quotient has. -/
theorem gives_nearest? (negative : Bool) (hden : 0 < den) (scale : Nat) (h : scale ≤ maxScale)
    (hscale : scale = maxScale ∨ den = tenPow scale) :
    Gives (nearest? negative num den scale h) (quotient negative num den) where
  of_value d hd := by
    have hpow : ∀ n, 0 < tenPow n := fun n => Nat.pow_pos (by decide)
    -- the quotient as a fraction of a power of ten
    have hcross : num * tenPow d.scale = d.coefficient * den := by
      have habs := congrArg abs hd
      rw [d.abs_value, abs_quotient,
        div_eq_div_iff (cast_tenPow_ne_zero d.scale) (by exact_mod_cast hden.ne')] at habs
      exact_mod_cast habs.symm
    have hfew : ∃ c digits, c < limit ∧ num * tenPow digits = c * den ∧ digits ≤ scale := by
      rcases Nat.le_total d.scale scale with hle | hle
      · exact ⟨d.coefficient, d.scale, d.coefficient_lt, hcross, hle⟩
      · rcases hscale with rfl | rfl
        · exact ⟨d.coefficient, d.scale, d.coefficient_lt, hcross, d.scale_le⟩
        · -- the decimal has fraction zeros that the quotient can do without
          refine ⟨num, scale, Nat.lt_of_le_of_lt ?_ d.coefficient_lt, rfl, Nat.le_refl scale⟩
          refine Nat.le_of_mul_le_mul_right ?_ (hpow scale)
          calc num * tenPow scale
              ≤ num * tenPow d.scale :=
                Nat.mul_le_mul_left num (Nat.pow_le_pow_right (by decide) hle)
            _ = d.coefficient * tenPow scale := hcross
    obtain ⟨c, digits, hc, hexact, hdigits⟩ := hfew
    obtain ⟨r, hr, hnegative, hvalue⟩ := exists_nearest? negative hden hc hexact scale h hdigits
    refine ⟨r, hr, ?_⟩
    rw [value_eq_quotient, hnegative]
    exact quotient_eq_quotient (hpow r.scale) hden hvalue
  eq_none_iff := by
    have hpos : (0 : ℚ) < den := by exact_mod_cast hden
    have hlimit : ((2 * limit - 1 : Nat) : ℚ) = 2 * overflowBound := by
      rw [overflowBound, Nat.cast_sub (by decide)]
      push_cast
      ring
    rw [nearest?_eq_none_iff negative hden scale h, abs_quotient, le_div_iff₀ hpos,
      ← Nat.cast_le (α := ℚ), Nat.cast_mul, Nat.cast_mul, hlimit]
    push_cast
    constructor <;> intro h <;> linarith

/-! ### The operations -/

theorem quotient_natAbs (n : Int) (den : Nat) :
    quotient (decide (n < 0)) n.natAbs den = (n : ℚ) / den := by
  rw [quotient]
  congr 1
  have hcast : (n.natAbs : ℚ) = |(n : ℚ)| := by
    rw [← Int.cast_abs, Int.abs_eq_natAbs, Int.cast_natCast]
  by_cases hneg : n < 0
  · have hlt : (n : ℚ) < 0 := by exact_mod_cast hneg
    rw [if_pos (by simpa using hneg), hcast, abs_of_neg hlt, neg_neg]
  · have hge : (0 : ℚ) ≤ n := by exact_mod_cast Int.not_lt.1 hneg
    rw [if_neg (by simpa using hneg), hcast, abs_of_nonneg hge]

theorem gives_ofScaled? (x : Scaled) : Gives (ofScaled? x.mantissa x.scale) x.value := by
  rw [Scaled.value, ← quotient_natAbs]
  refine gives_nearest? _ (Nat.pow_pos (by decide)) _ _ ?_
  rcases Nat.le_total x.scale maxScale with hle | hle
  · exact .inr (congrArg tenPow (Nat.min_eq_left hle).symm)
  · exact .inl (Nat.min_eq_right hle)

/-- A number that fits is the value of a decimal. -/
theorem exists_of_fits {x : Scaled} (h : x.Fits) : ∃ d : Decimal, d.value = x.value := by
  refine ⟨⟨decide (x.mantissa < 0), x.mantissa.natAbs, x.scale, h.1, h.2⟩, ?_⟩
  rw [value_eq_quotient, quotient_natAbs]
  rfl

@[simp]
theorem value_neg (d : Decimal) : d.neg.value = -d.value := by
  obtain ⟨negative, coefficient, scale, hlt, hle⟩ := d
  cases negative <;> simp [value, signed, neg, neg_div]

theorem gives_add? (a b : Decimal) : Gives (a.add? b) (a.value + b.value) := by
  rw [← a.value_scaled, ← b.value_scaled, ← Scaled.value_add]
  exact gives_ofScaled? (a.scaled.add b.scaled)

theorem gives_sub? (a b : Decimal) : Gives (a.sub? b) (a.value - b.value) := by
  rw [sub_eq_add_neg, ← value_neg]
  exact gives_add? a b.neg

theorem gives_mul? (a b : Decimal) : Gives (a.mul? b) (a.value * b.value) := by
  rw [← a.value_scaled, ← b.value_scaled, ← Scaled.value_mul]
  exact gives_ofScaled? (a.scaled.mul b.scaled)

theorem gives_div? (a : Decimal) {b : Decimal} (h : b.value ≠ 0) :
    Gives (a.div? b) (a.value / b.value) := by
  have hzero : b.coefficient ≠ 0 := by simpa [b.value_eq_zero_iff, isZero] using h
  have hden : 0 < b.coefficient * tenPow a.scale :=
    Nat.mul_pos (Nat.pos_of_ne_zero hzero) (Nat.pow_pos (by decide))
  have hvalue : quotient (a.negative != b.negative) (a.coefficient * tenPow b.scale)
      (b.coefficient * tenPow a.scale) = a.value / b.value := by
    have hb : (b.coefficient : ℚ) ≠ 0 := by exact_mod_cast hzero
    have hascale := cast_tenPow_ne_zero a.scale
    have hbscale := cast_tenPow_ne_zero b.scale
    rw [quotient, value, value, signed, signed]
    push_cast
    cases a.negative <;> cases b.negative <;> simp <;> field_simp
  rw [← hvalue]
  exact gives_nearest? _ hden _ _ (.inl rfl)

/-- A sum that is the value of a decimal is not held back. -/
theorem value_saturatingAdd {a b d : Decimal} (h : d.value = a.value + b.value) :
    (a.saturatingAdd b).value = a.value + b.value := by
  obtain ⟨r, hr, hvalue⟩ := (gives_add? a b).of_value d h
  rw [saturatingAdd, hr]
  exact hvalue

end Decimal

end PeriodSheet
