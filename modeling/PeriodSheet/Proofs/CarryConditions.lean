import PeriodSheet.Proofs.NumberFormat
import PeriodSheet.Proofs.Recompute

/-!
# Carry conditions and rounding

A rule judges its condition on the number as it is, and writes the number as its format rounds it.
Rounding keeps the sign of a number or makes the number zero, and it makes it zero exactly below
half a unit of the last digit that is written (`NumberFormat.round_cases`).  So what a rule writes
satisfies the condition as well, except for the zero that a smaller number comes to
(`CarryRule.apply_holds_iff`).
-/

namespace PeriodSheet

/-! ### Conditions -/

namespace CarryCondition

/-- The values that a condition admits. -/
def Admits : CarryCondition → ℚ → Prop
  | .always, _ => True
  | .ifPositive, x => 0 < x
  | .ifNegative, x => x < 0
  | .ifNonZero, x => x ≠ 0

/-- A condition looks at the value of a number alone. -/
theorem holds_iff (condition : CarryCondition) (d : Decimal) :
    condition.holds d = true ↔ condition.Admits d.value := by
  cases condition with
  | always => exact iff_of_true rfl trivial
  | ifPositive => exact d.value_pos_iff.symm
  | ifNegative => exact d.value_neg_iff.symm
  | ifNonZero => simp [holds, Admits, d.value_eq_zero_iff]

end CarryCondition

/-! ### Rounding to zero -/

/-- A quotient rounds to zero below one half. -/
theorem roundDiv_awayFromZero_eq_zero_iff (num : Nat) {den : Nat} (h : 0 < den) :
    roundDiv .awayFromZero num den = 0 ↔ 2 * num < den := by
  have hle : num % den ≤ num := Nat.mod_le num den
  unfold roundDiv
  dsimp only
  split
  · rename_i hbelow
    rw [Nat.div_eq_zero_iff_lt h]
    refine ⟨fun hlt => ?_, fun hlt => by omega⟩
    rwa [Nat.mod_eq_of_lt hlt] at hbelow
  · -- from one half on the result is one more than the quotient
    rename_i habove
    refine iff_of_false ?_ (by omega)
    split <;> exact Nat.succ_ne_zero _

namespace NumberFormat

variable (format : NumberFormat) (d : Decimal)

/-- Half a unit of the last fraction digit that a format writes. -/
def halfUnit : ℚ :=
  1 / (2 * tenPow format.fractionDigits : Nat)

theorem abs_value_lt_halfUnit_iff :
    |d.value| < format.halfUnit ↔
      d.coefficient * (2 * tenPow format.fractionDigits) < tenPow d.scale := by
  have hscale : (0 : ℚ) < (tenPow d.scale : Nat) := by exact_mod_cast Nat.pow_pos (by decide)
  have hdigits : (0 : ℚ) < (2 * tenPow format.fractionDigits : Nat) := by
    exact_mod_cast Nat.mul_pos (by decide) (Nat.pow_pos (by decide))
  rw [d.abs_value, halfUnit, div_lt_div_iff₀ hscale hdigits, one_mul]
  exact_mod_cast Iff.rfl

theorem isZero_roundTo_iff :
    (d.roundTo format.fractionDigits).isZero = true ↔ |d.value| < format.halfUnit := by
  have hdigits : 0 < tenPow format.fractionDigits := Nat.pow_pos (by decide)
  rw [format.abs_value_lt_halfUnit_iff, Decimal.isZero, beq_iff_eq, Decimal.roundTo]
  split
  · -- all digits are kept, and a number of so few digits is zero or not below one unit
    rename_i hle
    have hpow : tenPow d.scale ≤ tenPow format.fractionDigits :=
      Nat.pow_le_pow_right (by decide) hle
    constructor
    · intro hzero
      rw [hzero, Nat.zero_mul]
      exact Nat.pow_pos (by decide)
    · intro hlt
      by_contra hne
      have hge := Nat.mul_le_mul_right (2 * tenPow format.fractionDigits)
        (Nat.one_le_iff_ne_zero.2 hne)
      omega
  · rename_i hmore
    have hscale : tenPow d.scale =
        tenPow (d.scale - format.fractionDigits) * tenPow format.fractionDigits := by
      rw [← Decimal.tenPow_add]
      congr 1
      omega
    calc roundDiv .awayFromZero d.coefficient (tenPow (d.scale - format.fractionDigits)) = 0
        ↔ 2 * d.coefficient < tenPow (d.scale - format.fractionDigits) :=
          roundDiv_awayFromZero_eq_zero_iff _ (Nat.pow_pos (by decide))
      _ ↔ 2 * d.coefficient * tenPow format.fractionDigits < tenPow d.scale := by
          rw [hscale, Nat.mul_lt_mul_right hdigits]
      _ ↔ d.coefficient * (2 * tenPow format.fractionDigits) < tenPow d.scale := by
          rw [Nat.mul_comm 2, Nat.mul_assoc]

/-- **Rounding makes a number zero below half a unit, and keeps its sign from there on.** -/
theorem round_cases :
    |d.value| < format.halfUnit ∧ format.round d = .zero ∨
      format.halfUnit ≤ |d.value| ∧ (format.round d).isZero = false ∧
        (format.round d).negative = d.negative := by
  have hsign : (d.roundTo format.fractionDigits).negative = d.negative := by
    unfold Decimal.roundTo
    split <;> rfl
  have hzero := format.isZero_roundTo_iff d
  unfold round
  dsimp only
  split
  · rename_i hrounded
    exact .inl ⟨hzero.1 hrounded, rfl⟩
  · rename_i hrounded
    exact .inr ⟨not_lt.1 fun hlt => hrounded (hzero.2 hlt), Bool.eq_false_iff.2 hrounded, hsign⟩

end NumberFormat

/-- A condition that holds of a number holds of the rounded one, unless that is zero for being less
than half a unit. -/
theorem CarryCondition.holds_round_iff {condition : CarryCondition} (format : NumberFormat)
    {d : Decimal} (h : condition.holds d = true) :
    condition.holds (format.round d) = true ↔
      condition = .always ∨ format.halfUnit ≤ |d.value| := by
  rcases format.round_cases d with ⟨hlt, hround⟩ | ⟨hle, hnonzero, hsign⟩
  · rw [hround, or_iff_left (not_le.2 hlt)]
    cases condition <;> decide
  · -- the sign and being zero are all that a condition looks at
    refine iff_of_true ?_ (.inr hle)
    cases condition with
    | always => rfl
    | ifPositive =>
      rw [holds, Decimal.isPositive, Bool.and_eq_true] at h
      rw [holds, Decimal.isPositive, hnonzero, hsign, h.2]
      rfl
    | ifNegative =>
      rw [holds, Decimal.isNegative, Bool.and_eq_true] at h
      rw [holds, Decimal.isNegative, hnonzero, hsign, h.2]
      rfl
    | ifNonZero => rw [holds, hnonzero]; rfl

/-! ### What a rule writes -/

namespace CarryRule

/-- What a rule writes is the value of its origin, of which its condition holds. -/
theorem holds_of_apply {rule : CarryRule} {format : NumberFormat} {value : Decimal}
    {current : Option String} {text : String}
    (h : rule.apply format value current = some text) :
    rule.condition.holds value = true ∧ text = format.formatPlain value := by
  unfold apply at h
  split at h
  · cases h
  · rename_i hfires
    simp only [Bool.or_eq_true, Bool.not_eq_true', not_or, Bool.not_eq_false] at hfires
    dsimp only at h
    split at h
    · cases h
    · exact ⟨hfires.2, (Option.some.inj h).symm⟩

/-- **What a rule writes satisfies its condition, up to rounding.**  With a comma or a point for the
decimal mark, take a text that a rule writes for the value of its origin.

* The condition holds of that value.
* The text is read as a number, which is the value as the format rounds it.
* The condition holds of that number as well where the rule always carries, or where the value is
  not less than half a unit of the last digit.
* The number is zero exactly where the value is less than that, so that a rule with a condition
  never writes a number of the other sign. -/
theorem apply_holds_iff (rule : CarryRule) (format : NumberFormat) (value : Decimal)
    (current : Option String) (text : String)
    (hmark : format.separator = ',' ∨ format.separator = '.')
    (h : rule.apply format value current = some text) :
    rule.condition.holds value = true ∧
    ∃ written, Decimal.ofEntered? text = some written ∧
      written.value = (format.round value).value ∧
      (rule.condition.holds written = true ↔
        rule.condition = .always ∨ format.halfUnit ≤ |value.value|) ∧
      (written.isZero = true ↔ |value.value| < format.halfUnit) := by
  have hmark' : Decimal.isMark format.separator = true := Decimal.isMark_iff.2 hmark
  obtain ⟨hholds, rfl⟩ := holds_of_apply h
  have hvalue := Decimal.value_normalize (format.round value)
  refine ⟨hholds, (format.round value).normalize,
    NumberFormat.ofEntered?_formatPlain hmark' value, hvalue, ?_, ?_⟩
  · -- fraction zeros do not matter to a condition
    rw [CarryCondition.holds_iff, hvalue, ← CarryCondition.holds_iff]
    exact CarryCondition.holds_round_iff format hholds
  · rw [Decimal.isZero_normalize]
    rcases format.round_cases value with ⟨hlt, hround⟩ | ⟨hle, hnonzero, -⟩
    · exact iff_of_true (hround ▸ rfl) hlt
    · exact iff_of_false (by simp [hnonzero]) (not_lt.2 hle)

/-- Half a cent is written as one, which is positive as well. -/
theorem apply_holds_iff_half_cent :
    let halfCent : Decimal := ⟨false, 5, 3, by decide, by decide⟩
    Credits.creditRule.apply .standard halfCent none = some "0,01" ∧
      ∃ written, Decimal.ofEntered? "0,01" = some written ∧
        Credits.creditRule.condition.holds written = true := by
  intro halfCent
  have happly : Credits.creditRule.apply .standard halfCent none = some "0,01" := by
    decide +kernel
  have hhalf : NumberFormat.standard.halfUnit ≤ |halfCent.value| := by
    rw [← not_lt, NumberFormat.abs_value_lt_halfUnit_iff]
    decide
  obtain ⟨-, written, hread, -, hholds, -⟩ :=
    apply_holds_iff Credits.creditRule .standard halfCent none "0,01" (.inl rfl) happly
  exact ⟨happly, written, hread, hholds.2 (.inr hhalf)⟩

/-- **A positive value may be written as zero.**  A tenth of a cent is carried where the condition
asks for a positive value, and is written as a zero, of which the condition does not hold. -/
theorem apply_writes_zero :
    let tenthCent : Decimal := ⟨false, 1, 3, by decide, by decide⟩
    Credits.creditRule.condition = .ifPositive ∧
      Credits.creditRule.apply .standard tenthCent none = some "0" ∧
      Decimal.ofEntered? "0" = some .zero ∧
      Credits.creditRule.condition.holds .zero = false := by
  refine ⟨rfl, ?_, ?_, rfl⟩
  · decide +kernel
  · decide +kernel

end CarryRule

end PeriodSheet
