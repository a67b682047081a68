import PeriodSheet.Proofs.Decimal.Arithmetic
import PeriodSheet.Proofs.Decimal.Reading
import PeriodSheet.Rule.Colour

/-!
# Comparisons of texts

A colour rule compares two texts as numbers where both are numbers, and else without the white space
around them.  Both ways are one: what a text counts as depends on that text alone (`Comparand`), and
a comparison holds where it relates what the two texts count as (`Comparison.holds_iff`).  So the
laws of an equality and an order carry over to texts (`Comparison.holds_coherent`).
-/

namespace PeriodSheet

open Text

/-! ### Decimals by value -/

namespace Decimal

theorem signedAt_div (d : Decimal) {scale : Nat} (h : d.scale ≤ scale) :
    (d.signedAt scale : ℚ) / (tenPow scale : Nat) = d.value :=
  d.scaled.mantissaAt_div h

/-- Decimals are compared by their values, whatever their scales are. -/
theorem compare_eq (a b : Decimal) : a.compare b = Ord.compare a.value b.value := by
  have hpos : (0 : ℚ) < (tenPow (max a.scale b.scale) : Nat) := by
    exact_mod_cast Nat.pow_pos (by decide)
  rw [compare, ← a.signedAt_div (Nat.le_max_left _ _), ← b.signedAt_div (Nat.le_max_right _ _)]
  generalize a.signedAt _ = x
  generalize b.signedAt _ = y
  rcases lt_trichotomy x y with hlt | rfl | hgt
  · have hdiv := div_lt_div_of_pos_right (Int.cast_lt.2 hlt) hpos
    rw [compare_lt_iff_lt.2 hlt, compare_lt_iff_lt.2 hdiv]
  · rw [compare_eq_iff_eq.2 rfl, compare_eq_iff_eq.2 rfl]
  · have hdiv := div_lt_div_of_pos_right (Int.cast_lt.2 hgt) hpos
    rw [compare_gt_iff_gt.2 hgt, compare_gt_iff_gt.2 hdiv]

end Decimal

/-! ### What is compared -/

/-- What a text counts as where it is compared: the value of the number that it is, or else the text
without the white space around it. -/
inductive Comparand where
  | number (value : ℚ)
  | text (trimmed : String)

/-- What a text counts as. -/
def Comparand.ofText (s : String) : Comparand :=
  match Decimal.ofEntered? s with
  | some d => .number d.value
  | none => .text (trim s)

namespace Comparison

/-- Whether a comparison relates what two texts count as: only numbers are in an order. -/
def Relates : Comparison → Comparand → Comparand → Prop
  | .eq, a, b => a = b
  | .ne, a, b => a ≠ b
  | .lt, .number x, .number y => x < y
  | .le, .number x, .number y => x ≤ y
  | .gt, .number x, .number y => y < x
  | .ge, .number x, .number y => y ≤ x
  | _, _, _ => False

theorem accepts_compare_iff (comparison : Comparison) (x y : ℚ) :
    comparison.accepts (Ord.compare x y) = true ↔ comparison.Relates (.number x) (.number y) := by
  cases comparison with
  | eq => simp [accepts, Relates]
  | ne => simp [accepts, Relates]
  | lt => simp [accepts, Relates, compare_lt_iff_lt]
  | le => simp [accepts, Relates, compare_gt_iff_gt]
  | gt => simp [accepts, Relates, compare_gt_iff_gt]
  | ge => simp [accepts, Relates, compare_lt_iff_lt]

variable {a b c : String}

/-- A number and a text that is none differ without the white space around them as well. -/
theorem trim_ne_of_ofEntered?_ne (h : Decimal.ofEntered? a ≠ Decimal.ofEntered? b) :
    trim a ≠ trim b := by
  intro heq
  rw [← Decimal.ofEntered?_trim a, ← Decimal.ofEntered?_trim b, heq] at h
  exact h rfl

/-- **A comparison goes by what the texts count as.** -/
theorem holds_iff (comparison : Comparison) (a b : String) :
    comparison.holds a b = true ↔ comparison.Relates (.ofText a) (.ofText b) := by
  unfold holds Comparand.ofText
  cases ha : Decimal.ofEntered? a with
  | some x =>
    cases hb : Decimal.ofEntered? b with
    | some y => simp only [Decimal.compare_eq, accepts_compare_iff]
    | none =>
      have hne : trim a ≠ trim b := trim_ne_of_ofEntered?_ne (by simp [ha, hb])
      cases comparison <;> simp [Relates, hne]
  | none =>
    cases hb : Decimal.ofEntered? b with
    | some y =>
      have hne : trim a ≠ trim b := trim_ne_of_ofEntered?_ne (by simp [ha, hb])
      cases comparison <;> simp [Relates, hne]
    | none => cases comparison <;> simp [Relates]

/-! ### The laws -/

theorem equivalence_holds_eq : Equivalence fun a b => Comparison.eq.holds a b = true where
  refl a := (holds_iff .eq a a).2 rfl
  symm h := (holds_iff .eq _ _).2 ((holds_iff .eq _ _).1 h).symm
  trans h h' := (holds_iff .eq _ _).2 (((holds_iff .eq _ _).1 h).trans ((holds_iff .eq _ _).1 h'))

theorem holds_ne (a b : String) : Comparison.ne.holds a b = !Comparison.eq.holds a b := by
  rw [Bool.eq_iff_iff, Bool.not_eq_true', Bool.eq_false_iff, ne_eq, holds_iff, holds_iff]
  rfl

theorem relates_lt_iff {x y : Comparand} :
    Comparison.lt.Relates x y ↔ ∃ p q, x = .number p ∧ y = .number q ∧ p < q := by
  cases x with
  | number p => cases y <;> simp [Relates]
  | text s => cases y <;> simp [Relates]

theorem holds_lt_irrefl (a : String) : Comparison.lt.holds a a = false := by
  rw [Bool.eq_false_iff, ne_eq, holds_iff, relates_lt_iff]
  rintro ⟨p, q, hp, hq, hlt⟩
  obtain rfl := Comparand.number.inj (hp.symm.trans hq)
  exact lt_irrefl p hlt

theorem holds_lt_trans (hab : Comparison.lt.holds a b = true)
    (hbc : Comparison.lt.holds b c = true) : Comparison.lt.holds a c = true := by
  rw [holds_iff, relates_lt_iff] at hab hbc ⊢
  obtain ⟨p, q, hp, hq, hpq⟩ := hab
  obtain ⟨q', r, hq', hr, hqr⟩ := hbc
  obtain rfl := Comparand.number.inj (hq.symm.trans hq')
  exact ⟨p, r, hp, hr, hpq.trans hqr⟩

theorem holds_gt (a b : String) : Comparison.gt.holds a b = Comparison.lt.holds b a := by
  rw [Bool.eq_iff_iff, holds_iff, holds_iff]
  cases Comparand.ofText a <;> cases Comparand.ofText b <;> rfl

/-- Equal texts are compared alike. -/
theorem holds_congr (h : Comparison.eq.holds a b = true) (comparison : Comparison) (c : String) :
    comparison.holds a c = comparison.holds b c ∧ comparison.holds c a = comparison.holds c b := by
  have hsame : Comparand.ofText a = Comparand.ofText b := (holds_iff .eq a b).1 h
  constructor
  · rw [Bool.eq_iff_iff, holds_iff, holds_iff, hsame]
  · rw [Bool.eq_iff_iff, holds_iff, holds_iff, hsame]

/-- Two numbers are in exactly one of three relations. -/
theorem existsUnique_relates (p q : ℚ) :
    ∃! comparison, comparison ∈ [Comparison.lt, .eq, .gt] ∧
      comparison.Relates (.number p) (.number q) := by
  have hunique : ∀ {best : Comparison}, best ∈ [Comparison.lt, .eq, .gt] →
      best.Relates (.number p) (.number q) → ∀ other, other ∈ [Comparison.lt, .eq, .gt] ∧
        other.Relates (.number p) (.number q) → other = best := by
    rintro best hbest hholds other ⟨hmem, hother⟩
    cases best <;> cases other <;> grind [Relates]
  rcases lt_trichotomy p q with hlt | heq | hgt
  · exact ⟨.lt, ⟨by simp, hlt⟩, hunique (by simp) hlt⟩
  · exact ⟨.eq, ⟨by simp, congrArg _ heq⟩, hunique (by simp) (congrArg _ heq)⟩
  · exact ⟨.gt, ⟨by simp, hgt⟩, hunique (by simp) hgt⟩

theorem ofText_of_isSome (h : (Decimal.ofEntered? a).isSome = true) :
    ∃ p, Comparand.ofText a = .number p := by
  obtain ⟨d, hd⟩ := Option.isSome_iff_exists.1 h
  exact ⟨d.value, by rw [Comparand.ofText, hd]⟩

/-- **Comparisons of texts are coherent.**

* A comparison holds where it relates what the texts count as: numbers by their values, and other
  texts without the white space around them.
* Equality is an equivalence relation, and `!=` is its negation.
* The order is irreflexive and transitive, and `>` is its converse.
* Two texts that are numbers are in exactly one of the relations `<`, `=` and `>`; and `<=` and `>=`
  hold of them where one of the two relations does that they are named for.
* Equal texts are compared alike with every text, on either side, in every way. -/
theorem holds_coherent :
    (∀ (comparison : Comparison) a b,
      comparison.holds a b = true ↔ comparison.Relates (.ofText a) (.ofText b)) ∧
    (Equivalence fun a b => Comparison.eq.holds a b = true) ∧
    (∀ a b, Comparison.ne.holds a b = !Comparison.eq.holds a b) ∧
    (∀ a, Comparison.lt.holds a a = false) ∧
    (∀ a b c, Comparison.lt.holds a b = true → Comparison.lt.holds b c = true →
      Comparison.lt.holds a c = true) ∧
    (∀ a b, Comparison.gt.holds a b = Comparison.lt.holds b a) ∧
    (∀ a b, (Decimal.ofEntered? a).isSome = true → (Decimal.ofEntered? b).isSome = true →
      (∃! comparison, comparison ∈ [Comparison.lt, .eq, .gt] ∧ comparison.holds a b = true) ∧
      Comparison.le.holds a b = (Comparison.lt.holds a b || Comparison.eq.holds a b) ∧
      Comparison.ge.holds a b = (Comparison.gt.holds a b || Comparison.eq.holds a b)) ∧
    ∀ a b, Comparison.eq.holds a b = true → ∀ (comparison : Comparison) c,
      comparison.holds a c = comparison.holds b c ∧
        comparison.holds c a = comparison.holds c b := by
  refine ⟨holds_iff, equivalence_holds_eq, holds_ne, holds_lt_irrefl, fun _ _ _ => holds_lt_trans,
    holds_gt, fun a b ha hb => ?_, fun _ _ => holds_congr⟩
  obtain ⟨p, hp⟩ := ofText_of_isSome ha
  obtain ⟨q, hq⟩ := ofText_of_isSome hb
  refine ⟨?_, ?_, ?_⟩
  · simp only [holds_iff, hp, hq]
    exact existsUnique_relates p q
  · rw [Bool.eq_iff_iff, Bool.or_eq_true, holds_iff, holds_iff, holds_iff, hp, hq]
    simp only [Relates, Comparand.number.injEq, le_iff_lt_or_eq]
  · rw [Bool.eq_iff_iff, Bool.or_eq_true, holds_iff, holds_iff, holds_iff, hp, hq]
    simp only [Relates, Comparand.number.injEq, le_iff_lt_or_eq, eq_comm]

/-- One amount in two locales and scales, next to larger ones and to a text. -/
theorem holds_coherent_locales :
    Comparison.eq.holds "1.000,50" " 1000.5" = true ∧
      Comparison.lt.holds " 1000.5" "2 000" = true ∧
      Comparison.lt.holds "2 000" "1.000.000" = true ∧
      Comparison.lt.holds "1.000,50" "1.000.000" = true ∧
      Comparison.le.holds "1.000,50" "1.000.000" = true ∧
      Comparison.ne.holds "1.000,50" "paid" = Comparison.ne.holds " 1000.5" "paid" := by
  obtain ⟨-, -, -, -, htrans, -, hnumbers, hcongr⟩ := holds_coherent
  have heq : Comparison.eq.holds "1.000,50" " 1000.5" = true := by decide +kernel
  have hlow : Comparison.lt.holds " 1000.5" "2 000" = true := by decide +kernel
  have hhigh : Comparison.lt.holds "2 000" "1.000.000" = true := by decide +kernel
  have hless : Comparison.lt.holds "1.000,50" "1.000.000" = true :=
    ((hcongr _ _ heq .lt _).1).trans (htrans _ _ _ hlow hhigh)
  obtain ⟨-, hle, -⟩ := hnumbers "1.000,50" "1.000.000" (by decide +kernel) (by decide +kernel)
  refine ⟨heq, hlow, hhigh, hless, ?_, (hcongr _ _ heq .ne "paid").1⟩
  rw [hle, hless, Bool.true_or]

end Comparison

end PeriodSheet
