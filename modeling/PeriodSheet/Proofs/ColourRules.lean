import Mathlib.Data.Prod.Lex
import PeriodSheet.Proofs.Savable
import PeriodSheet.Proofs.Recompute

/-!
# Colour rules

Which of several matching rules decides, and what the check of an activity promises of its colour
rules.

The rule that decides is split off the others: those before it give way to it, and it gives way to
none of those after it (`ColourRule.Decides`).  Among rules with ranks of their own it is the
greatest one, so that it does not matter in which order the rules are listed
(`ColourRule.cellStyle_perm`, `ColourRule.rowStyle_perm`).
-/

namespace PeriodSheet

namespace ColourRule

/-! ### The deciding rule -/

/-- What rules are chosen by: first the priority, then the identifier. -/
def rank (rule : ColourRule) : Int ×ₗ Int :=
  toLex (rule.priority, rule.id)

theorem yieldsTo_iff {a b : ColourRule} : a.yieldsTo b = true ↔ a.rank ≤ b.rank := by
  rw [rank, rank, Prod.Lex.toLex_le_toLex]
  simp [yieldsTo]

theorem not_yieldsTo_iff {a b : ColourRule} : a.yieldsTo b = false ↔ b.rank < a.rank := by
  rw [Bool.eq_false_iff, ne_eq, yieldsTo_iff, not_le]

/-- A rule decides among some where the rules before it give way to it, and it gives way to none of
the rules after it. -/
def Decides (rules : List ColourRule) (best : ColourRule) : Prop :=
  ∃ before after, rules = before ++ best :: after ∧
    (∀ other ∈ before, other.yieldsTo best = true) ∧ ∀ other ∈ after, best.yieldsTo other = false

theorem Decides.rank_le {rules : List ColourRule} {best : ColourRule} (h : Decides rules best)
    {rule : ColourRule} (hrule : rule ∈ rules) : rule.rank ≤ best.rank := by
  obtain ⟨before, after, rfl, hbefore, hafter⟩ := h
  rcases List.mem_append.1 hrule with hrule | hrule
  · exact yieldsTo_iff.1 (hbefore rule hrule)
  · rcases List.mem_cons.1 hrule with rfl | hrule
    · exact le_refl rule.rank
    · exact (not_yieldsTo_iff.1 (hafter rule hrule)).le

theorem Decides.mem {rules : List ColourRule} {best : ColourRule} (h : Decides rules best) :
    best ∈ rules := by
  obtain ⟨before, after, rfl, -, -⟩ := h
  exact List.mem_append_right before List.mem_cons_self

/-- A further rule decides where the deciding one gives way to it. -/
theorem Decides.concat {rules : List ColourRule} {best : ColourRule} (h : Decides rules best)
    (next : ColourRule) :
    Decides (rules ++ [next]) (if best.yieldsTo next then next else best) := by
  by_cases hyields : best.yieldsTo next = true
  · rw [if_pos hyields]
    have hle := yieldsTo_iff.1 hyields
    exact ⟨rules, [], rfl, fun _ hother => yieldsTo_iff.2 ((h.rank_le hother).trans hle), by simp⟩
  · rw [if_neg hyields]
    obtain ⟨before, after, rfl, hbefore, hafter⟩ := h
    refine ⟨before, after ++ [next], by simp, hbefore, fun other hother => ?_⟩
    rcases List.mem_append.1 hother with hother | hother
    · exact hafter other hother
    · rw [List.mem_singleton.1 hother]
      exact Bool.eq_false_iff.2 hyields

theorem decides_foldl (rule : ColourRule) (rest : List ColourRule) :
    Decides (rule :: rest)
      (rest.foldl (fun best next => if best.yieldsTo next then next else best) rule) := by
  induction rest using List.reverseRecOn with
  | nil => exact ⟨[], [], rfl, by simp, by simp⟩
  | append_singleton rest next ih =>
    rw [List.foldl_append]
    exact ih.concat next

/-- **The winner decides.** -/
theorem decides_of_winner? {rules : List ColourRule} {best : ColourRule}
    (h : winner? rules = some best) : Decides rules best := by
  cases rules with
  | nil => cases h
  | cons rule rest =>
    obtain rfl := Option.some.inj h
    exact decides_foldl rule rest

theorem exists_winner?_of_mem {rules : List ColourRule} {rule : ColourRule} (h : rule ∈ rules) :
    ∃ best, winner? rules = some best := by
  cases rules with
  | nil => cases h
  | cons first rest => exact ⟨_, rfl⟩

/-! ### Another order of the rules -/

section Perm

variable {rules others : List ColourRule}

/-- Among rules with ranks of their own, the same rule decides in every order. -/
theorem winner?_perm (hperm : rules.Perm others) (hranks : (rules.map rank).Nodup) :
    winner? rules = winner? others := by
  cases hwinner : winner? rules with
  | none =>
    cases rules with
    | nil => rw [← hperm.nil_eq, hwinner]
    | cons rule rest => cases hwinner
  | some best =>
    have hbest := decides_of_winner? hwinner
    obtain ⟨other, hother⟩ := exists_winner?_of_mem (hperm.subset hbest.mem)
    have hdecides := decides_of_winner? hother
    have hmem : other ∈ rules := hperm.symm.subset hdecides.mem
    -- neither of the two has a lower rank
    have hrank : best.rank = other.rank :=
      le_antisymm (hdecides.rank_le (hperm.subset hbest.mem)) (hbest.rank_le hmem)
    rw [hother, List.inj_on_of_nodup_map hranks hbest.mem hmem hrank]

theorem styleOf_filter_perm (hperm : rules.Perm others) (hranks : (rules.map rank).Nodup)
    (applies : ColourRule → Bool) :
    styleOf (rules.filter applies) = styleOf (others.filter applies) := by
  have hkept : ((rules.filter applies).map rank).Nodup :=
    hranks.sublist (List.filter_sublist.map _)
  rw [styleOf, styleOf, winner?_perm (hperm.filter applies) hkept]

theorem cellStyle_perm (hperm : rules.Perm others) (hranks : (rules.map rank).Nodup) :
    cellStyle rules = cellStyle others := by
  funext field value
  exact styleOf_filter_perm hperm hranks (appliesToCell field value)

theorem rowStyle_perm (hperm : rules.Perm others) (hranks : (rules.map rank).Nodup) :
    rowStyle rules = rowStyle others := by
  funext row
  exact styleOf_filter_perm hperm hranks (appliesToRow row)

/-- Rules with identifiers of their own have ranks of their own. -/
theorem nodup_rank (hids : (rules.map (·.id)).Nodup) : (rules.map rank).Nodup := by
  have hsecond : rules.map (·.id) = (rules.map rank).map fun r => (ofLex r).2 := by
    rw [List.map_map]
    rfl
  rw [hsecond] at hids
  exact hids.of_map _

end Perm

end ColourRule

/-! ### What the check promises -/

namespace Activity

open Text

variable {activity : Activity} {rule : ColourRule}

theorem colourCauses_of_savable (h : activity.savable = true) (hrule : rule ∈ activity.colourRules)
    {cause : IssueCause}
    (hcause : cause ∈ rule.checkTarget activity.fields ++ rule.checkComparison activity.fields) :
    cause.severity ≠ .error := by
  have hissue : (⟨"color rule " ++ ofInt rule.id, cause⟩ : Issue) ∈ activity.check := by
    have hmem : (⟨"color rule " ++ ofInt rule.id, cause⟩ : Issue) ∈
        activity.colourRules.flatMap (·.check activity.fields) :=
      List.mem_flatMap.2 ⟨rule, hrule, List.mem_map_of_mem hcause⟩
    simp only [check, List.mem_append]
    tauto
  exact severity_of_savable h hissue

/-- **The ordering rules of a savable activity compare with numbers.**  The value of the rule is a
number, and the field that it names is calculated or numeric. -/
theorem ordering_of_savable (h : activity.savable = true) (hrule : rule ∈ activity.colourRules)
    (hordering : rule.comparison.isOrdering = true) :
    (∃ bound, Decimal.ofEntered? rule.value = some bound) ∧
      ∀ name ∈ rule.field, ∃ field, activity.field? name = some field ∧
        (field.isCalculated = true ∨ field.dataType.isNumeric = true) := by
  have hcauses : ∀ cause ∈ rule.checkTarget activity.fields ++
      rule.checkComparison activity.fields, cause.severity ≠ .error :=
    fun _ => colourCauses_of_savable h hrule
  cases hvalue : Decimal.ofEntered? rule.value with
  | none =>
    have hcause : IssueCause.comparisonNotNumeric rule.comparison.symbol rule.value ∈
        rule.checkComparison activity.fields := by
      simp [ColourRule.checkComparison, hordering, hvalue]
    exact absurd rfl (hcauses _ (List.mem_append_right _ hcause))
  | some bound =>
    refine ⟨⟨bound, rfl⟩, fun name hname => ?_⟩
    replace hname : rule.field = some name := hname
    cases hfield : activity.field? name with
    | none =>
      have hfind : Field.find? activity.fields name = none := hfield
      have hcause : IssueCause.unknownRuleField name.spelling ∈
          rule.checkTarget activity.fields := by
        simp [ColourRule.checkTarget, hname, hfind]
      exact absurd rfl (hcauses _ (List.mem_append_left _ hcause))
    | some field =>
      refine ⟨field, rfl, ?_⟩
      have hfind : Field.find? activity.fields name = some field := hfield
      by_contra hnot
      rw [not_or, Bool.not_eq_true, Bool.not_eq_true] at hnot
      have hcause : IssueCause.fieldNotOrdered rule.comparison.symbol field.dataType
          field.name.spelling ∈ rule.checkComparison activity.fields := by
        simp [ColourRule.checkComparison, hordering, hvalue, hname, hfind, hnot]
      exact hcauses _ (List.mem_append_right _ hcause) rfl

end Activity

/-! ### Coloured credits -/

namespace Credits

/-- Shows a negative credit in red. -/
def negativeCredit : ColourRule :=
  { id := 1, field := some credit, comparison := .lt, value := "0"
    style := { textColor := some "red" } }

/-- Shows a period in bold where much was paid in it. -/
def largePayment : ColourRule :=
  { id := 2, scope := .row, field := some paid, comparison := .ge, value := "250"
    style := { bold := true } }

/-- The activity with its colour rules. -/
def coloured : Activity :=
  .periodic 1 "Credits"
    { name := "Half-years"
      periodCount := 2
      labels := ["H1", "H2"]
      fields
      carryRules := [creditRule]
      colourRules := [negativeCredit, largePayment] }

theorem savable_coloured : coloured.savable = true := by
  decide +kernel

end Credits

end PeriodSheet
