import PeriodSheet.Proofs.ColourRules

/-!
# The prevailing rule

A cell or a row has the style of one rule, as it stands: of those that apply, the rule of highest
rank, and of several such rules the one that is listed last (`ColourRule.Prevails`).  What applies
is told from what a rule says (`ColourRule.StylesCell`, `ColourRule.StylesRow`).  Where the ranks
are distinct, the order in which the rules are listed does not matter
(`ColourRule.style_prevailing`).
-/

namespace PeriodSheet

namespace ColourRule

/-! ### Rules that apply -/

/-- A rule styles the cells of a field that hold a value: it is an active rule for cells, names the
field, and compares with the value as it asks. -/
structure StylesCell (rule : ColourRule) (field : FieldName) (value : String) : Prop where
  isActive : rule.isActive = true
  scope : rule.scope = .field
  names : ∃ name, rule.field = some name ∧ name.key = field.key
  holds : rule.comparison.holds value rule.value = true

/-- Whether a value of a row is one that a rule is tested on: that of the field that it names, or
any where it names none. -/
def Tests (rule : ColourRule) (row : NameMap String) (value : String) : Prop :=
  match rule.field with
  | some name => row.get? name = some value
  | none => ∃ name, (name, value) ∈ row.toList

/-- A rule styles a row: it is an active rule for rows, and compares as it asks with a value that it
is tested on. -/
structure StylesRow (rule : ColourRule) (row : NameMap String) : Prop where
  isActive : rule.isActive = true
  scope : rule.scope = .row
  holds : ∃ value, rule.Tests row value ∧ rule.comparison.holds value rule.value = true

theorem appliesToCell_iff {field : FieldName} {value : String} {rule : ColourRule} :
    appliesToCell field value rule = true ↔ rule.StylesCell field value := by
  simp only [appliesToCell, Bool.and_eq_true, beq_iff_eq, Option.any_eq_true, FieldName.same_iff]
  constructor
  · rintro ⟨⟨⟨hactive, hscope⟩, hnames⟩, hholds⟩
    exact ⟨hactive, hscope, hnames, hholds⟩
  · rintro ⟨hactive, hscope, hnames, hholds⟩
    exact ⟨⟨⟨hactive, hscope⟩, hnames⟩, hholds⟩

theorem isRowMatch_iff {row : NameMap String} {rule : ColourRule} :
    rule.isRowMatch row = true ↔
      ∃ value, rule.Tests row value ∧ rule.comparison.holds value rule.value = true := by
  unfold isRowMatch Tests
  cases rule.field with
  | some name => exact Option.any_eq_true _ _
  | none =>
    rw [List.any_eq_true]
    constructor
    · rintro ⟨⟨name, value⟩, hmem, hholds⟩
      exact ⟨value, ⟨name, hmem⟩, hholds⟩
    · rintro ⟨value, ⟨name, hmem⟩, hholds⟩
      exact ⟨(name, value), hmem, hholds⟩

theorem appliesToRow_iff {row : NameMap String} {rule : ColourRule} :
    appliesToRow row rule = true ↔ rule.StylesRow row := by
  simp only [appliesToRow, Bool.and_eq_true, beq_iff_eq, isRowMatch_iff]
  constructor
  · rintro ⟨⟨hactive, hscope⟩, hholds⟩
    exact ⟨hactive, hscope, hholds⟩
  · rintro ⟨hactive, hscope, hholds⟩
    exact ⟨⟨hactive, hscope⟩, hholds⟩

/-! ### The rule that prevails -/

/-- A rule at some place of a list prevails among those that apply where every other one that
applies has a lower rank, or the same rank and an earlier place. -/
def Prevails (rules : List ColourRule) (applies : ColourRule → Prop) (rule : ColourRule) : Prop :=
  ∃ place : Nat, rules[place]? = some rule ∧ applies rule ∧
    ∀ (i : Nat) other, rules[i]? = some other → applies other → i ≠ place →
      other.rank < rule.rank ∨ other.rank = rule.rank ∧ i < place

variable {rules : List ColourRule} {applies : ColourRule → Bool}

/-- The deciding rule of those that are kept, in the whole list: the rules before it that are kept
give way to it, and it gives way to none of those after it that are kept. -/
theorem exists_split_of_decides {best : ColourRule} (h : Decides (rules.filter applies) best) :
    ∃ front back, rules = front ++ best :: back ∧ applies best = true ∧
      (∀ other ∈ front, applies other = true → other.rank ≤ best.rank) ∧
      ∀ other ∈ back, applies other = true → other.rank < best.rank := by
  obtain ⟨before, after, hkept, hbefore, hafter⟩ := h
  obtain ⟨front, tail, hrules, hfront, htail⟩ := List.filter_eq_append_iff.1 hkept
  obtain ⟨skipped, back, rfl, hskipped, happlies, hback⟩ := List.filter_eq_cons_iff.1 htail
  refine ⟨front ++ skipped, back, by rw [hrules, List.append_assoc], happlies, ?_, ?_⟩
  · intro other hother happlies'
    rcases List.mem_append.1 hother with hother | hother
    · have hmem : other ∈ before := hfront ▸ List.mem_filter.2 ⟨hother, happlies'⟩
      exact yieldsTo_iff.1 (hbefore other hmem)
    · exact absurd happlies' (hskipped other hother)
  · intro other hother happlies'
    have hmem : other ∈ after := hback ▸ List.mem_filter.2 ⟨hother, happlies'⟩
    exact not_yieldsTo_iff.1 (hafter other hmem)

/-- **The winner prevails.** -/
theorem prevails_of_winner? {best : ColourRule}
    (h : winner? (rules.filter applies) = some best) :
    Prevails rules (applies · = true) best := by
  obtain ⟨front, back, hrules, happlies, hfront, hback⟩ :=
    exists_split_of_decides (decides_of_winner? h)
  have hplace : rules[front.length]? = some best := by rw [hrules]; simp
  refine ⟨front.length, hplace, happlies, fun i other hother happlies' hne => ?_⟩
  rw [hrules] at hother
  rcases Nat.lt_or_gt_of_ne hne with hlt | hgt
  · rw [List.getElem?_append_left hlt] at hother
    have hle := hfront other (List.mem_of_getElem? hother) happlies'
    exact (lt_or_eq_of_le hle).imp_right fun heq => ⟨heq, hlt⟩
  · obtain ⟨n, rfl⟩ : ∃ n, i = front.length + (n + 1) := ⟨i - front.length - 1, by omega⟩
    rw [List.getElem?_append_right (Nat.le_add_right _ _), Nat.add_sub_cancel_left,
      List.getElem?_cons_succ] at hother
    exact .inl (hback other (List.mem_of_getElem? hother) happlies')

/-- The style is that of the rule that prevails, or neutral where no rule applies. -/
theorem styleOf_filter_cases (rules : List ColourRule) (applies : ColourRule → Bool) :
    (∃ rule, Prevails rules (applies · = true) rule ∧
      styleOf (rules.filter applies) = rule.style) ∨
    (∀ rule ∈ rules, ¬ applies rule = true) ∧ styleOf (rules.filter applies) = .neutral := by
  cases hwinner : winner? (rules.filter applies) with
  | some best => exact .inl ⟨best, prevails_of_winner? hwinner, by rw [styleOf, hwinner]⟩
  | none =>
    refine .inr ⟨fun rule hrule happlies => ?_, by rw [styleOf, hwinner]⟩
    obtain ⟨best, hbest⟩ := exists_winner?_of_mem (List.mem_filter.2 ⟨hrule, happlies⟩)
    rw [hwinner] at hbest
    cases hbest

/-- **The prevailing rule gives the style.**

* A cell has the style of the rule that prevails among those that style it, as that rule states it,
  and is neutral where none does.
* So has a row, among the rules that style it.
* Where no two rules have the same priority and the same identifier, every order of the rules gives
  the same styles. -/
theorem style_prevailing (rules : List ColourRule) :
    (∀ field value,
      (∃ rule, Prevails rules (·.StylesCell field value) rule ∧
        cellStyle rules field value = rule.style) ∨
      (∀ rule ∈ rules, ¬ rule.StylesCell field value) ∧
        cellStyle rules field value = .neutral) ∧
    (∀ row,
      (∃ rule, Prevails rules (·.StylesRow row) rule ∧ rowStyle rules row = rule.style) ∨
      (∀ rule ∈ rules, ¬ rule.StylesRow row) ∧ rowStyle rules row = .neutral) ∧
    ((rules.map rank).Nodup → ∀ others, rules.Perm others →
      (∀ field value, cellStyle others field value = cellStyle rules field value) ∧
        ∀ row, rowStyle others row = rowStyle rules row) := by
  refine ⟨fun field value => ?_, fun row => ?_, fun hranks others hperm => ?_⟩
  · have hcases := styleOf_filter_cases rules (appliesToCell field value)
    simp only [appliesToCell_iff] at hcases
    exact hcases
  · have hcases := styleOf_filter_cases rules (appliesToRow row)
    simp only [appliesToRow_iff] at hcases
    exact hcases
  · rw [cellStyle_perm hperm hranks, rowStyle_perm hperm hranks]
    exact ⟨fun _ _ => rfl, fun _ => rfl⟩

/-- A rule of higher priority outweighs one of a higher identifier, and both orders of the two give
its style. -/
theorem style_prevailing_credits :
    let urgent : ColourRule := { Credits.negativeCredit with
      value := "-100", priority := 1, style := { bold := true } }
    let later : ColourRule := { Credits.negativeCredit with id := 7 }
    ([urgent, later].map rank).Nodup ∧
      urgent.isMatch "-150,00" = true ∧ later.isMatch "-150,00" = true ∧
      cellStyle [urgent, later] Credits.credit "-150,00" = urgent.style ∧
      cellStyle [later, urgent] Credits.credit "-150,00" = urgent.style := by
  intro urgent later
  have hranks : ([urgent, later].map rank).Nodup := by decide
  have hstyle : cellStyle [urgent, later] Credits.credit "-150,00" = urgent.style := by
    decide +kernel
  obtain ⟨-, -, hperm⟩ := style_prevailing [urgent, later]
  obtain ⟨hcells, -⟩ := hperm hranks [later, urgent] (.swap later urgent [])
  refine ⟨hranks, by decide +kernel, by decide +kernel, hstyle, ?_⟩
  rw [hcells, hstyle]

end ColourRule

end PeriodSheet
