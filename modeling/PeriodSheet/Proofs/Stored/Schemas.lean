import PeriodSheet.Proofs.Stored.Parts

/-!
# Stored schemas

An activity whose numbers have the widths that stored data gives them is read back as it was
written, from JSON as from TOML; only a zero interest rate loses its sign (`Activity.readBack`),
which makes no difference to what the activity is.  The shape of an activity is read as a whole
before its kind is known, so that all parts of it have to be plain data.
-/

namespace PeriodSheet

open Json

/-! ### Fields -/

theorem DataType.ofJson?_name (medium : Medium) (t : DataType) :
    ofJson? medium (.text t.name) = some t := by
  cases t <;> rfl

namespace Field

/-- Whether the numbers of a field have the widths that stored data gives them. -/
structure Storable (field : Field) : Prop where
  displayOrder : IsInt32 field.displayOrder
  displayWidth : ∀ width ∈ field.displayWidth, width < twoPow 16
  visiblePeriods : ∀ period ∈ field.visiblePeriods, period < twoPow 32

instance (field : Field) : Decidable field.Storable :=
  decidable_of_iff (IsInt32 field.displayOrder ∧
      (∀ width ∈ field.displayWidth, width < twoPow 16) ∧
      ∀ period ∈ field.visiblePeriods, period < twoPow 32)
    ⟨fun ⟨horder, hwidth, hperiods⟩ => ⟨horder, hwidth, hperiods⟩,
      fun ⟨horder, hwidth, hperiods⟩ => ⟨horder, hwidth, hperiods⟩⟩

def slots (field : Field) : List (String × Option Json) :=
  [("name", some field.name.toJson),
    ("label", some (.text field.label)),
    ("data_type", some (.text field.dataType.name)),
    ("is_required", some (.bool field.isRequired)),
    ("show_in_list", some (.bool field.showInList)),
    ("is_filter", some (.bool field.isFilter)),
    ("options", listValue .text field.options),
    ("default_value", field.defaultValue.map .text),
    ("display_order", some (.integer field.displayOrder)),
    ("display_width", field.displayWidth.map .ofNat),
    ("is_active", some (.bool field.isActive)),
    ("formula", field.formula.map .text),
    ("is_completion_indicator", some (.bool field.isCompletionIndicator)),
    ("is_result_indicator", some (.bool field.isResultIndicator)),
    ("visible_periods", listValue .ofNat field.visiblePeriods)]

theorem toJson_eq (field : Field) : field.toJson = ofSlots field.slots := by
  simp only [toJson, listMember_eq, optionMember_eq]
  exact ofMembers_map_slotMember field.slots

theorem ofJson?_toJson (medium : Medium) {field : Field} (h : field.Storable) :
    ofJson? medium field.toJson = some field := by
  obtain ⟨m, hfields, hm⟩ :=
    exists_fields medium memberNames field.slots (by decide) rfl
  rw [toJson_eq]
  unfold ofJson?
  exact reads_next hfields <|
    reads_next (hm.required? rfl field.name.ofJson?_toJson) <|
    reads_next (hm.orElse? rfl rfl) <|
    reads_next (hm.orElse? rfl (field.dataType.ofJson?_name medium)) <|
    reads_next (hm.orElse? rfl rfl) <|
    reads_next (hm.orElse? rfl rfl) <|
    reads_next (hm.orElse? rfl rfl) <|
    reads_next (hm.listValue? rfl fun _ _ => rfl) <|
    reads_next (hm.nullable? rfl (fun _ => rfl) fun _ _ => rfl) <|
    reads_next (hm.orElse? rfl h.displayOrder.int32?) <|
    reads_next (hm.nullable? rfl (fun _ => rfl) fun width hwidth =>
      natBelow?_ofNat (h.displayWidth width hwidth)) <|
    reads_next (hm.orElse? rfl rfl) <|
    reads_next (hm.nullable? rfl (fun _ => rfl) fun _ _ => rfl) <|
    reads_next (hm.orElse? rfl rfl) <|
    reads_next (hm.orElse? rfl rfl) <|
    reads_next (hm.listValue? rfl fun period hperiod =>
      natBelow?_ofNat (h.visiblePeriods period hperiod)) rfl

theorem plain_toJson {field : Field} (h : field.Storable) : Plain 2 field.toJson := by
  have hwidth : ∀ width ∈ field.displayWidth, width < twoPow 64 := fun width hwidth =>
    Nat.lt_trans (h.displayWidth width hwidth) (by decide)
  have hperiods : ∀ period ∈ field.visiblePeriods, period < twoPow 64 := fun period hperiod =>
    Nat.lt_trans (h.visiblePeriods period hperiod) (by decide)
  rw [toJson_eq]
  refine plain_ofSlots ?_
  simp only [slots, List.forall_mem_cons, Option.mem_some_iff, forall_eq']
  exact ⟨.text 1 _, .text 1 _, .text 1 _, .bool 1 _, .bool 1 _, .bool 1 _,
    forall_mem_listValue fun _ _ => .text 0 _, Json.forall_mem_map fun _ _ => .text 1 _,
    h.displayOrder.isInt64.plain 1,
    Json.forall_mem_map fun width hmem => .ofNat 1 (hwidth width hmem), .bool 1 _,
    Json.forall_mem_map fun _ _ => .text 1 _, .bool 1 _, .bool 1 _,
    forall_mem_listValue fun period hmem => .ofNat 0 (hperiods period hmem), by simp⟩

end Field

/-! ### Rules -/

namespace CarryRule

def slots (rule : CarryRule) : List (String × Option Json) :=
  [("id", some (.integer rule.id)),
    ("origin_field", some rule.origin.toJson),
    ("destination_field", some rule.destination.toJson),
    ("condition", some (.text rule.condition.name)),
    ("is_active", some (.bool rule.isActive))]

theorem ofJson?_toJson (medium : Medium) {rule : CarryRule} (h : IsInt64 rule.id) :
    ofJson? medium rule.toJson = some rule := by
  obtain ⟨m, hfields, hm⟩ := exists_fields medium
    [["id"], ["origin_field"], ["destination_field"], ["condition"], ["is_active"]] rule.slots
    (by decide) rfl
  have hcondition : choice? medium CarryCondition.names (.text rule.condition.name) =
      some rule.condition := by
    cases rule.condition <;> rfl
  rw [show rule.toJson = ofSlots rule.slots from rfl]
  unfold ofJson?
  exact reads_next hfields <|
    reads_next (hm.required? rfl h.int64?) <|
    reads_next (hm.required? rfl rule.origin.ofJson?_toJson) <|
    reads_next (hm.required? rfl rule.destination.ofJson?_toJson) <|
    reads_next (hm.orElse? rfl hcondition) <|
    reads_next (hm.orElse? rfl rfl) rfl

theorem plain_toJson {rule : CarryRule} (h : IsInt64 rule.id) : Plain 1 rule.toJson := by
  show Plain 1 (ofSlots rule.slots)
  refine plain_ofSlots ?_
  simp only [slots, List.forall_mem_cons, Option.mem_some_iff, forall_eq']
  exact ⟨h.plain 0, .text 0 _, .text 0 _, .text 0 _, .bool 0 _, by simp⟩

end CarryRule

theorem Comparison.ofJson?_symbol (medium : Medium) (comparison : Comparison) :
    ofJson? medium (.text comparison.symbol) = some comparison := by
  cases comparison <;> rfl

theorem RuleScope.ofJson?_name (medium : Medium) (scope : RuleScope) :
    ofJson? medium (.text scope.name) = some scope := by
  cases scope <;> rfl

namespace Style

def slots (style : Style) : List (String × Option Json) :=
  [("text_color", style.textColor.map .text),
    ("background_color", style.backgroundColor.map .text),
    ("bold", some (.bool style.bold)),
    ("icon", style.icon.map .text)]

theorem toJson_eq (style : Style) : style.toJson = ofSlots style.slots := by
  simp only [toJson, Field.optionMember_eq]
  exact ofMembers_map_slotMember style.slots

theorem ofJson?_toJson (medium : Medium) (style : Style) :
    ofJson? medium style.toJson = some style := by
  obtain ⟨m, hfields, hm⟩ := exists_fields medium
    [["text_color"], ["background_color"], ["bold"], ["icon"]] style.slots (by decide) rfl
  rw [toJson_eq]
  unfold ofJson?
  exact reads_next hfields <|
    reads_next (hm.nullable? rfl (fun _ => rfl) fun _ _ => rfl) <|
    reads_next (hm.nullable? rfl (fun _ => rfl) fun _ _ => rfl) <|
    reads_next (hm.orElse? rfl rfl) <|
    reads_next (hm.nullable? rfl (fun _ => rfl) fun _ _ => rfl) rfl

theorem plain_toJson (style : Style) : Plain 1 style.toJson := by
  rw [toJson_eq]
  refine plain_ofSlots ?_
  simp only [slots, List.forall_mem_cons, Option.mem_some_iff, forall_eq']
  exact ⟨Json.forall_mem_map fun _ _ => .text 0 _, Json.forall_mem_map fun _ _ => .text 0 _,
    .bool 0 _, Json.forall_mem_map fun _ _ => .text 0 _, by simp⟩

end Style

namespace ColourRule

/-- Whether the numbers of a colour rule have the widths that stored data gives them. -/
structure Storable (rule : ColourRule) : Prop where
  id : IsInt64 rule.id
  priority : IsInt32 rule.priority

instance (rule : ColourRule) : Decidable rule.Storable :=
  decidable_of_iff (IsInt64 rule.id ∧ IsInt32 rule.priority)
    ⟨fun ⟨hid, hpriority⟩ => ⟨hid, hpriority⟩, fun ⟨hid, hpriority⟩ => ⟨hid, hpriority⟩⟩

def slots (rule : ColourRule) : List (String × Option Json) :=
  [("id", some (.integer rule.id)),
    ("scope", some (.text rule.scope.name)),
    ("field", rule.field.map FieldName.toJson),
    ("operator", some (.text rule.comparison.symbol)),
    ("comparison_value", some (.text rule.value)),
    ("style", some rule.style.toJson),
    ("priority", some (.integer rule.priority)),
    ("is_active", some (.bool rule.isActive))]

theorem toJson_eq (rule : ColourRule) : rule.toJson = ofSlots rule.slots := by
  simp only [toJson, Field.optionMember_eq]
  exact ofMembers_map_slotMember rule.slots

theorem ofJson?_toJson (medium : Medium) {rule : ColourRule} (h : rule.Storable) :
    ofJson? medium rule.toJson = some rule := by
  obtain ⟨m, hfields, hm⟩ := exists_fields medium
    [["id"], ["scope", "applica_a"], ["field"], ["operator"], ["comparison_value"], ["style"],
      ["priority"], ["is_active"]] rule.slots (by decide) rfl
  rw [toJson_eq]
  unfold ofJson?
  exact reads_next hfields <|
    reads_next (hm.required? rfl h.id.int64?) <|
    reads_next (hm.orElse? rfl (rule.scope.ofJson?_name medium)) <|
    reads_next (hm.nullable? rfl (fun _ => rfl) fun name _ => name.ofJson?_toJson) <|
    reads_next (hm.required? rfl (rule.comparison.ofJson?_symbol medium)) <|
    reads_next (hm.required? rfl rfl) <|
    reads_next (hm.orElse? rfl (rule.style.ofJson?_toJson medium)) <|
    reads_next (hm.orElse? rfl h.priority.int32?) <|
    reads_next (hm.orElse? rfl rfl) rfl

theorem plain_toJson {rule : ColourRule} (h : rule.Storable) : Plain 2 rule.toJson := by
  rw [toJson_eq]
  refine plain_ofSlots ?_
  simp only [slots, List.forall_mem_cons, Option.mem_some_iff, forall_eq']
  exact ⟨h.id.plain 1, .text 1 _, Json.forall_mem_map fun _ _ => .text 1 _, .text 1 _, .text 1 _,
    rule.style.plain_toJson, h.priority.isInt64.plain 1, .bool 1 _, by simp⟩

end ColourRule

/-! ### Layouts -/

namespace Layout

/-- Whether the numbers of a layout have the widths that stored data gives them. -/
structure Storable (layout : Layout) : Prop where
  periodCount : layout.periodCount < twoPow 32
  fields : ∀ field ∈ layout.fields, field.Storable
  carryRules : ∀ rule ∈ layout.carryRules, IsInt64 rule.id
  colourRules : ∀ rule ∈ layout.colourRules, rule.Storable

instance (layout : Layout) : Decidable layout.Storable :=
  decidable_of_iff (layout.periodCount < twoPow 32 ∧ (∀ field ∈ layout.fields, field.Storable) ∧
      (∀ rule ∈ layout.carryRules, IsInt64 rule.id) ∧ ∀ rule ∈ layout.colourRules, rule.Storable)
    ⟨fun ⟨hcount, hfields, hcarry, hcolour⟩ => ⟨hcount, hfields, hcarry, hcolour⟩,
      fun ⟨hcount, hfields, hcarry, hcolour⟩ => ⟨hcount, hfields, hcarry, hcolour⟩⟩

def readBack (layout : Layout) : Layout :=
  { layout with interestRate := layout.interestRate.map (·.readBack) }

theorem canonical_readBack (layout : Layout) : layout.readBack.canonical = layout.canonical := by
  simp only [canonical, readBack, Option.map_map, Function.comp_def, Decimal.normalize_readBack]

def slots (layout : Layout) : List (String × Option Json) :=
  [("name", some (.text layout.name)),
    ("period_count", some (.ofNat layout.periodCount)),
    ("period_labels", some (.ofTexts layout.labels)),
    ("period_start_dates", some (.ofList Date.toJson layout.startDates)),
    ("period_end_dates", some (.ofList Date.toJson layout.endDates)),
    ("interest_rate_default", layout.interestRate.map Decimal.toJson),
    ("show_totals", some (.bool layout.showTotals)),
    ("show_interest", some (.bool layout.showInterest)),
    ("collapsed_by_default", some (.bool layout.collapsed)),
    ("fields", some (.ofList Field.toJson layout.fields)),
    ("carry_over_rules", some (.ofList CarryRule.toJson layout.carryRules)),
    ("color_rules", some (.ofList ColourRule.toJson layout.colourRules))]

theorem toMembers_eq (layout : Layout) : layout.toMembers = layout.slots.map slotMember := by
  simp only [toMembers, Field.optionMember_eq]
  rfl

theorem ofJson?_ofSlots (medium : Medium) {layout : Layout} (h : layout.Storable) :
    ofJson? medium (ofSlots layout.slots) = some layout.readBack := by
  obtain ⟨m, hfields, hm⟩ := exists_fields medium memberNames layout.slots (by decide) rfl
  unfold ofJson?
  exact reads_next hfields <|
    reads_next (hm.required? rfl rfl) <|
    reads_next (hm.required? rfl (natBelow?_ofNat h.periodCount)) <|
    reads_next (hm.required? rfl (list?_ofList fun _ _ => rfl)) <|
    reads_next (hm.orElse? rfl (list?_ofList fun date _ => date.ofJson?_toJson)) <|
    reads_next (hm.orElse? rfl (list?_ofList fun date _ => date.ofJson?_toJson)) <|
    reads_next (hm.nullable?_map rfl (fun _ => rfl) fun d _ => d.ofJson?_toJson) <|
    reads_next (hm.orElse? rfl rfl) <|
    reads_next (hm.orElse? rfl rfl) <|
    reads_next (hm.orElse? rfl rfl) <|
    reads_next (hm.orElse? rfl (list?_ofList fun field hmem =>
      Field.ofJson?_toJson medium (h.fields field hmem))) <|
    reads_next (hm.orElse? rfl (list?_ofList fun rule hmem =>
      CarryRule.ofJson?_toJson medium (h.carryRules rule hmem))) <|
    reads_next (hm.orElse? rfl (list?_ofList fun rule hmem =>
      ColourRule.ofJson?_toJson medium (h.colourRules rule hmem))) rfl

theorem plain_slots {layout : Layout} (h : layout.Storable) :
    ∀ slot ∈ layout.slots, ∀ value ∈ slot.2, Plain 3 value := by
  have hcount : layout.periodCount < twoPow 64 := Nat.lt_trans h.periodCount (by decide)
  simp only [slots, List.forall_mem_cons, Option.mem_some_iff, forall_eq']
  exact ⟨.text 3 _, .ofNat 3 hcount, .ofList fun _ _ => .text 2 _, .ofList fun _ _ => .text 2 _,
    .ofList fun _ _ => .text 2 _, Json.forall_mem_map fun _ _ => .text 3 _, .bool 3 _, .bool 3 _,
    .bool 3 _, .ofList fun field hmem => Field.plain_toJson (h.fields field hmem),
    .ofList fun rule hmem => (CarryRule.plain_toJson (h.carryRules rule hmem)).mono (by decide),
    .ofList fun rule hmem => ColourRule.plain_toJson (h.colourRules rule hmem), by simp⟩

end Layout

/-! ### Shapes -/

namespace Shape

/-- Whether the numbers of a shape have the widths that stored data gives them. -/
def Storable : Shape → Prop
  | .plain fields colourRules =>
    (∀ field ∈ fields, field.Storable) ∧ ∀ rule ∈ colourRules, rule.Storable
  | .periodic layout => layout.Storable

instance : (shape : Shape) → Decidable shape.Storable
  | .plain _ _ => inferInstanceAs (Decidable (_ ∧ _))
  | .periodic layout => inferInstanceAs (Decidable layout.Storable)

def readBack : Shape → Shape
  | .plain fields colourRules => .plain fields colourRules
  | .periodic layout => .periodic layout.readBack

/-- The name of a shape's kind. -/
def kind : Shape → String
  | .plain .. => "plain"
  | .periodic _ => "periodic"

def slots : Shape → List (String × Option Json)
  | .plain fields colourRules =>
    [("fields", some (.ofList Field.toJson fields)),
      ("color_rules", some (.ofList ColourRule.toJson colourRules))]
  | .periodic layout => layout.slots

theorem toJson_eq (shape : Shape) :
    shape.toJson = ofSlots (("kind", some (.text shape.kind)) :: shape.slots) := by
  cases shape with
  | plain fields colourRules => rfl
  | periodic layout =>
    rw [toJson, layout.toMembers_eq]
    exact ofMembers_map_slotMember (("kind", some (.text "periodic")) :: layout.slots)

theorem kind_not_mem (shape : Shape) : "kind" ∉ shape.slots.map (·.1) := by
  cases shape with
  | plain fields colourRules =>
    show "kind" ∉ ["fields", "color_rules"]
    decide
  | periodic layout =>
    show "kind" ∉ Layout.memberNames.filterMap List.head?
    decide

/-- The kind is split off again. -/
theorem splitKind?_toJson (shape : Shape) :
    splitKind? shape.toJson = some (shape.kind, ofSlots shape.slots) := by
  have hothers : ∀ m ∈ shape.slots.filterMap slotMember, m.1 ≠ "kind" := by
    intro m hm heq
    exact shape.kind_not_mem (heq ▸ List.mem_map_of_mem (mem_written.1 hm))
  have hkind : (("kind", Json.text shape.kind) :: shape.slots.filterMap slotMember).filter
      (·.1 == "kind") = [("kind", .text shape.kind)] := by
    rw [List.filter_cons_of_pos (by rfl), List.filter_eq_nil_iff.2 fun m hm => by
      simp [hothers m hm]]
  have hrest : (("kind", Json.text shape.kind) :: shape.slots.filterMap slotMember).filter
      (·.1 != "kind") = shape.slots.filterMap slotMember := by
    rw [List.filter_cons_of_neg (by simp), List.filter_eq_self.2 fun m hm => by
      simp [hothers m hm]]
  rw [toJson_eq]
  show splitKind? (.record (("kind", .text shape.kind) :: shape.slots.filterMap slotMember)) = _
  simp only [splitKind?, hkind, hrest]
  rfl

theorem plain_toJson {shape : Shape} (h : shape.Storable) : Plain 4 shape.toJson := by
  rw [toJson_eq]
  refine plain_ofSlots (List.forall_mem_cons.2 ⟨?_, ?_⟩)
  · simp only [Option.mem_some_iff, forall_eq']
    exact .text 3 _
  · cases shape with
    | periodic layout => exact Layout.plain_slots h
    | plain fields colourRules =>
      obtain ⟨hfields, hrules⟩ := h
      simp only [slots, List.forall_mem_cons, Option.mem_some_iff, forall_eq']
      exact ⟨.ofList fun field hmem => Field.plain_toJson (hfields field hmem),
        .ofList fun rule hmem => ColourRule.plain_toJson (hrules rule hmem), by simp⟩

theorem ofKind?_ofSlots {shape : Shape} (h : shape.Storable) :
    ofKind? shape.kind (ofSlots shape.slots) = some shape.readBack := by
  cases shape with
  | periodic layout =>
    show (Layout.ofJson? .tagged (ofSlots layout.slots)).map Shape.periodic = _
    rw [Layout.ofJson?_ofSlots .tagged h]
    rfl
  | plain fields colourRules =>
    obtain ⟨hfields, hrules⟩ := h
    obtain ⟨m, hm?, hm⟩ := exists_fields .tagged [["fields"], ["color_rules"]]
      (plain fields colourRules).slots (by decide) rfl
    rw [ofKind?, if_pos (show (plain fields colourRules).kind = "plain" from rfl)]
    exact reads_next hm? <|
      reads_next (hm.orElse? rfl (list?_ofList fun field hmem =>
        Field.ofJson?_toJson .tagged (hfields field hmem))) <|
      reads_next (hm.orElse? rfl (list?_ofList fun rule hmem =>
        ColourRule.ofJson?_toJson .tagged (hrules rule hmem))) rfl

theorem ofJson?_toJson {shape : Shape} (h : shape.Storable) :
    ofJson? shape.toJson = some shape.readBack := by
  unfold ofJson?
  refine reads_next shape.splitKind?_toJson ?_
  show (if shape.toJson.isReadable then _ else _) = _
  rw [if_pos (plain_toJson h).isReadable]
  exact ofKind?_ofSlots h

end Shape

/-! ### Activities -/

namespace Activity

/-- Whether the numbers of an activity have the widths that stored data gives them. -/
structure Storable (activity : Activity) : Prop where
  id : IsInt64 activity.id
  shape : activity.shape.Storable

instance (activity : Activity) : Decidable activity.Storable :=
  decidable_of_iff (IsInt64 activity.id ∧ activity.shape.Storable)
    ⟨fun ⟨hid, hshape⟩ => ⟨hid, hshape⟩, fun ⟨hid, hshape⟩ => ⟨hid, hshape⟩⟩

def readBack (activity : Activity) : Activity :=
  { activity with shape := activity.shape.readBack }

theorem canonical_readBack (activity : Activity) :
    activity.readBack.canonical = activity.canonical := by
  obtain ⟨id, name, description, shape⟩ := activity
  cases shape with
  | plain fields colourRules => rfl
  | periodic layout =>
    simp only [canonical, readBack, Shape.readBack, Layout.canonical_readBack]

def slots (activity : Activity) : List (String × Option Json) :=
  [("id", some (.integer activity.id)),
    ("name", some (.text activity.name)),
    ("description", some (.text activity.description)),
    ("layout", some activity.shape.toJson)]

/-- **Stored activities read back.** -/
theorem ofJson?_toJson (medium : Medium) {activity : Activity} (h : activity.Storable) :
    ofJson? medium activity.toJson = some activity.readBack := by
  obtain ⟨m, hfields, hm⟩ := exists_fields medium
    [["id"], ["name"], ["description"], ["layout"]] activity.slots (by decide) rfl
  show ofJson? medium (ofSlots activity.slots) = _
  unfold ofJson?
  exact reads_next hfields <|
    reads_next (hm.required? rfl h.id.int64?) <|
    reads_next (hm.required? rfl rfl) <|
    reads_next (hm.orElse? rfl rfl) <|
    reads_next (hm.required? rfl (Shape.ofJson?_toJson h.shape)) rfl

theorem plain_toJson {activity : Activity} (h : activity.Storable) : Plain 5 activity.toJson := by
  show Plain 5 (ofSlots activity.slots)
  refine plain_ofSlots ?_
  simp only [slots, List.forall_mem_cons, Option.mem_some_iff, forall_eq']
  exact ⟨h.id.plain 4, .text 4 _, .text 4 _, Shape.plain_toJson h.shape, by simp⟩

end Activity

end PeriodSheet
