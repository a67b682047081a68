import PeriodSheet.Proofs.Decimal.Reading
import PeriodSheet.Proofs.References
import PeriodSheet.Proofs.Run

/-!
# The view of a period

What a view has for a name: the text of the active field of that name where it is a value of the
field (`Activity.get?_raw_view`), and what is wrong with it where it is not
(`Activity.get?_invalid_view`).  The user fills in those fields; of calculated ones a view has
nothing.
-/

namespace PeriodSheet

/-- What is wrong with the text that a field has in a period, its default included. -/
def Field.textError? (entry : PeriodEntry) (field : Field) : Option ValueError :=
  (PeriodView.textOf? (some entry) field).bind fun text =>
    match Value.parse field text with
    | .error error => some error
    | .ok _ => none

/-- Whether a text is a value of a field. -/
def Field.Accepts (field : Field) (text : String) : Prop :=
  ∃ value, Value.parse field text = .ok (some value)

/-- A text that a numeric field accepts is a number. -/
theorem Field.Accepts.exists_ofEntered? {field : Field} {text : String} (h : field.Accepts text)
    (hnumeric : field.dataType.isNumeric = true) :
    ∃ number, Decimal.ofEntered? text = some number := by
  obtain ⟨value, hvalue⟩ := h
  rw [← Decimal.ofEntered?_trim]
  unfold Value.parse at hvalue
  split at hvalue
  · cases hvalue
  · cases htrim : Decimal.ofEntered? (Text.trim text) with
    | some number => exact ⟨number, rfl⟩
    | none =>
      -- both numeric types read the text as a decimal first
      cases htype : field.dataType with
      | number => simp [Value.ofText, htype, htrim, Except.map] at hvalue
      | decimal => simp [Value.ofText, htype, htrim, Except.map] at hvalue
      | _ =>
        rw [htype] at hnumeric
        cases hnumeric

theorem Field.accepts_of_validText? {field : Field} {entry : PeriodEntry} {text : String}
    (h : field.validText? entry = some text) : field.Accepts text := by
  obtain ⟨-, hparse⟩ := Option.filter_eq_some_iff.1 h
  split at hparse
  · next value hvalue => exact ⟨value, hvalue⟩
  · cases hparse

theorem Field.validText?_eq_none_iff {field : Field} {entry : PeriodEntry} :
    field.validText? entry = none ↔
      ∀ text, PeriodView.textOf? (some entry) field = some text → ¬ field.Accepts text := by
  unfold validText? Accepts
  rw [Option.filter_eq_none_iff]
  refine forall₂_congr fun text _ => not_congr ?_
  rcases Value.parse field text with error | _ | value <;> simp

/-- A raw text, which is not blank, is accepted, or something is wrong with it. -/
theorem Field.isSome_textError?_iff {field : Field} {entry : PeriodEntry} {text : String}
    (h : entry.raw? field.name = some text) :
    (field.textError? entry).isSome = true ↔ ¬ field.Accepts text := by
  have hshown : Text.isBlankText text = false := by
    simpa using (Option.filter_eq_some_iff.1 h).2
  have htext : PeriodView.textOf? (some entry) field = some text := by
    rw [PeriodView.textOf?, Option.bind_some, h]
    rfl
  rw [textError?, htext, Option.bind_some, Accepts, Value.parse, hshown]
  cases Value.ofText field text (Text.trim text) <;> simp [Except.map]

/-- What fields of distinct names write into a map is found by name. -/
theorem NameMap.get?_foldl_write {α : Type} (write : Field → Option α) {fields : List Field}
    (hnames : fields.Pairwise fun a b => a.name.same b.name = false) (map : NameMap α)
    (name : FieldName) :
    (fields.foldl (fun map field => (write field).elim map (map.insert field.name)) map).get?
      name = ((Field.find? fields name).bind write).or (map.get? name) := by
  induction fields generalizing map with
  | nil => rfl
  | cons field rest ih =>
    obtain ⟨hfield, hrest⟩ := List.pairwise_cons.1 hnames
    have hwritten : ((write field).elim map (map.insert field.name)).get? name =
        if field.name.same name then (write field).or (map.get? name) else map.get? name := by
      cases write field with
      | none => simp
      | some value => simp
    rw [List.foldl_cons, ih hrest, hwritten]
    by_cases hsame : field.name.same name = true
    · -- no later field has the name
      have hnone : Field.find? rest name = none := by
        rw [Field.find?, List.find?_eq_none]
        intro other hmem hother
        have hdiffer := hfield other hmem
        rw [FieldName.same_congr_left hsame, FieldName.same_comm, hother] at hdiffer
        cases hdiffer
      have hhead : Field.find? (field :: rest) name = some field := List.find?_cons_of_pos hsame
      rw [if_pos hsame, hnone, hhead]
      rfl
    · have htail : Field.find? (field :: rest) name = Field.find? rest name :=
        List.find?_cons_of_neg hsame
      rw [if_neg hsame, htail]

namespace PeriodView

/-- A field adds its valid text, or what is wrong with its text, if it has one. -/
theorem add_eq (entry : PeriodEntry) (view : PeriodView) (field : Field) :
    view.add (some entry) field =
      { raw := (field.validText? entry).elim view.raw (view.raw.insert field.name)
        invalid := (field.textError? entry).elim view.invalid
          (view.invalid.insert field.name) } := by
  unfold add Field.validText? Field.textError?
  cases textOf? (some entry) field with
  | none => rfl
  | some text =>
    rcases hparse : Value.parse field text with error | _ | value <;>
      simp [Option.filter_some, hparse]

theorem foldl_add (entry : PeriodEntry) (fields : List Field) (view : PeriodView) :
    fields.foldl (add (some entry)) view =
      { raw := fields.foldl (fun map field =>
          (field.validText? entry).elim map (map.insert field.name)) view.raw
        invalid := fields.foldl (fun map field =>
          (field.textError? entry).elim map (map.insert field.name)) view.invalid } := by
  induction fields generalizing view with
  | nil => rfl
  | cons field rest ih => rw [List.foldl_cons, ih, add_eq, List.foldl_cons, List.foldl_cons]

end PeriodView

namespace Activity

variable {settings : Settings} {activity : Activity}

/-- Among the fields that the user fills in, a name means the active field of that name, if that is
not calculated. -/
theorem bind_find?_entered {α : Type} (hnames : activity.NamesDistinct) (name : FieldName)
    (read : Field → Option α) :
    (Field.find? (activity.activeFields.filter (!·.isCalculated)) name).bind read =
      (Field.find? activity.activeFields name).bind fun field =>
        if field.isCalculated then none else read field := by
  cases hfind : Field.find? activity.activeFields name with
  | none =>
    have hnone : Field.find? (activity.activeFields.filter (!·.isCalculated)) name = none := by
      rw [Field.find?, List.find?_eq_none] at hfind ⊢
      exact fun field hmem => hfind field (List.mem_filter.1 hmem).1
    rw [hnone]
    rfl
  | some field =>
    have hmem := List.mem_of_find?_eq_some hfind
    have hsame := Field.same_of_find? hfind
    rw [Option.bind_some]
    split
    · rename_i hcalculated
      -- the one field of the name is calculated, and so not among them
      have hnone : Field.find? (activity.activeFields.filter (!·.isCalculated)) name = none := by
        rw [Field.find?, List.find?_eq_none]
        intro other hother hname
        obtain ⟨hactive, hentered⟩ := List.mem_filter.1 hother
        have hother := hnames.eq_of_same hactive hmem
          ((FieldName.same_congr_right hsame other.name).trans hname)
        rw [hother, hcalculated] at hentered
        cases hentered
      rw [hnone]
      rfl
    · rename_i hentered
      have hkept : field ∈ activity.activeFields.filter (!·.isCalculated) :=
        List.mem_filter.2 ⟨hmem, by simpa using hentered⟩
      rw [Field.find?_of_mem (hnames.filter _) hkept hsame]
      rfl

theorem view_ofActivity (settings : Settings) (activity : Activity) (entry : PeriodEntry) :
    entry.view (.ofActivity settings activity) =
      (activity.activeFields.filter (!·.isCalculated)).foldl (PeriodView.add (some entry)) {} :=
  rfl

/-- A view has the valid text of the active field that a name means, if that is not calculated. -/
theorem get?_raw_view (hnames : activity.NamesDistinct) (entry : PeriodEntry) (name : FieldName) :
    (entry.view (.ofActivity settings activity)).raw.get? name =
      (Field.find? activity.activeFields name).bind fun field =>
        if field.isCalculated then none else field.validText? entry := by
  rw [view_ofActivity, PeriodView.foldl_add, NameMap.get?_foldl_write _ (hnames.filter _),
    NameMap.get?_empty, Option.or_none, bind_find?_entered hnames]

/-- A view has what is wrong with the text of the active field that a name means. -/
theorem get?_invalid_view (hnames : activity.NamesDistinct) (entry : PeriodEntry)
    (name : FieldName) :
    (entry.view (.ofActivity settings activity)).invalid.get? name =
      (Field.find? activity.activeFields name).bind fun field =>
        if field.isCalculated then none else field.textError? entry := by
  rw [view_ofActivity, PeriodView.foldl_add, NameMap.get?_foldl_write _ (hnames.filter _),
    NameMap.get?_empty, Option.or_none, bind_find?_entered hnames]

section

variable {field : Field}

/-- A view has the valid text of a field that the user fills in. -/
theorem get?_raw_view_of_entered (hnames : activity.NamesDistinct) (entry : PeriodEntry)
    (hactive : field ∈ activity.activeFields) (hentered : field.isCalculated = false) :
    (entry.view (.ofActivity settings activity)).raw.get? field.name =
      field.validText? entry := by
  rw [get?_raw_view hnames, hnames.find?_of_mem hactive (FieldName.same_refl field.name),
    Option.bind_some, hentered, if_neg (by decide)]

/-- A view has what is wrong with the text of a field that the user fills in. -/
theorem get?_invalid_view_of_entered (hnames : activity.NamesDistinct) (entry : PeriodEntry)
    (hactive : field ∈ activity.activeFields) (hentered : field.isCalculated = false) :
    (entry.view (.ofActivity settings activity)).invalid.get? field.name =
      field.textError? entry := by
  rw [get?_invalid_view hnames, hnames.find?_of_mem hactive (FieldName.same_refl field.name),
    Option.bind_some, hentered, if_neg (by decide)]

end

end Activity

end PeriodSheet
