import Mathlib.Data.List.Pairwise
import Mathlib.Tactic.ByContra
import PeriodSheet.Computation.Outcome
import PeriodSheet.Proofs.NameMap
import PeriodSheet.Proofs.Paths

/-!
# The meaning of calculated fields

What a calculated field comes to in a period, told from the formulas alone: no plan and no order of
evaluation is involved.

* **`Activity.dependencies`** are the calculated fields that a formula refers to; a field *reaches*
  another along them, and is *blocked* where it lies on a cycle or reaches one.
* **`Activity.Means`** has a rule for each way in which a field may fail, and one for its value.
* **`Activity.Means.unique`**: a field means at most one thing.
-/

namespace PeriodSheet

open Relation

/-! ### Fields of distinct names -/

namespace Field

variable {fields : List Field}

theorem eq_of_same (hnames : fields.Pairwise fun a b => a.name.same b.name = false)
    {field other : Field} (hfield : field ∈ fields) (hother : other ∈ fields)
    (h : field.name.same other.name = true) : field = other := by
  by_contra hne
  have : Std.Symm fun a b : Field => a.name.same b.name = false :=
    ⟨fun a b hab => (FieldName.same_comm b.name a.name).trans hab⟩
  have hdiffer := hnames.forall hfield hother hne
  rw [hdiffer] at h
  cases h

theorem same_of_find? {name : FieldName} {field : Field} (h : find? fields name = some field) :
    field.name.same name = true :=
  List.find?_some (p := fun field : Field => field.name.same name) h

theorem find?_of_mem (hnames : fields.Pairwise fun a b => a.name.same b.name = false)
    {field : Field} (hfield : field ∈ fields) {name : FieldName}
    (h : field.name.same name = true) : find? fields name = some field := by
  have hsome : (find? fields name).isSome = true := List.find?_isSome.2 ⟨field, hfield, h⟩
  obtain ⟨found, hfound⟩ := Option.isSome_iff_exists.1 hsome
  have hsame : found.name.same field.name = true :=
    (FieldName.same_congr_right h found.name).trans (same_of_find? hfound)
  rw [hfound, eq_of_same hnames (List.mem_of_find?_eq_some hfound) hfield hsame]

/-- Among fields of distinct names, a name is that of one field. -/
theorem filter_same (hnames : fields.Pairwise fun a b => a.name.same b.name = false)
    {field : Field} (hfield : field ∈ fields) :
    fields.filter (·.name.same field.name) = [field] := by
  have hunique : ∀ other ∈ fields.filter (·.name.same field.name), other = field := by
    intro other hother
    obtain ⟨hmem, hsame⟩ := List.mem_filter.1 hother
    exact eq_of_same hnames hmem hfield hsame
  have hmem : field ∈ fields.filter (·.name.same field.name) :=
    List.mem_filter.2 ⟨hfield, FieldName.same_refl field.name⟩
  have hdistinct := hnames.filter (·.name.same field.name)
  generalize fields.filter (·.name.same field.name) = found at hunique hmem hdistinct ⊢
  match found with
  | [] => cases hmem
  | [first] => rw [hunique first (List.mem_singleton_self first)]
  | first :: second :: rest =>
    -- two of them would both be the field
    have hdiffer := (List.pairwise_cons.1 hdistinct).1 second List.mem_cons_self
    rw [hunique first List.mem_cons_self,
      hunique second (List.mem_cons_of_mem first List.mem_cons_self),
      FieldName.same_refl] at hdiffer
    cases hdiffer

end Field

/-! ### References -/

theorem any_distinctNames (names : List FieldName) (name : FieldName) :
    (distinctNames names).any (·.same name) = names.any (·.same name) := by
  induction names with
  | nil => rfl
  | cons first rest ih =>
    rw [distinctNames, List.any_cons, List.any_cons, ← ih]
    by_cases h : first.same name = true
    · rw [h, Bool.true_or, Bool.true_or]
    · -- what is dropped means the first name, and so not this one
      have hkept : ((distinctNames rest).filter (!·.same first)).any (·.same name) =
          (distinctNames rest).any (·.same name) := by
        rw [List.any_filter]
        refine congrArg (List.any _) (funext fun other => ?_)
        by_cases hother : other.same name = true
        · have hfirst : other.same first = false := by
            rw [Bool.eq_false_iff]
            intro hsame
            exact h ((FieldName.same_congr_left hsame name).symm.trans hother)
          rw [hother, hfirst]
          rfl
        · rw [Bool.eq_false_iff.2 hother, Bool.and_false]
      rw [hkept]

theorem Formula.mentions_eq (formula : Formula) (name : FieldName) :
    formula.mentions name = formula.expr.fields.any (·.same name) :=
  any_distinctNames formula.expr.fields name

/-- The value of an expression depends on what its own fields stand for. -/
theorem Expr.eval_congr {a b : Source} {expr : Expr} (h : ∀ name ∈ expr.fields, a name = b name) :
    expr.eval a = expr.eval b := by
  induction expr with
  | number value => rfl
  | field name =>
    have hname := h name (List.mem_singleton_self name)
    rw [eval, eval, hname]
  | binary left operation right ihl ihr =>
    have hleft := ihl fun name hmem => h name (List.mem_append_left right.fields hmem)
    have hright := ihr fun name hmem => h name (List.mem_append_right left.fields hmem)
    rw [eval, eval, hleft, hright]
  | negate inner ih =>
    rw [eval, eval, ih h]

namespace Field

/-- The formula of a calculated field as it reads, or the error that it does not read with. -/
def reading? (settings : Settings) (field : Field) : Option (Except FormulaError Formula) :=
  field.formula.map (Formula.parseWithin settings.maxFormulaLength)

/-- Whether the formula of a field reads and mentions another field. -/
def mentions (settings : Settings) (field other : Field) : Bool :=
  match field.reading? settings with
  | some (.ok formula) => formula.mentions other.name
  | _ => false

/-- The text that a field has in a period, its default included, where it is a value of the
field. -/
def validText? (entry : PeriodEntry) (field : Field) : Option String :=
  (PeriodView.textOf? (some entry) field).filter fun text =>
    match Value.parse field text with
    | .ok (some _) => true
    | _ => false

end Field

/-! ### The meaning -/

namespace Activity

def calculatedFields (activity : Activity) : List Field :=
  activity.activeFields.filter (·.isCalculated)

/-- The calculated fields that the formula of a field refers to, in display order. -/
def dependencies (settings : Settings) (activity : Activity) (field : Field) : List Field :=
  activity.calculatedFields.filter (field.mentions settings)

/-- A field reaches another along dependencies. -/
def Reaches (settings : Settings) (activity : Activity) : Field → Field → Prop :=
  TransGen fun field other => other ∈ activity.dependencies settings field

/-- A field is blocked where it lies on a cycle or reaches one. -/
def Blocked (settings : Settings) (activity : Activity) (field : Field) : Prop :=
  ∃ other, (field = other ∨ activity.Reaches settings field other) ∧
    activity.Reaches settings other other

open Classical in
/-- The fields that a field reaches and that reach it, in display order. -/
noncomputable def cycleOf (settings : Settings) (activity : Activity) (field : Field) :
    List Field :=
  activity.calculatedFields.filter fun other =>
    activity.Reaches settings field other ∧ activity.Reaches settings other field

open Classical in
/-- The first dependency of a field that lies on a cycle or reaches one. -/
noncomputable def firstBlocked? (settings : Settings) (activity : Activity) (field : Field) :
    Option Field :=
  (activity.dependencies settings field).find? fun other => activity.Blocked settings other

/-- The first dependency of a field that is shown in a period and failed there. -/
def firstFailed? (settings : Settings) (activity : Activity) (period : Nat)
    (results : Field → Except FormulaError Decimal) (field : Field) : Option Field :=
  (activity.dependencies settings field).find? fun other =>
    other.isVisibleIn period && !(results other).isOk

/-- What a reference stands for in a period: a calculated field that is shown there for what it
comes to, rounded, and any other field for its valid text. -/
def source (settings : Settings) (activity : Activity) (period : Nat) (entry : PeriodEntry)
    (results : Field → Except FormulaError Decimal) : Source := fun name =>
  match Field.find? activity.activeFields name with
  | none => .missing
  | some field =>
    if field.isCalculated then
      match field.isVisibleIn period, results field with
      | true, .ok value => .number (settings.numberFormat.round value)
      | _, _ => .missing
    else
      match field.validText? entry with
      | some text => .ofRaw text
      | none => .missing

/-- What a calculated field comes to in a period with an entry. -/
inductive Means (settings : Settings) (activity : Activity) (period : Nat) (entry : PeriodEntry) :
    Field → Except FormulaError Decimal → Prop where
  /-- The formula does not read, or is too long. -/
  | unreadable {field : Field} {error : FormulaError} :
      field.reading? settings = some (.error error) →
      Means settings activity period entry field (.error error)
  /-- The field reaches itself. -/
  | cyclic {field : Field} {formula : Formula} :
      field.reading? settings = some (.ok formula) →
      activity.Reaches settings field field →
      Means settings activity period entry field
        (.error (.ofCycle ((activity.cycleOf settings field).map (·.name))))
  /-- A dependency lies on a cycle or reaches one. -/
  | behind {field other : Field} {formula : Formula} :
      field.reading? settings = some (.ok formula) →
      ¬ activity.Reaches settings field field →
      activity.firstBlocked? settings field = some other →
      Means settings activity period entry field (.error (.dependencyFailed other.name.spelling))
  /-- A dependency that is shown in the period failed. -/
  | failed {field other : Field} {formula : Formula}
      {results : Field → Except FormulaError Decimal} :
      field.reading? settings = some (.ok formula) →
      ¬ activity.Blocked settings field →
      (∀ dependency ∈ activity.dependencies settings field, dependency.isVisibleIn period = true →
        Means settings activity period entry dependency (results dependency)) →
      activity.firstFailed? settings period results field = some other →
      Means settings activity period entry field (.error (.dependencyFailed other.name.spelling))
  /-- The formula is evaluated. -/
  | evaluated {field : Field} {formula : Formula}
      {results : Field → Except FormulaError Decimal} :
      field.reading? settings = some (.ok formula) →
      ¬ activity.Blocked settings field →
      (∀ dependency ∈ activity.dependencies settings field, dependency.isVisibleIn period = true →
        Means settings activity period entry dependency (results dependency)) →
      activity.firstFailed? settings period results field = none →
      Means settings activity period entry field
        (formula.eval (activity.source settings period entry results))

/-! ### Uniqueness -/

section

variable {settings : Settings} {activity : Activity}

theorem mem_dependencies {field other : Field} {formula : Formula}
    (hread : field.reading? settings = some (.ok formula)) :
    other ∈ activity.dependencies settings field ↔
      other ∈ activity.calculatedFields ∧ formula.mentions other.name = true := by
  have hmentions : field.mentions settings other = formula.mentions other.name := by
    rw [Field.mentions, hread]
  rw [dependencies, List.mem_filter, hmentions]

theorem Blocked.of_reaches_self {field : Field} (h : activity.Reaches settings field field) :
    activity.Blocked settings field :=
  ⟨field, .inl rfl, h⟩

theorem Blocked.of_dependency {field other : Field}
    (hmem : other ∈ activity.dependencies settings field)
    (h : activity.Blocked settings other) : activity.Blocked settings field :=
  exists_cycle_iff_exists_step.2 ⟨other, hmem, h⟩

theorem Blocked.exists_dependency {field : Field} (h : activity.Blocked settings field) :
    ∃ other ∈ activity.dependencies settings field, activity.Blocked settings other :=
  exists_cycle_iff_exists_step.1 h

theorem blocked_of_firstBlocked? {field other : Field}
    (h : activity.firstBlocked? settings field = some other) : activity.Blocked settings field := by
  have hblocked : activity.Blocked settings other := by
    simpa using List.find?_some h
  exact .of_dependency (List.mem_of_find?_eq_some h) hblocked

/-- Which dependency failed first is seen from the results that they have in the period. -/
theorem firstFailed?_congr {period : Nat} {results results' : Field → Except FormulaError Decimal}
    {field : Field}
    (h : ∀ dependency ∈ activity.dependencies settings field,
      dependency.isVisibleIn period = true → results dependency = results' dependency) :
    activity.firstFailed? settings period results field =
      activity.firstFailed? settings period results' field := by
  rw [firstFailed?, firstFailed?, ← List.head?_filter, ← List.head?_filter]
  refine congrArg List.head? (List.filter_congr fun other hmem => ?_)
  cases hvisible : other.isVisibleIn period with
  | false => rfl
  | true => rw [h other hmem hvisible]

/-- A formula sees only those results that its dependencies have in the period. -/
theorem eval_source_congr {period : Nat} {entry : PeriodEntry}
    {results results' : Field → Except FormulaError Decimal} {field : Field} {formula : Formula}
    (hread : field.reading? settings = some (.ok formula))
    (h : ∀ dependency ∈ activity.dependencies settings field,
      dependency.isVisibleIn period = true → results dependency = results' dependency) :
    formula.eval (activity.source settings period entry results) =
      formula.eval (activity.source settings period entry results') := by
  refine Expr.eval_congr fun name hmem => ?_
  unfold source
  cases hfind : Field.find? activity.activeFields name with
  | none => rfl
  | some other =>
    dsimp only
    split
    · rename_i hcalculated
      have hsame := Field.same_of_find? hfind
      -- a calculated field that the formula names is a dependency
      have hdependency : other ∈ activity.dependencies settings field := by
        rw [mem_dependencies hread, calculatedFields, List.mem_filter]
        refine ⟨⟨List.mem_of_find?_eq_some hfind, hcalculated⟩, ?_⟩
        rw [Formula.mentions_eq]
        exact List.any_eq_true.2 ⟨name, hmem, (FieldName.same_comm name other.name).trans hsame⟩
      cases hvisible : other.isVisibleIn period with
      | false => rfl
      | true => rw [h other hdependency hvisible]
    · rfl

/-- **A field means at most one thing in a period.** -/
theorem Means.unique {period : Nat} {entry : PeriodEntry} {field : Field}
    {result result' : Except FormulaError Decimal}
    (h : activity.Means settings period entry field result)
    (h' : activity.Means settings period entry field result') : result = result' := by
  induction h generalizing result' with
  | unreadable hread =>
    cases h' with
    | unreadable hread' =>
      cases hread.symm.trans hread'
      rfl
    | cyclic hread' | behind hread' | failed hread' | evaluated hread' =>
      cases hread.symm.trans hread'
  | cyclic hread hcycle =>
    cases h' with
    | unreadable hread' => cases hread.symm.trans hread'
    | cyclic => rfl
    | behind _ hself => exact absurd hcycle hself
    | failed _ hfree | evaluated _ hfree => exact absurd (.of_reaches_self hcycle) hfree
  | behind hread hself hfirst =>
    cases h' with
    | unreadable hread' => cases hread.symm.trans hread'
    | cyclic _ hcycle => exact absurd hcycle hself
    | behind _ _ hfirst' => rw [Option.some.inj (hfirst.symm.trans hfirst')]
    | failed _ hfree | evaluated _ hfree => exact absurd (blocked_of_firstBlocked? hfirst) hfree
  | failed hread hfree _ hfirst ih =>
    -- by induction, the two derivations see the same results of the dependencies
    cases h' with
    | unreadable hread' => cases hread.symm.trans hread'
    | cyclic _ hcycle => exact absurd (.of_reaches_self hcycle) hfree
    | behind _ _ hblocked => exact absurd (blocked_of_firstBlocked? hblocked) hfree
    | failed _ _ hresults' hfirst' =>
      rw [firstFailed?_congr fun d hd hvisible => ih d hd hvisible (hresults' d hd hvisible),
        hfirst'] at hfirst
      rw [Option.some.inj hfirst]
    | evaluated _ _ hresults' hnone' =>
      rw [firstFailed?_congr fun d hd hvisible => ih d hd hvisible (hresults' d hd hvisible),
        hnone'] at hfirst
      cases hfirst
  | evaluated hread hfree _ hnone ih =>
    cases h' with
    | unreadable hread' => cases hread.symm.trans hread'
    | cyclic _ hcycle => exact absurd (.of_reaches_self hcycle) hfree
    | behind _ _ hblocked => exact absurd (blocked_of_firstBlocked? hblocked) hfree
    | failed _ _ hresults' hfirst' =>
      rw [firstFailed?_congr fun d hd hvisible => ih d hd hvisible (hresults' d hd hvisible),
        hfirst'] at hnone
      cases hnone
    | evaluated hread' _ hresults' _ =>
      cases hread.symm.trans hread'
      exact eval_source_congr hread fun d hd hvisible =>
        ih d hd hvisible (hresults' d hd hvisible)

end

end Activity

end PeriodSheet
