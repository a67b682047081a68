import PeriodSheet.Plan
import PeriodSheet.Proofs.Dependency.Fields
import PeriodSheet.Proofs.Dependency.Order
import PeriodSheet.Proofs.Meaning

/-!
# References among calculated fields

The graph that a plan is made from, told from the fields.  Where the names of the active fields are
distinct, the node of a rank is the calculated field at that place, its targets are the field's
dependencies, and what nodes reach, which of them are blocked and what cycles they are on is what
the fields say.
-/

namespace PeriodSheet

/-! ### The graph of an activity -/

namespace ReadField

/-- A calculated field with its formula as read. -/
def ofField (limit : Nat) (field : Field) : ReadField :=
  ⟨field.name, Formula.parseWithin limit (field.formula.getD "")⟩

theorem ofFields_eq (limit : Nat) (fields : List Field) :
    ofFields limit fields = (fields.filter (·.isCalculated)).map (ofField limit) := by
  induction fields with
  | nil => rfl
  | cons field rest ih =>
    rw [ofFields, List.filterMap_cons, List.filter_cons, Field.isCalculated]
    cases hformula : field.formula with
    | none => exact ih
    | some source =>
      have hhead : ofField limit field = ⟨field.name, Formula.parseWithin limit source⟩ := by
        rw [ofField, hformula, Option.getD_some]
      have htail : rest.filterMap (fun field => field.formula.map fun source =>
          (⟨field.name, Formula.parseWithin limit source⟩ : ReadField)) =
            (rest.filter (·.isCalculated)).map (ofField limit) := ih
      simp only [Option.map_some, Option.isSome_some, if_true, List.map_cons, hhead, htail]

/-- A calculated field reads as its formula does. -/
theorem reading?_eq (settings : Settings) {field : Field} (h : field.isCalculated = true) :
    field.reading? settings = some (ofField settings.maxFormulaLength field).formula := by
  obtain ⟨source, hsource⟩ := Option.isSome_iff_exists.1 h
  rw [Field.reading?, ofField, hsource]
  rfl

theorem any_references (settings : Settings) {field : Field} (h : field.isCalculated = true)
    (other : Field) :
    (ofField settings.maxFormulaLength field).references.any (·.same other.name) =
      field.mentions settings other := by
  rw [Field.mentions, reading?_eq settings h, references]
  cases (ofField settings.maxFormulaLength field).formula with
  | ok formula => rfl
  | error error => rfl

end ReadField

namespace Activity

/-- The names of the active fields are distinct. -/
def NamesDistinct (activity : Activity) : Prop :=
  activity.activeFields.Pairwise fun a b => a.name.same b.name = false

instance (activity : Activity) : Decidable activity.NamesDistinct :=
  inferInstanceAs (Decidable (List.Pairwise _ _))

variable {settings : Settings} {activity : Activity}

theorem NamesDistinct.eq_of_same (hnames : activity.NamesDistinct) {field other : Field}
    (hfield : field ∈ activity.activeFields) (hother : other ∈ activity.activeFields)
    (h : field.name.same other.name = true) : field = other :=
  Field.eq_of_same hnames hfield hother h

theorem mem_activeFields {field : Field} (h : field ∈ activity.calculatedFields) :
    field ∈ activity.activeFields ∧ field.isCalculated = true :=
  List.mem_filter.1 h

theorem NamesDistinct.find?_of_mem (hnames : activity.NamesDistinct) {field : Field}
    (hfield : field ∈ activity.activeFields) {name : FieldName}
    (h : field.name.same name = true) : Field.find? activity.activeFields name = some field :=
  Field.find?_of_mem hnames hfield h

/-- No two places of the calculated fields hold the same name. -/
theorem NamesDistinct.place_eq (hnames : activity.NamesDistinct) {i j : Nat} {field other : Field}
    (hi : activity.calculatedFields[i]? = some field)
    (hj : activity.calculatedFields[j]? = some other)
    (h : field.name.same other.name = true) : i = j := by
  have hdistinct : activity.calculatedFields.Pairwise fun a b => a.name.same b.name = false :=
    hnames.filter _
  rw [List.pairwise_iff_getElem] at hdistinct
  obtain ⟨hilt, rfl⟩ := List.getElem?_eq_some_iff.1 hi
  obtain ⟨hjlt, rfl⟩ := List.getElem?_eq_some_iff.1 hj
  rcases Nat.lt_trichotomy i j with hlt | heq | hgt
  · rw [hdistinct i j hilt hjlt hlt] at h
    cases h
  · exact heq
  · rw [FieldName.same_comm, hdistinct j i hjlt hilt hgt] at h
    cases h

/-- The graph of references among the calculated fields. -/
def graph (settings : Settings) (activity : Activity) : DependencyGraph :=
  ReadField.graph (activity.calculatedFields.map (ReadField.ofField settings.maxFormulaLength))

/-- The fields at some places. -/
def fieldsAt (activity : Activity) (ranks : List Nat) : List Field :=
  ranks.filterMap (activity.calculatedFields[·]?)

theorem wellFormed_graph (settings : Settings) (activity : Activity) :
    (activity.graph settings).WellFormed :=
  DependencyGraph.wellFormed_ofReferences _

theorem nodes_graph (settings : Settings) (activity : Activity) :
    (activity.graph settings).nodes = activity.calculatedFields.map (·.name) := by
  rw [graph, ReadField.graph, DependencyGraph.ofReferences, List.map_map, List.map_map]
  rfl

theorem size_graph (settings : Settings) (activity : Activity) :
    (activity.graph settings).size = activity.calculatedFields.length := by
  rw [DependencyGraph.size, nodes_graph, List.length_map]

/-- Ranks are named by the fields at their places. -/
theorem namesOf_graph (settings : Settings) (activity : Activity) (ranks : List Nat) :
    (activity.graph settings).namesOf ranks = (activity.fieldsAt ranks).map (·.name) := by
  rw [DependencyGraph.namesOf, nodes_graph, fieldsAt, List.map_filterMap]
  exact List.filterMap_congr fun rank _ => List.getElem?_map

/-- A name has the rank of the field that it means. -/
theorem rankIn?_eq_some (hnames : activity.NamesDistinct) {name : FieldName} {rank : Nat} :
    DependencyGraph.rankIn? (activity.calculatedFields.map (·.name)) name = some rank ↔
      ∃ field, activity.calculatedFields[rank]? = some field ∧ field.name.same name = true := by
  have hdistinct : (activity.calculatedFields.map (·.name)).Pairwise fun a b => a.same b = false :=
    List.pairwise_map.2 (hnames.filter _)
  rw [DependencyGraph.rankIn?_eq_some hdistinct, List.getElem?_map]
  simp

/-- The rank of a target is among those of a field's references where the field mentions it. -/
theorem contains_targets (hnames : activity.NamesDistinct) {field other : Field} {rank : Nat}
    (hfield : field.isCalculated = true)
    (hother : activity.calculatedFields[rank]? = some other) :
    ((ReadField.ofField settings.maxFormulaLength field).references.filterMap
      (DependencyGraph.rankIn? (activity.calculatedFields.map (·.name)))).contains rank =
        field.mentions settings other := by
  rw [← ReadField.any_references settings hfield, Bool.eq_iff_iff, List.contains_iff_mem,
    List.mem_filterMap, List.any_eq_true]
  -- a name that is referred to has the rank where it is the name of the field there
  refine exists_congr fun name => and_congr_right fun _ => ?_
  rw [rankIn?_eq_some hnames, hother, FieldName.same_comm]
  simp

/-- The targets of a node are kept by what the field at its place mentions. -/
theorem targetsOf_graph (settings : Settings) {field : Field} {rank : Nat}
    (hfield : activity.calculatedFields[rank]? = some field) :
    (activity.graph settings).targetsOf rank =
      (List.range activity.calculatedFields.length).filter fun target =>
        ((ReadField.ofField settings.maxFormulaLength field).references.filterMap
          (DependencyGraph.rankIn? (activity.calculatedFields.map (·.name)))).contains target := by
  obtain ⟨hlt, rfl⟩ := List.getElem?_eq_some_iff.1 hfield
  have hnodes := nodes_graph settings activity
  rw [graph, ReadField.graph, DependencyGraph.targetsOf_ofReferences _ (by simpa using hlt)]
  rw [graph, ReadField.graph, DependencyGraph.ofReferences] at hnodes
  simp only at hnodes
  rw [hnodes]
  simp

/-- The targets of a node are the dependencies of the field at its place. -/
theorem fieldsAt_targetsOf (hnames : activity.NamesDistinct) {field : Field} {rank : Nat}
    (hfield : activity.calculatedFields[rank]? = some field) :
    activity.fieldsAt ((activity.graph settings).targetsOf rank) =
      activity.dependencies settings field := by
  have hcalculated := (mem_activeFields (List.mem_of_getElem? hfield)).2
  rw [targetsOf_graph settings hfield, fieldsAt, dependencies]
  exact filterMap_getElem?_filter_range _ fun hother => contains_targets hnames hcalculated hother

/-- A node refers to those that are dependencies of the field at its place. -/
theorem refers_iff (hnames : activity.NamesDistinct) {field other : Field} {i j : Nat}
    (hi : activity.calculatedFields[i]? = some field)
    (hj : activity.calculatedFields[j]? = some other) :
    (activity.graph settings).Refers i j ↔ other ∈ activity.dependencies settings field := by
  have hcalculated := (mem_activeFields (List.mem_of_getElem? hi)).2
  rw [DependencyGraph.Refers, targetsOf_graph settings hi, List.mem_filter,
    contains_targets hnames hcalculated hj, dependencies, List.mem_filter, List.mem_range]
  exact and_congr_left fun _ => ⟨fun _ => List.mem_of_getElem? hj,
    fun _ => (List.getElem?_eq_some_iff.1 hj).1⟩

/-- What the graph gives for the dependencies of a field are their names. -/
theorem dependencies_graph (hnames : activity.NamesDistinct) {field : Field}
    (hfield : field ∈ activity.calculatedFields) :
    (activity.graph settings).dependencies field.name =
      (activity.dependencies settings field).map (·.name) := by
  obtain ⟨rank, hrank⟩ := List.getElem?_of_mem hfield
  have hfound : (activity.graph settings).rank? field.name = some rank := by
    rw [DependencyGraph.rank?, nodes_graph, rankIn?_eq_some hnames]
    exact ⟨field, hrank, FieldName.same_refl field.name⟩
  rw [DependencyGraph.dependencies, hfound]
  dsimp only
  rw [namesOf_graph, fieldsAt_targetsOf hnames hrank]

/-! ### Reaching, from nodes to fields -/

/-- References among nodes mirror the dependencies of their fields. -/
theorem mirrors_graph (hnames : activity.NamesDistinct) :
    Mirrors activity.calculatedFields (activity.graph settings).Refers
      fun field other => other ∈ activity.dependencies settings field where
  target_lt href := (wellFormed_graph settings activity).target_lt href |>.trans_eq
    (size_graph settings activity)
  mem_target hmem := (List.mem_filter.1 hmem).1
  iff := refers_iff hnames

/-- Nodes reach one another as their fields do. -/
theorem reaches_iff (hnames : activity.NamesDistinct) {field other : Field} {i j : Nat}
    (hi : activity.calculatedFields[i]? = some field)
    (hj : activity.calculatedFields[j]? = some other) :
    (activity.graph settings).Reaches i j ↔ activity.Reaches settings field other :=
  (mirrors_graph hnames).transGen.iff hi hj

/-- A node is blocked where its field is. -/
theorem blocked_iff (hnames : activity.NamesDistinct) {field : Field} {rank : Nat}
    (hrank : activity.calculatedFields[rank]? = some field) :
    (activity.graph settings).Blocked rank ↔ activity.Blocked settings field :=
  DependencyGraph.blocked_iff_exists_cycle.trans
    ((mirrors_graph hnames).transGen.exists_cycle_iff hrank)

/-- The cycle of a node is that of its field. -/
theorem fieldsAt_cycleOf (hnames : activity.NamesDistinct) {field : Field} {rank : Nat}
    (hrank : activity.calculatedFields[rank]? = some field) :
    activity.fieldsAt ((activity.graph settings).cycleOf rank) =
      activity.cycleOf settings field := by
  have hwf := wellFormed_graph settings activity
  rw [DependencyGraph.cycleOf_eq, DependencyGraph.ranks, size_graph, fieldsAt, cycleOf]
  refine filterMap_getElem?_filter_range _ fun {i other} hother => ?_
  rw [← size_graph settings, ← DependencyGraph.ranks, Bool.eq_iff_iff, Bool.and_eq_true,
    DependencyGraph.contains_reach hwf, DependencyGraph.contains_reach hwf,
    reaches_iff hnames hrank hother, reaches_iff hnames hother hrank]
  simp

end Activity

end PeriodSheet
