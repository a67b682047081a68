import PeriodSheet.Proofs.Dependency.Fields
import PeriodSheet.Proofs.Dependency.Greedy

/-!
# The order of fields

What the ordering of a list of fields with their references comes to.  The fields that have an order
are those that are not blocked, and of the orders in which each of them comes after the fields that
it refers to, theirs is the least by rank; all other fields remain
(`DependencyGraph.sort_ofReferences`).
-/

namespace PeriodSheet

namespace FieldReferences

open DependencyGraph

variable {fields : FieldReferences}

/-- An order of the fields that can be ordered: those from which no cycle is reached, each once and
after those of them that it refers to. -/
structure IsOrder (fields : FieldReferences) (order : List FieldName) : Prop where
  mem_iff : ∀ field, field ∈ order ↔ field ∈ fields.names ∧ ¬ fields.Blocked field
  nodup : order.Nodup
  after : ∀ before field later, order = before ++ field :: later →
    ∀ target ∈ order, fields.Refers field target → target ∈ before

theorem IsOrder.mem_names {order : List FieldName} (h : fields.IsOrder order) {field : FieldName}
    (hmem : field ∈ order) : field ∈ fields.names :=
  ((h.mem_iff field).1 hmem).1

/-- What a field that is not blocked refers to is not blocked. -/
theorem not_blocked_of_refers {field target : FieldName} (hfree : ¬ fields.Blocked field)
    (href : fields.Refers field target) : ¬ fields.Blocked target :=
  fun hblocked => hfree (exists_cycle_iff_exists_step.2 ⟨target, href, hblocked⟩)

/-- The ranks of an order are a legal one. -/
theorem IsOrder.legal (hdistinct : fields.Distinct) {order : List FieldName}
    (h : fields.IsOrder order) : (ofReferences fields).Legal (order.map fields.rank) := by
  have hnodup : (order.map fields.rank).Nodup :=
    h.nodup.map_on fun field hfield other _ => rank_inj (h.mem_names hfield)
  refine .of_split hnodup fun before node later hsplit target href => ?_
  -- the split of the ranks is one of the fields
  obtain ⟨first, rest, rfl, rfl, hrest⟩ := List.map_eq_append_iff.1 hsplit
  obtain ⟨field, last, rfl, rfl, rfl⟩ := List.map_eq_cons_iff.1 hrest
  have hfield : field ∈ first ++ field :: last := by simp
  have htarget := List.getElem?_eq_getElem (hdistinct.mirrors.target_lt href)
  have hrefers := (hdistinct.mirrors.iff (getElem?_rank (h.mem_names hfield)) htarget).1 href
  have hlisted := (h.mem_iff _).2 ⟨List.mem_of_getElem? htarget,
    not_blocked_of_refers ((h.mem_iff field).1 hfield).2 hrefers⟩
  rw [← hdistinct.rank_of_getElem? htarget]
  exact List.mem_map_of_mem (h.after first field last rfl _ hlisted hrefers)

/-! ### The order that comes out -/

/-- The fields that come out ordered. -/
def ordered (fields : FieldReferences) : List FieldName :=
  (ofReferences fields).namesOf (ofReferences fields).order

/-- The fields that come out without an order. -/
def unordered (fields : FieldReferences) : List FieldName :=
  (ofReferences fields).namesOf ((ofReferences fields).missing (ofReferences fields).order)

theorem sort_eq (fields : FieldReferences) :
    (ofReferences fields).sort =
      if (ofReferences fields).order.length = (ofReferences fields).size then .ok fields.ordered
      else .error ⟨fields.ordered, fields.unordered⟩ :=
  rfl

section

variable (hdistinct : fields.Distinct)

include hdistinct

theorem map_rank_ordered : fields.ordered.map fields.rank = (ofReferences fields).order :=
  hdistinct.map_rank_namesOf fun _ hmem =>
    ((mem_order (wellFormed_ofReferences fields)).1 hmem).1

theorem mem_ordered {field : FieldName} :
    field ∈ fields.ordered ↔ field ∈ fields.names ∧ ¬ fields.Blocked field := by
  have hwf := wellFormed_ofReferences fields
  constructor
  · intro hmem
    have hfield := mem_names_of_mem_namesOf hmem
    have horder := (hdistinct.mem_namesOf hfield).1 hmem
    rw [← blocked_rank_iff hdistinct hfield]
    exact ⟨hfield, ((mem_order hwf).1 horder).2⟩
  · rintro ⟨hfield, hfree⟩
    rw [← blocked_rank_iff hdistinct hfield] at hfree
    exact (hdistinct.mem_namesOf hfield).2
      ((mem_order hwf).2 ⟨rank_lt hfield, hfree⟩)

/-- What remains are the fields without an order, by rank. -/
theorem unordered_eq : fields.unordered = fields.names.filter (!fields.ordered.contains ·) := by
  refine filterMap_getElem?_filter_range fields.names fun {place field} hplace => ?_
  have hmem : field ∈ fields.ordered ↔ place ∈ (ofReferences fields).order := by
    rw [ordered, hdistinct.mem_namesOf (List.mem_of_getElem? hplace),
      hdistinct.rank_of_getElem? hplace]
  simp [hmem]

theorem mem_unordered {field : FieldName} :
    field ∈ fields.unordered ↔ field ∈ fields.names ∧ fields.Blocked field := by
  rw [unordered_eq hdistinct, List.mem_filter]
  refine and_congr_right fun hfield => ?_
  simp [mem_ordered hdistinct, hfield]

theorem isOrder_ordered : fields.IsOrder fields.ordered where
  mem_iff _ := mem_ordered hdistinct
  nodup := by
    have hlegal := legal_order (wellFormed_ofReferences fields)
    exact .of_map fields.rank (map_rank_ordered hdistinct ▸ hlegal.nodup)
  after before field later hsplit target htarget href := by
    have hlegal := legal_order (wellFormed_ofReferences fields)
    have hfield : field ∈ fields.names :=
      ((mem_ordered hdistinct).1 (hsplit ▸ List.mem_append_right before List.mem_cons_self)).1
    have htarget := ((mem_ordered hdistinct).1 htarget).1
    rw [← map_rank_ordered hdistinct, hsplit, List.map_append, List.map_cons] at hlegal
    -- a node that may follow has its targets before it
    have hbefore := (hlegal.mayFollow (rank_lt hfield)).2.2 _
      ((refers_rank_iff hdistinct hfield htarget).2 href)
    obtain ⟨other, hother, hrank⟩ := List.mem_map.1 hbefore
    rwa [rank_inj htarget hrank.symm]

/-- No order of the fields is lower than the one that comes out. -/
theorem IsOrder.eq_or_lex {other : List FieldName} (h : fields.IsOrder other) :
    fields.ordered = other ∨
      List.Lex (· < ·) (fields.ordered.map fields.rank) (other.map fields.rank) := by
  have hwf := wellFormed_ofReferences fields
  have hfirst := isOrder_ordered hdistinct
  -- both orders are of the same fields
  have hperm : fields.ordered.Perm other := by
    rw [List.perm_ext_iff_of_nodup hfirst.nodup h.nodup]
    exact fun field => (hfirst.mem_iff field).trans (h.mem_iff field).symm
  have hlt : ∀ node ∈ other.map fields.rank, node < (ofReferences fields).size := by
    intro node hnode
    obtain ⟨field, hfield, rfl⟩ := List.mem_map.1 hnode
    exact rank_lt (h.mem_names hfield)
  have hgreedy : (ofReferences fields).Greedy ([] ++ fields.ordered.map fields.rank) := by
    rw [map_rank_ordered hdistinct]
    exact greedy_order hwf
  have hlength : (fields.ordered.map fields.rank).length = (other.map fields.rank).length := by
    rw [List.length_map, List.length_map, hperm.length_eq]
  refine (hgreedy.eq_or_lex (h.legal hdistinct) hlt hlength).imp_left fun heq => ?_
  -- fields of the same ranks are the same
  rw [← namesOf_map_rank fun _ => hfirst.mem_names, heq, namesOf_map_rank fun _ => h.mem_names]

/-- All fields have an order where none of them reaches itself. -/
theorem length_order_iff :
    (ofReferences fields).order.length = (ofReferences fields).size ↔
      ∀ field, ¬ fields.Reaches field field := by
  have hwf := wellFormed_ofReferences fields
  constructor
  · intro hlength field hcycle
    -- a field that does would remain
    have hmem : field ∈ fields.unordered := (mem_unordered hdistinct).2
      ⟨mem_names_of_reaches hcycle, field, .inl rfl, hcycle⟩
    rw [unordered, missing_order_eq_nil hwf hlength] at hmem
    cases hmem
  · intro hacyclic
    have hperm : fields.ordered.Perm fields.names := by
      rw [List.perm_ext_iff_of_nodup (isOrder_ordered hdistinct).nodup hdistinct.nodup]
      intro field
      rw [mem_ordered hdistinct]
      exact and_iff_left fun ⟨other, _, hcycle⟩ => hacyclic other hcycle
    rw [← map_rank_ordered hdistinct, List.length_map, hperm.length_eq]
    rfl

theorem sort_eq_ok_iff :
    (∃ order, (ofReferences fields).sort = .ok order) ↔ ∀ field, ¬ fields.Reaches field field := by
  rw [← length_order_iff hdistinct, sort_eq]
  split <;> simp [*]

end

end FieldReferences

namespace DependencyGraph

open FieldReferences

/-- **Sorting orders what can be ordered, the lowest rank first.**

* All fields have an order where no field reaches itself.
* Otherwise the outcome tells the fields that have one, and by rank the others.
* Those that have one are the fields from which no cycle is reached, each once and after those that
  it refers to, and no other such order is lower, rank by rank.
* All along, no count of the references that wait goes below zero. -/
theorem sort_ofReferences (fields : FieldReferences) (hdistinct : fields.Distinct) :
    let graph := ofReferences fields
    ((∃ order, graph.sort = .ok order) ↔ ∀ field, ¬ fields.Reaches field field) ∧
    (∃ sorted,
      (graph.sort = .ok sorted ∨
        graph.sort = .error ⟨sorted, fields.names.filter (!sorted.contains ·)⟩) ∧
      fields.IsOrder sorted ∧
      ∀ other, fields.IsOrder other →
        sorted = other ∨ List.Lex (· < ·) (sorted.map fields.rank) (other.map fields.rank)) ∧
    ∀ progress, Progress.Passes graph progress → ∀ count ∈ progress.waiting, 0 ≤ count := by
  intro graph
  refine ⟨sort_eq_ok_iff hdistinct, ⟨fields.ordered, ?_, isOrder_ordered hdistinct,
    fun other hother => hother.eq_or_lex hdistinct⟩,
    fun progress hpasses => hpasses.waiting_nonneg (wellFormed_ofReferences fields)⟩
  rw [← unordered_eq hdistinct, sort_eq fields]
  split
  · exact .inl rfl
  · exact .inr rfl

/-- Of the budget, the fields that lie on no cycle and behind none are ordered. -/
theorem sort_ofReferences_budget :
    Budget.references.Distinct ∧
      (ofReferences Budget.references).sort = .error
        { resolved := [Budget.gross, Budget.tax, Budget.net]
          remaining := [Budget.loan, Budget.interest, Budget.reserve, Budget.rest] } ∧
      Budget.references.IsOrder [Budget.gross, Budget.tax, Budget.net] ∧
      ∃ field, Budget.references.Reaches field field := by
  have hdistinct : Budget.references.Distinct := by decide
  have hsort : (ofReferences Budget.references).sort = .error
      { resolved := [Budget.gross, Budget.tax, Budget.net]
        remaining := [Budget.loan, Budget.interest, Budget.reserve, Budget.rest] } := by
    decide +kernel
  obtain ⟨hok, ⟨sorted, houtcome, horder, -⟩, -⟩ := sort_ofReferences Budget.references hdistinct
  rw [hsort] at hok houtcome
  refine ⟨hdistinct, hsort, ?_, ?_⟩
  · obtain ⟨rfl, -⟩ := by simpa using houtcome
    exact horder
  · by_contra hnone
    obtain ⟨order, hcontra⟩ := hok.2 (not_exists.1 hnone)
    cases hcontra

end DependencyGraph

end PeriodSheet
