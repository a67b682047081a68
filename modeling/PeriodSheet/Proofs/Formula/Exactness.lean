import PeriodSheet.Formula.Eval
import PeriodSheet.Proofs.Decimal.Arithmetic

/-!
# Exact evaluation

What evaluating an expression comes to, told from the rational numbers that its decimals stand for.

* An operation fails where it divides by zero, or where its exact result is too large
  (`Operation.Fails`).
* **An expression fails as the first of its nodes that fails**, where the nodes are taken depth
  first and from left to right (`Expr.eval_eq_error_iff`).
* **An expression is evaluated exactly** where the exact value of each of its nodes is that of a
  decimal (`Expr.exists_eval_of_nodes`), and so where all of them fit at the scale that they have
  without any rounding (`Expr.natural?`).
-/

namespace PeriodSheet

open Decimal

/-! ### Operations -/

namespace Operation

/-- The exact result of an operation. -/
def exactResult : Operation → ℚ → ℚ → ℚ
  | .add, a, b => a + b
  | .sub, a, b => a - b
  | .mul, a, b => a * b
  | .div, a, b => a / b

/-- How an operation on two numbers fails. -/
inductive Fails (a b : Decimal) : Operation → FormulaError → Prop where
  | divisionByZero (hzero : b.value = 0) : Fails a b .div .divisionByZero
  | overflow {operation : Operation} (hdivisor : operation = .div → b.value ≠ 0)
      (hlarge : overflowBound ≤ |operation.exactResult a.value b.value|) :
      Fails a b operation .overflow

variable {operation : Operation} {a b : Decimal}

theorem apply_div_of_zero (a : Decimal) (h : b.value = 0) :
    Operation.div.apply a b = .error .divisionByZero :=
  if_pos ⟨rfl, b.value_eq_zero_iff.1 h⟩

/-- Division by zero aside, an operation gives its exact result. -/
theorem exists_gives (h : operation = .div → b.value ≠ 0) :
    ∃ result, Gives result (operation.exactResult a.value b.value) ∧
      operation.apply a b = result.elim (.error .overflow) .ok := by
  have hdivisor : ¬ (operation = .div ∧ b.isZero = true) :=
    fun hzero => h hzero.1 (b.value_eq_zero_iff.2 hzero.2)
  unfold apply
  rw [if_neg hdivisor]
  cases operation with
  | add =>
    refine ⟨a.add? b, gives_add? a b, ?_⟩
    cases a.add? b <;> rfl
  | sub =>
    refine ⟨a.sub? b, gives_sub? a b, ?_⟩
    cases a.sub? b <;> rfl
  | mul =>
    refine ⟨a.mul? b, gives_mul? a b, ?_⟩
    cases a.mul? b <;> rfl
  | div =>
    refine ⟨a.div? b, gives_div? a (h rfl), ?_⟩
    cases a.div? b <;> rfl

/-- **An operation fails where it divides by zero, or where its exact result is too large.** -/
theorem apply_eq_error_iff {error : FormulaError} :
    operation.apply a b = .error error ↔ operation.Fails a b error := by
  constructor
  · intro h
    by_cases hzero : operation = .div ∧ b.value = 0
    · obtain ⟨rfl, hzero⟩ := hzero
      rw [apply_div_of_zero a hzero] at h
      cases h
      exact .divisionByZero hzero
    · have hdivisor : operation = .div → b.value ≠ 0 := fun hdiv hvalue => hzero ⟨hdiv, hvalue⟩
      obtain ⟨result, hgives, hresult⟩ := exists_gives (a := a) hdivisor
      rw [hresult] at h
      cases result with
      | none =>
        cases h
        exact .overflow hdivisor (hgives.eq_none_iff.1 rfl)
      | some value => cases h
  · rintro (hzero | ⟨hdivisor, hlarge⟩)
    · exact apply_div_of_zero a hzero
    · obtain ⟨result, hgives, hresult⟩ := exists_gives (a := a) hdivisor
      rw [hresult, hgives.eq_none_iff.2 hlarge]
      rfl

end Operation

/-- The exact number that a reference stands for; a missing field counts as zero. -/
def Operand.exactValue? : Operand → Option ℚ
  | .missing => some 0
  | .number value => some value.value
  | .text _ => none

namespace Expr

/-! ### The first failure -/

/-- The nodes of an expression in the order in which they are evaluated: depth first, the left
operand before the right one, and both before their operation. -/
def nodes : Expr → List Expr
  | .number value => [.number value]
  | .field name => [.field name]
  | .binary left operation right => left.nodes ++ right.nodes ++ [.binary left operation right]
  | .negate inner => inner.nodes ++ [.negate inner]

/-- How a node fails by itself: a field stands for a text, or an operation fails on the values of
its operands. -/
inductive Fails (source : Source) : Expr → FormulaError → Prop where
  | text {name : FieldName} {text : String} (htext : source name = .text text) :
      Fails source (.field name) (.forbidden text 0)
  | operation {left right : Expr} {operation : Operation} {a b : Decimal} {error : FormulaError}
      (hleft : left.eval source = .ok a) (hright : right.eval source = .ok b)
      (hfails : operation.Fails a b error) : Fails source (.binary left operation right) error

variable {source : Source} {expr : Expr}

theorem eval_of_fails {error : FormulaError} (h : expr.Fails source error) :
    expr.eval source = .error error := by
  cases h with
  | text htext => rw [eval, htext, Operand.value]
  | operation hleft hright hfails =>
    rw [eval, hleft, hright]
    exact Operation.apply_eq_error_iff.2 hfails

/-- An expression that has a value has values at all its nodes. -/
theorem isOk_eval_of_mem_nodes (h : (expr.eval source).isOk = true) :
    ∀ node ∈ expr.nodes, (node.eval source).isOk = true := by
  induction expr with
  | number value | field name =>
    intro node hnode
    rw [List.mem_singleton.1 hnode]
    exact h
  | binary left operation right ihleft ihright =>
    have hoperands : (left.eval source).isOk = true ∧ (right.eval source).isOk = true := by
      rw [eval] at h
      split at h
      · cases h
      · next hleft =>
        split at h
        · cases h
        · next hright => exact ⟨by rw [hleft]; rfl, by rw [hright]; rfl⟩
    intro node hnode
    rcases List.mem_append.1 hnode with hnode | hself
    · rcases List.mem_append.1 hnode with hnode | hnode
      · exact ihleft hoperands.1 node hnode
      · exact ihright hoperands.2 node hnode
    · rw [List.mem_singleton.1 hself]
      exact h
  | negate inner ih =>
    have hinner : (inner.eval source).isOk = true := by
      rw [eval] at h
      split at h
      · cases h
      · next hinner => rw [hinner]; rfl
    intro node hnode
    rcases List.mem_append.1 hnode with hnode | hself
    · exact ih hinner node hnode
    · rw [List.mem_singleton.1 hself]
      exact h

/-- A node, where it has no value. -/
def failing? (source : Source) (node : Expr) : Option Expr :=
  if (node.eval source).isOk then none else some node

/-- The first node without a value. -/
def firstFailing? (source : Source) (expr : Expr) : Option Expr :=
  expr.nodes.findSome? (failing? source)

theorem firstFailing?_binary (source : Source) (left : Expr) (operation : Operation)
    (right : Expr) :
    (Expr.binary left operation right).firstFailing? source =
      ((left.firstFailing? source).or (right.firstFailing? source)).or
        ((Expr.binary left operation right).failing? source) := by
  rw [firstFailing?, nodes, List.findSome?_append, List.findSome?_append,
    List.findSome?_singleton]
  rfl

theorem firstFailing?_negate (source : Source) (inner : Expr) :
    (Expr.negate inner).firstFailing? source =
      (inner.firstFailing? source).or ((Expr.negate inner).failing? source) := by
  rw [firstFailing?, nodes, List.findSome?_append, List.findSome?_singleton]
  rfl

theorem failing?_of_error {error : FormulaError} (h : expr.eval source = .error error) :
    expr.failing? source = some expr := by
  rw [failing?, h]
  rfl

theorem firstFailing?_of_ok {value : Decimal} (h : expr.eval source = .ok value) :
    expr.firstFailing? source = none := by
  have hok : (expr.eval source).isOk = true := by rw [h]; rfl
  rw [firstFailing?, List.findSome?_eq_none_iff]
  intro node hnode
  rw [failing?, if_pos (isOk_eval_of_mem_nodes hok node hnode)]

theorem exists_fails_of_error {error : FormulaError} (h : expr.eval source = .error error) :
    ∃ node, expr.firstFailing? source = some node ∧ node.Fails source error := by
  induction expr with
  | number value => cases h
  | field name =>
    have hfirst : (Expr.field name).firstFailing? source = some (.field name) := by
      rw [firstFailing?, nodes, List.findSome?_singleton, failing?_of_error h]
    refine ⟨.field name, hfirst, ?_⟩
    rw [eval] at h
    cases hname : source name with
    | missing =>
      rw [hname] at h
      cases h
    | number value =>
      rw [hname] at h
      cases h
    | text text =>
      rw [hname] at h
      cases h
      exact .text hname
  | binary left operation right ihleft ihright =>
    rw [firstFailing?_binary]
    have heval := h
    rw [eval] at heval
    split at heval
    · next first hleft =>
      obtain ⟨node, hnode, hfails⟩ := ihleft (hleft.trans heval)
      exact ⟨node, by rw [hnode]; rfl, hfails⟩
    · next a hleft =>
      rw [firstFailing?_of_ok hleft, Option.none_or]
      split at heval
      · next second hright =>
        obtain ⟨node, hnode, hfails⟩ := ihright (hright.trans heval)
        exact ⟨node, by rw [hnode]; rfl, hfails⟩
      · next b hright =>
        -- both operands have values, so that the operation itself fails
        rw [firstFailing?_of_ok hright, Option.none_or]
        exact ⟨_, failing?_of_error h,
          .operation hleft hright (Operation.apply_eq_error_iff.1 heval)⟩
  | negate inner ih =>
    rw [firstFailing?_negate]
    rw [eval] at h
    split at h
    · next first hinner =>
      obtain ⟨node, hnode, hfails⟩ := ih (hinner.trans h)
      exact ⟨node, by rw [hnode]; rfl, hfails⟩
    · cases h

/-- **An expression fails as the first of its nodes that fails.** -/
theorem eval_eq_error_iff {error : FormulaError} :
    expr.eval source = .error error ↔
      ∃ node, expr.firstFailing? source = some node ∧ node.Fails source error := by
  refine ⟨exists_fails_of_error, ?_⟩
  rintro ⟨node, hnode, hfails⟩
  cases heval : expr.eval source with
  | ok value =>
    rw [firstFailing?_of_ok heval] at hnode
    cases hnode
  | error found =>
    -- it is the same node, and a node fails in one way
    obtain ⟨other, hother, hother'⟩ := exists_fails_of_error heval
    obtain rfl : node = other := Option.some.inj (hnode.symm.trans hother)
    exact (eval_of_fails hother').symm.trans (eval_of_fails hfails)

/-! ### Exact values -/

/-- The exact value of an expression, which has none where it meets a text or divides by zero. -/
def exactValue? (source : Source) : Expr → Option ℚ
  | .number value => some value.value
  | .field name => (source name).exactValue?
  | .binary left operation right => do
    let a ← left.exactValue? source
    let b ← right.exactValue? source
    if operation = .div ∧ b = 0 then none else some (operation.exactResult a b)
  | .negate inner => (inner.exactValue? source).map (- ·)

/-- **An expression is evaluated exactly where all its nodes have values that are decimals.** -/
theorem exists_eval_of_nodes
    (h : ∀ node ∈ expr.nodes, ∃ d : Decimal, node.exactValue? source = some d.value) :
    ∃ result, expr.eval source = .ok result ∧ expr.exactValue? source = some result.value := by
  induction expr with
  | number value => exact ⟨value, rfl, rfl⟩
  | field name =>
    obtain ⟨d, hd⟩ := h (.field name) (List.mem_singleton_self _)
    rw [exactValue?] at hd ⊢
    rw [eval]
    cases hname : source name with
    | missing => exact ⟨.zero, rfl, by rw [Operand.exactValue?, value_zero]⟩
    | number value => exact ⟨value, rfl, rfl⟩
    | text text =>
      rw [hname] at hd
      cases hd
  | binary left operation right ihleft ihright =>
    obtain ⟨a, hleft, ha⟩ := ihleft fun node hnode =>
      h node (List.mem_append_left _ (List.mem_append_left _ hnode))
    obtain ⟨b, hright, hb⟩ := ihright fun node hnode =>
      h node (List.mem_append_left _ (List.mem_append_right _ hnode))
    obtain ⟨d, hd⟩ := h (.binary left operation right)
      (List.mem_append_right _ (List.mem_singleton_self _))
    have hexact : (Expr.binary left operation right).exactValue? source =
        if operation = .div ∧ b.value = 0 then none
        else some (operation.exactResult a.value b.value) := by
      rw [exactValue?, ha, hb]
      rfl
    rw [hexact] at hd ⊢
    split at hd
    · cases hd
    · next hdivisor =>
      obtain ⟨result, hgives, happly⟩ := Operation.exists_gives (a := a) (b := b)
        fun hdiv hzero => hdivisor ⟨hdiv, hzero⟩
      obtain ⟨r, hr, hvalue⟩ := hgives.of_value d (Option.some.inj hd).symm
      refine ⟨r, ?_, by rw [if_neg hdivisor, hvalue]⟩
      rw [eval, hleft, hright]
      exact happly.trans (by rw [hr]; rfl)
  | negate inner ih =>
    obtain ⟨a, hinner, ha⟩ := ih fun node hnode => h node (List.mem_append_left _ hnode)
    refine ⟨a.neg, by rw [eval, hinner], ?_⟩
    rw [exactValue?, ha, value_neg]
    rfl

/-! ### Natural scales -/

/-- The exact result of an expression without divisions at the scale that it has by itself: that of
its number, the larger one of two that are added, and both together of two that are multiplied. -/
def natural? (source : Source) : Expr → Option Scaled
  | .number value => some value.scaled
  | .field name =>
    match source name with
    | .missing => some Decimal.zero.scaled
    | .number value => some value.scaled
    | .text _ => none
  | .binary left operation right => do
    let a ← left.natural? source
    let b ← right.natural? source
    match operation with
    | .add => some (a.add b)
    | .sub => some (a.add b.neg)
    | .mul => some (a.mul b)
    | .div => none
  | .negate inner => (inner.natural? source).map (·.neg)

theorem exactValue?_of_natural? {x : Scaled} (h : expr.natural? source = some x) :
    expr.exactValue? source = some x.value := by
  induction expr generalizing x with
  | number value =>
    cases h
    rfl
  | field name =>
    rw [natural?] at h
    rw [exactValue?]
    cases hname : source name with
    | missing =>
      rw [hname] at h
      cases h
      rw [Operand.exactValue?, value_scaled, value_zero]
    | number value =>
      rw [hname] at h
      cases h
      rfl
    | text text =>
      rw [hname] at h
      cases h
  | binary left operation right ihleft ihright =>
    rw [natural?] at h
    obtain ⟨a, hleft, h⟩ := Option.bind_eq_some_iff.1 h
    obtain ⟨b, hright, h⟩ := Option.bind_eq_some_iff.1 h
    rw [exactValue?, ihleft hleft, ihright hright]
    cases operation with
    | add =>
      cases h
      rw [Scaled.value_add]
      rfl
    | sub =>
      cases h
      rw [Scaled.value_add, Scaled.value_neg, ← sub_eq_add_neg]
      rfl
    | mul =>
      cases h
      rw [Scaled.value_mul]
      rfl
    | div => cases h
  | negate inner ih =>
    rw [natural?] at h
    obtain ⟨a, hinner, rfl⟩ := Option.map_eq_some_iff.1 h
    rw [exactValue?, ih hinner, Scaled.value_neg]
    rfl

/-- **Evaluation is exact, and reports the first failure.**  For every expression and whatever its
fields stand for:

* It fails exactly as the first of its nodes that has no value, depth first and from left to right:
  for a text, for a division by zero, or for a result that is too large.
* An operation on two values divides by zero exactly where it is a division and the right value is
  zero, of either sign; and it overflows only where its exact result is not below `overflowBound`.
* Where the exact value of each node is that of some decimal, the expression has a value, and it is
  the exact one.  This holds wherever the expression has no division, its references are numbers or
  missing, and the exact result of each node fits at its natural scale. -/
theorem eval_exact (source : Source) (expr : Expr) :
    (∀ error, expr.eval source = .error error ↔
      ∃ node, expr.firstFailing? source = some node ∧ node.Fails source error) ∧
    (∀ left operation right, .binary left operation right ∈ expr.nodes →
      ∀ a b, left.eval source = .ok a → right.eval source = .ok b →
        ((Expr.binary left operation right).eval source = .error .divisionByZero ↔
          operation = .div ∧ b.value = 0) ∧
        ((Expr.binary left operation right).eval source = .error .overflow →
          overflowBound ≤ |operation.exactResult a.value b.value|)) ∧
    ((∀ node ∈ expr.nodes, ∃ d : Decimal, node.exactValue? source = some d.value) →
      ∃ result, expr.eval source = .ok result ∧ expr.exactValue? source = some result.value) ∧
    ((∀ node ∈ expr.nodes, ∃ x, node.natural? source = some x ∧ x.Fits) →
      ∃ result, expr.eval source = .ok result ∧ expr.exactValue? source = some result.value) := by
  refine ⟨fun error => eval_eq_error_iff, ?_, exists_eval_of_nodes, fun h => ?_⟩
  · intro left operation right _ a b hleft hright
    have heval : (Expr.binary left operation right).eval source = operation.apply a b := by
      rw [eval, hleft, hright]
    rw [heval, Operation.apply_eq_error_iff, Operation.apply_eq_error_iff]
    refine ⟨⟨?_, ?_⟩, ?_⟩
    · rintro (hzero | _)
      exact ⟨rfl, hzero⟩
    · rintro ⟨rfl, hzero⟩
      exact .divisionByZero hzero
    · rintro (_ | ⟨-, hlarge⟩)
      exact hlarge
  · refine exists_eval_of_nodes fun node hnode => ?_
    obtain ⟨x, hx, hfits⟩ := h node hnode
    obtain ⟨d, hd⟩ := exists_of_fits hfits
    exact ⟨d, hd ▸ exactValue?_of_natural? hx⟩

/-- With a payment of −1.2 and nothing due, the square of the payment and a half more is 1.94, and
the payment over the due fails in its last node. -/
theorem eval_exact_payment :
    let paid : FieldName := ⟨"Paid", "paid", by decide, by decide⟩
    let due : FieldName := ⟨"Due", "due", by decide, by decide⟩
    let payment : Decimal := ⟨true, 12, 1, by decide, by decide⟩
    let half : Decimal := ⟨false, 5, 1, by decide, by decide⟩
    let source : Source := fun name => if name = paid then .number payment else .missing
    let square : Expr := .binary (.binary (.field paid) .mul (.field paid)) .sub
      (.negate (.number half))
    let share : Expr := .binary (.field paid) .div (.negate (.field due))
    (∀ node ∈ square.nodes, ∃ x, node.natural? source = some x ∧ x.Fits) ∧
      (∃ result, square.eval source = .ok result ∧ result.value = 194 / 100) ∧
      share.firstFailing? source = some share ∧
      share.eval source = .error .divisionByZero := by
  intro paid due payment half source square share
  have hfits : ∀ node ∈ square.nodes, ∃ x, node.natural? source = some x ∧ x.Fits := by
    intro node hnode
    have hcases : node = .field paid ∨ node = .field paid ∨
        node = .binary (.field paid) .mul (.field paid) ∨ node = .number half ∨
        node = .negate (.number half) ∨ node = square := by
      simpa [square, nodes] using hnode
    rcases hcases with rfl | rfl | rfl | rfl | rfl | rfl
    all_goals exact ⟨_, rfl, by decide +kernel⟩
  obtain ⟨-, -, -, hsquare⟩ := eval_exact source square
  obtain ⟨result, hresult, hvalue⟩ := hsquare hfits
  have hnatural : square.natural? source = some ⟨194, 2⟩ := by decide +kernel
  rw [exactValue?_of_natural? hnatural] at hvalue
  have hfirst : share.firstFailing? source = some share := by decide +kernel
  have hdue : (Expr.negate (.field due)).eval source = .ok Decimal.zero.neg := by decide +kernel
  have hzero : Decimal.zero.neg.value = 0 := by rw [value_neg, value_zero, neg_zero]
  refine ⟨hfits, ⟨result, hresult, ?_⟩, hfirst, ?_⟩
  · rw [← Option.some.inj hvalue]
    norm_num [Scaled.value]
  · exact ((eval_exact source share).1 _).2
      ⟨share, hfirst, .operation rfl hdue (.divisionByZero hzero)⟩

end Expr

end PeriodSheet
