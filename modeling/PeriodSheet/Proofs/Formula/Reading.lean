import PeriodSheet.Proofs.Formula.Grammar
import PeriodSheet.Proofs.Formula.Tokens

/-!
# Reading phrases

The reader accepts exactly the phrases of the grammar that nest no deeper than it may go, and
returns what they stand for: it reads every phrase that stands before what ends it
(`Phrase.isRead`), and whatever it returns was read from a phrase (`readExpression_derived`).
-/

namespace PeriodSheet.Formula

/-! ### Placed tokens -/

/-- Whether placed tokens begin with the given ones, before `rest`. -/
def Precedes : List Token → List Placed → List Placed → Prop
  | [], rest, tokens => tokens = rest
  | token :: front, rest, tokens =>
    ∃ position more, tokens = ⟨token, position⟩ :: more ∧ Precedes front rest more

theorem precedes_append {a b : List Token} {rest tokens : List Placed} :
    Precedes (a ++ b) rest tokens ↔
      ∃ middle, Precedes a middle tokens ∧ Precedes b rest middle := by
  induction a generalizing tokens with
  | nil =>
    show Precedes b rest tokens ↔ ∃ middle, tokens = middle ∧ Precedes b rest middle
    simp
  | cons token a ih =>
    constructor
    · rintro ⟨position, more, rfl, h⟩
      obtain ⟨middle, ha, hb⟩ := ih.1 h
      exact ⟨middle, ⟨position, more, rfl, ha⟩, hb⟩
    · rintro ⟨middle, ⟨position, more, rfl, ha⟩, hb⟩
      exact ⟨position, more, rfl, ih.2 ⟨middle, ha, hb⟩⟩

theorem precedes_iff {front : List Token} {rest tokens : List Placed} :
    Precedes front rest tokens ↔
      ∃ placed : List Placed, placed.map (·.token) = front ∧ tokens = placed ++ rest := by
  induction front generalizing tokens with
  | nil => simp [Precedes]
  | cons token front ih =>
    constructor
    · rintro ⟨position, more, rfl, h⟩
      obtain ⟨placed, rfl, rfl⟩ := ih.1 h
      exact ⟨⟨token, position⟩ :: placed, rfl, rfl⟩
    · rintro ⟨placed, hmap, rfl⟩
      cases placed with
      | nil => cases hmap
      | cons next placed =>
        obtain ⟨rfl, hfront⟩ := List.cons.inj hmap
        exact ⟨next.position, placed ++ rest, rfl, ih.2 ⟨placed, hfront, rfl⟩⟩

/-- The tokens after those that precede them. -/
theorem map_of_precedes {front : List Token} {rest tokens : List Placed}
    (h : Precedes front rest tokens) :
    tokens.map (·.token) = front ++ rest.map (·.token) := by
  obtain ⟨placed, rfl, rfl⟩ := precedes_iff.1 h
  exact List.map_append

/-! ### Every phrase is read -/

/-- A reader returns an expression and leaves the given tokens over. -/
def Returns {tokens : List Placed} (result : Except FormulaError (Reading tokens)) (expr : Expr)
    (rest : List Placed) : Prop :=
  ∃ reading, result = .ok reading ∧ reading.expr = expr ∧ reading.rest = rest

/-- The reader of a category takes some tokens in front of `rest` for what they mean. -/
def Category.Reads (position depth : Nat) (rest : List Placed) :
    (category : Category) → List Token → category.Meaning → Prop
  | .expression, front, expr => ∀ tokens, Precedes front rest tokens →
    Returns (readExpression (.finish position) depth tokens) expr rest
  | .sums, front, joined => ∀ tokens (left : Reading tokens), Precedes front rest left.rest →
    Returns (readTerms (.finish position) depth tokens left) (joined left.expr) rest
  | .term, front, expr => ∀ tokens, Precedes front rest tokens →
    Returns (readTerm (.finish position) depth tokens) expr rest
  | .products, front, joined => ∀ tokens (left : Reading tokens), Precedes front rest left.rest →
    Returns (readFactors (.finish position) depth tokens left) (joined left.expr) rest
  | .factor, front, expr => ∀ tokens, Precedes front rest tokens →
    Returns (readFactor (.finish position) depth tokens) expr rest
  | .operand, front, expr => ∀ tokens, Precedes front rest tokens →
    Returns (readOperand (.finish position) depth tokens) expr rest

theorem additive?_eq_some {token : Token} {operation : Operation} :
    additive? token = some operation ↔
      ∃ sign : Sign, sign.operation = operation ∧ token = .operator operation := by
  constructor
  · intro h
    unfold additive? at h
    split at h
    · cases h
      exact ⟨.plus, rfl, rfl⟩
    · cases h
      exact ⟨.minus, rfl, rfl⟩
    · cases h
  · rintro ⟨sign, rfl, rfl⟩
    cases sign <;> rfl

theorem multiplicative?_eq_some {token : Token} {operation : Operation} :
    multiplicative? token = some operation ↔
      ∃ scaling : Scaling, scaling.operation = operation ∧ token = .operator operation := by
  constructor
  · intro h
    unfold multiplicative? at h
    split at h
    · cases h
      exact ⟨.times, rfl, rfl⟩
    · cases h
      exact ⟨.over, rfl, rfl⟩
    · cases h
  · rintro ⟨scaling, rfl, rfl⟩
    cases scaling <;> rfl

theorem enter_of_lt {position depth : Nat} {tokens : List Placed} (h : depth < maxDepth) :
    enter (.finish position) depth tokens = .ok () := by
  unfold enter
  split
  · contradiction
  · exact if_pos h

theorem lt_of_enter {ending : Ending} {depth : Nat} {tokens : List Placed}
    (h : enter ending depth tokens = .ok ()) : depth < maxDepth := by
  unfold enter at h
  split at h
  · cases h
  · split at h
    · assumption
    · cases h

theorem Category.EndsBefore.of_head {category : Category} {rest : List Placed}
    (h : category.EndsBefore (rest.map (·.token))) {next : Placed} (hnext : next ∈ rest.head?) :
    category.isContinuedBy next.token = false := by
  apply h
  rw [List.head?_map, Option.mem_def.1 hnext]
  rfl

theorem readTerms_stop {ending : Ending} {depth : Nat} {tokens : List Placed}
    {left : Reading tokens} (h : ∀ next ∈ left.rest.head?, additive? next.token = none) :
    readTerms ending depth tokens left = .ok left := by
  rw [readTerms]
  split
  · rfl
  · next next rest hrest => rw [h next (by rw [hrest]; rfl)]

theorem readTerms_join {ending : Ending} {depth position : Nat} {tokens rest : List Placed}
    {left : Reading tokens} (sign : Sign)
    (hleft : left.rest = ⟨.operator sign.operation, position⟩ :: rest) {right : Reading rest}
    (hright : readTerm ending depth rest = .ok right) :
    ∃ joined : Reading tokens, joined.expr = .binary left.expr sign.operation right.expr ∧
      joined.rest = right.rest ∧
      readTerms ending depth tokens left = readTerms ending depth tokens joined := by
  have hjoined : right.rest.length < tokens.length := by
    have := right.shorter
    have := left.shorter
    rw [hleft, List.length_cons] at this
    omega
  refine ⟨⟨.binary left.expr sign.operation right.expr, right.rest, hjoined⟩, rfl, rfl, ?_⟩
  have hsign : additive? (.operator sign.operation) = some sign.operation :=
    additive?_eq_some.2 ⟨sign, rfl, rfl⟩
  rw [readTerms]
  split
  · next hrest => rw [hleft] at hrest; cases hrest
  · next next rest' hrest =>
    rw [hleft] at hrest
    cases hrest
    simp only [hsign, hright]

theorem readFactors_stop {ending : Ending} {depth : Nat} {tokens : List Placed}
    {left : Reading tokens} (h : ∀ next ∈ left.rest.head?, multiplicative? next.token = none) :
    readFactors ending depth tokens left = .ok left := by
  rw [readFactors]
  split
  · rfl
  · next next rest hrest => rw [h next (by rw [hrest]; rfl)]

theorem readFactors_join {ending : Ending} {depth position : Nat} {tokens rest : List Placed}
    {left : Reading tokens} (scaling : Scaling)
    (hleft : left.rest = ⟨.operator scaling.operation, position⟩ :: rest) {right : Reading rest}
    (hright : readFactor ending depth rest = .ok right) :
    ∃ joined : Reading tokens, joined.expr = .binary left.expr scaling.operation right.expr ∧
      joined.rest = right.rest ∧
      readFactors ending depth tokens left = readFactors ending depth tokens joined := by
  have hjoined : right.rest.length < tokens.length := by
    have := right.shorter
    have := left.shorter
    rw [hleft, List.length_cons] at this
    omega
  refine ⟨⟨.binary left.expr scaling.operation right.expr, right.rest, hjoined⟩, rfl, rfl, ?_⟩
  have hscaling : multiplicative? (.operator scaling.operation) = some scaling.operation :=
    multiplicative?_eq_some.2 ⟨scaling, rfl, rfl⟩
  rw [readFactors]
  split
  · next hrest => rw [hleft] at hrest; cases hrest
  · next next rest' hrest =>
    rw [hleft] at hrest
    cases hrest
    simp only [hscaling, hright]

/-- What does not begin with a sign is read as an operand. -/
theorem readFactor_of_not_additive {ending : Ending} {depth : Nat} {tokens : List Placed}
    (h : ∀ next ∈ tokens.head?, additive? next.token = none) :
    readFactor ending depth tokens = readOperand ending depth tokens := by
  rw [readFactor]
  · rintro position rest rfl
    cases h _ rfl
  · rintro position rest rfl
    cases h _ rfl

/-- An expression in parentheses is read as an operand. -/
theorem readOperand_parentheses {ending : Ending} {depth position position' : Nat}
    {tokens after : List Placed} (henter : enter ending depth tokens = .ok ())
    {inner : Reading tokens} (hinner : readExpression ending (depth + 1) tokens = .ok inner)
    (hrest : inner.rest = ⟨.closing, position'⟩ :: after) :
    Returns (readOperand ending depth (⟨.opening, position⟩ :: tokens)) inner.expr after := by
  rw [Returns, readOperand, henter]
  simp only [hinner]
  split
  · next position'' after' hfound =>
    rw [hrest] at hfound
    cases hfound
    exact ⟨_, rfl, rfl, rfl⟩
  · next hfound => exact absurd hrest (hfound position' after)

namespace Phrase

/-- **The reader reads every phrase** that nests no deeper than it may go and that stands before
what ends it. -/
theorem isRead {category : Category} (phrase : Phrase category) (position depth : Nat)
    (rest : List Placed) (hdepth : phrase.nesting ≤ maxDepth - depth)
    (hends : category.EndsBefore (rest.map (·.token))) :
    category.Reads position depth rest phrase.tokens phrase.meaning := by
  -- on the derivation; what a part leaves over is what the next part is read from
  induction phrase generalizing depth rest with
  | expression first more ihfirst ihmore =>
    intro tokens htokens
    obtain ⟨middle, hfirst, hmore⟩ := precedes_append.1 htokens
    simp only [nesting] at hdepth
    -- a term ends at the sign of the next one, or where the expression ends
    have hstop : Category.term.EndsBefore (middle.map (·.token)) :=
      map_of_precedes hmore ▸ term_endsBefore more hends
    obtain ⟨left, hleft, hexpr, hrest⟩ := ihfirst depth middle (by omega) hstop tokens hfirst
    have hread := ihmore depth rest (by omega) hends tokens left (hrest ▸ hmore)
    rw [hexpr] at hread
    rw [readExpression, hleft]
    exact hread
  | noSum =>
    intro tokens left hleft
    obtain rfl : left.rest = rest := hleft
    refine ⟨left, readTerms_stop ?_, rfl, rfl⟩
    intro next hnext
    have hcontinued := hends.of_head hnext
    simp only [Category.isContinuedBy, Bool.or_eq_false_iff] at hcontinued
    exact Option.isSome_eq_false_iff.1 hcontinued.1 |> Option.isNone_iff_eq_none.1
  | sum sign next more ihnext ihmore =>
    rintro tokens left ⟨position', more', hleft, htokens⟩
    obtain ⟨middle, hnext, hmore⟩ := precedes_append.1 htokens
    simp only [nesting] at hdepth
    have hstop : Category.term.EndsBefore (middle.map (·.token)) :=
      map_of_precedes hmore ▸ term_endsBefore more hends
    obtain ⟨right, hright, hexpr, hrest⟩ := ihnext depth middle (by omega) hstop more' hnext
    obtain ⟨joined, hjoined, hover, heq⟩ := readTerms_join sign hleft hright
    have hread := ihmore depth rest (by omega) hends tokens joined (hover ▸ hrest ▸ hmore)
    rw [hjoined, hexpr] at hread
    rw [heq]
    exact hread
  | term first more ihfirst ihmore =>
    intro tokens htokens
    obtain ⟨middle, hfirst, hmore⟩ := precedes_append.1 htokens
    simp only [nesting] at hdepth
    obtain ⟨left, hleft, hexpr, hrest⟩ :=
      ihfirst depth middle (by omega) (factor_endsBefore _) tokens hfirst
    have hread := ihmore depth rest (by omega) hends tokens left (hrest ▸ hmore)
    rw [hexpr] at hread
    rw [readTerm, hleft]
    exact hread
  | noProduct =>
    intro tokens left hleft
    obtain rfl : left.rest = rest := hleft
    refine ⟨left, readFactors_stop ?_, rfl, rfl⟩
    intro next hnext
    exact Option.isNone_iff_eq_none.1 (Option.isSome_eq_false_iff.1 (hends.of_head hnext))
  | product scaling next more ihnext ihmore =>
    rintro tokens left ⟨position', more', hleft, htokens⟩
    obtain ⟨middle, hnext, hmore⟩ := precedes_append.1 htokens
    simp only [nesting] at hdepth
    obtain ⟨right, hright, hexpr, hrest⟩ :=
      ihnext depth middle (by omega) (factor_endsBefore _) more' hnext
    obtain ⟨joined, hjoined, hover, heq⟩ := readFactors_join scaling hleft hright
    have hread := ihmore depth rest (by omega) hends tokens joined (hover ▸ hrest ▸ hmore)
    rw [hjoined, hexpr] at hread
    rw [heq]
    exact hread
  | signed sign inner ih =>
    rintro tokens ⟨position', more, rfl, htokens⟩
    simp only [nesting] at hdepth
    obtain ⟨reading, hread, hexpr, hrest⟩ :=
      ih (depth + 1) rest (by omega) hends more htokens
    have henter : enter (.finish position) depth more = .ok () := enter_of_lt (by omega)
    cases sign with
    | plus =>
      rw [Returns, Sign.operation, readFactor, henter, hread]
      exact ⟨_, rfl, hexpr, hrest⟩
    | minus =>
      rw [Returns, Sign.operation, readFactor, henter, hread]
      exact ⟨_, rfl, congrArg Expr.negate hexpr, hrest⟩
  | operand inner ih =>
    intro tokens htokens
    obtain ⟨reading, hread, hexpr, hrest⟩ := ih depth rest hdepth hends tokens htokens
    refine ⟨reading, ?_, hexpr, hrest⟩
    rw [readFactor_of_not_additive, hread]
    intro next hnext
    -- no operand begins with a sign
    cases inner with
    | number value =>
      obtain ⟨position', more, rfl, -⟩ := htokens
      cases hnext
      rfl
    | field name =>
      obtain ⟨position', more, rfl, -⟩ := htokens
      cases hnext
      rfl
    | parentheses inner =>
      obtain ⟨position', more, rfl, -⟩ := htokens
      cases hnext
      rfl
  | number value =>
    rintro tokens ⟨position', more, rfl, rfl⟩
    rw [readOperand]
    exact ⟨_, rfl, rfl, rfl⟩
  | field name =>
    rintro tokens ⟨position', more, rfl, rfl⟩
    rw [readOperand]
    exact ⟨_, rfl, rfl, rfl⟩
  | parentheses inner ih =>
    rintro tokens ⟨position', more, rfl, htokens⟩
    obtain ⟨middle, hinner, position'', after, rfl, rfl⟩ := precedes_append.1 htokens
    simp only [nesting] at hdepth
    obtain ⟨reading, hread, hexpr, hrest⟩ :=
      ih (depth + 1) (⟨.closing, position''⟩ :: after) (by omega) (endsBefore_closing _) more hinner
    have henter : enter (.finish position) depth more = .ok () := enter_of_lt (by omega)
    exact hexpr ▸ readOperand_parentheses henter hread hrest

/-- Whether a phrase stands in front of `rest` and nests no deeper than a reader may go. -/
structure Spans {category : Category} (phrase : Phrase category) (depth : Nat)
    (tokens rest : List Placed) : Prop where
  nesting_le : phrase.nesting ≤ maxDepth - depth
  precedes : Precedes phrase.tokens rest tokens

end Phrase

/-! ### Whatever is read is a phrase

First what each reader did where it returned something. -/

section
variable {ending : Ending} {depth : Nat} {tokens : List Placed}

theorem of_readExpression {reading : Reading tokens}
    (h : readExpression ending depth tokens = .ok reading) :
    ∃ first, readTerm ending depth tokens = .ok first ∧
      readTerms ending depth tokens first = .ok reading := by
  rw [readExpression] at h
  split at h
  · cases h
  · next first hfirst => exact ⟨first, hfirst, h⟩

theorem of_readTerms {left reading : Reading tokens}
    (h : readTerms ending depth tokens left = .ok reading) :
    left = reading ∨ ∃ (sign : Sign) (position : Nat) (rest : List Placed) (right : Reading rest),
      left.rest = ⟨.operator sign.operation, position⟩ :: rest ∧
      readTerm ending depth rest = .ok right ∧
      ∃ joined : Reading tokens, joined.expr = .binary left.expr sign.operation right.expr ∧
        joined.rest = right.rest ∧ readTerms ending depth tokens joined = .ok reading := by
  rw [readTerms] at h
  split at h
  · exact .inl (Except.ok.inj h)
  · next next rest hrest =>
    split at h
    · exact .inl (Except.ok.inj h)
    · next operation hoperation =>
      obtain ⟨token, position⟩ := next
      obtain ⟨sign, rfl, rfl⟩ := additive?_eq_some.1 hoperation
      split at h
      · cases h
      · next right hright =>
        exact .inr ⟨sign, position, rest, right, hrest, hright, _, rfl, rfl, h⟩

theorem of_readTerm {reading : Reading tokens} (h : readTerm ending depth tokens = .ok reading) :
    ∃ first, readFactor ending depth tokens = .ok first ∧
      readFactors ending depth tokens first = .ok reading := by
  rw [readTerm] at h
  split at h
  · cases h
  · next first hfirst => exact ⟨first, hfirst, h⟩

theorem of_readFactors {left reading : Reading tokens}
    (h : readFactors ending depth tokens left = .ok reading) :
    left = reading ∨
      ∃ (scaling : Scaling) (position : Nat) (rest : List Placed) (right : Reading rest),
      left.rest = ⟨.operator scaling.operation, position⟩ :: rest ∧
      readFactor ending depth rest = .ok right ∧
      ∃ joined : Reading tokens, joined.expr = .binary left.expr scaling.operation right.expr ∧
        joined.rest = right.rest ∧ readFactors ending depth tokens joined = .ok reading := by
  rw [readFactors] at h
  split at h
  · exact .inl (Except.ok.inj h)
  · next next rest hrest =>
    split at h
    · exact .inl (Except.ok.inj h)
    · next operation hoperation =>
      obtain ⟨token, position⟩ := next
      obtain ⟨scaling, rfl, rfl⟩ := multiplicative?_eq_some.1 hoperation
      split at h
      · cases h
      · next right hright =>
        exact .inr ⟨scaling, position, rest, right, hrest, hright, _, rfl, rfl, h⟩

def Sign.apply : Sign → Expr → Expr
  | .plus, inner => inner
  | .minus, inner => .negate inner

theorem Phrase.meaning_signed (sign : Sign) (inner : Phrase .factor) :
    (Phrase.signed sign inner).meaning = sign.apply inner.meaning := by
  cases sign <;> rfl

theorem of_readFactor {reading : Reading tokens}
    (h : readFactor ending depth tokens = .ok reading) :
    readOperand ending depth tokens = .ok reading ∨
      ∃ (sign : Sign) (position : Nat) (rest : List Placed) (inner : Reading rest),
      tokens = ⟨.operator sign.operation, position⟩ :: rest ∧ depth < maxDepth ∧
      readFactor ending (depth + 1) rest = .ok inner ∧
      reading.expr = sign.apply inner.expr ∧ reading.rest = inner.rest := by
  rw [readFactor.eq_def] at h
  split at h
  · next position rest =>
    split at h
    · cases h
    · next henter =>
      split at h
      · cases h
      · next inner hinner =>
        cases h
        exact .inr ⟨.minus, position, rest, inner, rfl, lt_of_enter henter, hinner, rfl, rfl⟩
  · next position rest =>
    split at h
    · cases h
    · next henter =>
      split at h
      · cases h
      · next inner hinner =>
        cases h
        exact .inr ⟨.plus, position, rest, inner, rfl, lt_of_enter henter, hinner, rfl, rfl⟩
  · exact .inl h

theorem of_readOperand {reading : Reading tokens}
    (h : readOperand ending depth tokens = .ok reading) :
    (∃ value position, tokens = ⟨.number value, position⟩ :: reading.rest ∧
      reading.expr = .number value) ∨
    (∃ name position, tokens = ⟨.field name, position⟩ :: reading.rest ∧
      reading.expr = .field name) ∨
    ∃ (position position' : Nat) (rest : List Placed) (inner : Reading rest),
      tokens = ⟨.opening, position⟩ :: rest ∧ depth < maxDepth ∧
      readExpression ending (depth + 1) rest = .ok inner ∧ reading.expr = inner.expr ∧
      inner.rest = ⟨.closing, position'⟩ :: reading.rest := by
  rw [readOperand.eq_def] at h
  split at h
  · next value position rest =>
    cases h
    exact .inl ⟨value, position, rfl, rfl⟩
  · next name position rest =>
    cases h
    exact .inr (.inl ⟨name, position, rfl, rfl⟩)
  · next position rest =>
    split at h
    · cases h
    · next henter =>
      split at h
      · cases h
      · next inner hinner =>
        split at h
        · next position' after hrest =>
          cases h
          exact .inr (.inr
            ⟨position, position', rest, inner, rfl, lt_of_enter henter, hinner, rfl, hrest⟩)
        · cases h
  · cases h

end

-- The readers call one another, and so do the proofs: by the measure of the readers.
mutual

/-- **Whatever the reader returns was read from a phrase.** -/
theorem readExpression_derived {ending : Ending} {depth : Nat} {tokens : List Placed}
    {reading : Reading tokens}
    (h : readExpression ending depth tokens = .ok reading) :
    ∃ phrase : Phrase .expression,
      phrase.Spans depth tokens reading.rest ∧ phrase.meaning = reading.expr := by
  obtain ⟨first, hfirst, hmore⟩ := of_readExpression h
  obtain ⟨phrase, hphrase, hmeaning⟩ := readTerm_derived hfirst
  obtain ⟨sums, hsums, hjoined⟩ := readTerms_derived hmore
  refine ⟨.expression phrase sums, ⟨Nat.max_le.2 ⟨hphrase.1, hsums.1⟩, ?_⟩, ?_⟩
  · exact precedes_append.2 ⟨first.rest, hphrase.2, hsums.2⟩
  · exact (congrArg sums.meaning hmeaning).trans hjoined
termination_by 4 * tokens.length + 3
decreasing_by
  · omega
  · have := first.shorter
    omega

theorem readTerms_derived {ending : Ending} {depth : Nat} {tokens : List Placed}
    {left reading : Reading tokens}
    (h : readTerms ending depth tokens left = .ok reading) :
    ∃ phrase : Phrase .sums,
      phrase.Spans depth left.rest reading.rest ∧ phrase.meaning left.expr = reading.expr := by
  obtain rfl | ⟨sign, position, rest, right, hrest, hright, joined, hjoined, hover, hmore⟩ :=
    of_readTerms h
  · exact ⟨.noSum, ⟨Nat.zero_le _, rfl⟩, rfl⟩
  · obtain ⟨next, hnext, hmeaning⟩ := readTerm_derived hright
    obtain ⟨more, hmore, hexpr⟩ := readTerms_derived hmore
    refine ⟨.sum sign next more, ⟨Nat.max_le.2 ⟨hnext.1, hmore.1⟩, ?_⟩, ?_⟩
    · exact ⟨position, rest, hrest, precedes_append.2 ⟨right.rest, hnext.2, hover ▸ hmore.2⟩⟩
    · rw [hjoined, ← hmeaning] at hexpr
      exact hexpr
termination_by 4 * left.rest.length + 3
decreasing_by
  · rw [hrest, List.length_cons]
    omega
  · have := right.shorter
    rw [hover, hrest, List.length_cons]
    omega

theorem readTerm_derived {ending : Ending} {depth : Nat} {tokens : List Placed}
    {reading : Reading tokens}
    (h : readTerm ending depth tokens = .ok reading) :
    ∃ phrase : Phrase .term,
      phrase.Spans depth tokens reading.rest ∧ phrase.meaning = reading.expr := by
  obtain ⟨first, hfirst, hmore⟩ := of_readTerm h
  obtain ⟨phrase, hphrase, hmeaning⟩ := readFactor_derived hfirst
  obtain ⟨products, hproducts, hjoined⟩ := readFactors_derived hmore
  refine ⟨.term phrase products, ⟨Nat.max_le.2 ⟨hphrase.1, hproducts.1⟩, ?_⟩, ?_⟩
  · exact precedes_append.2 ⟨first.rest, hphrase.2, hproducts.2⟩
  · exact (congrArg products.meaning hmeaning).trans hjoined
termination_by 4 * tokens.length + 2
decreasing_by
  · omega
  · have := first.shorter
    omega

theorem readFactors_derived {ending : Ending} {depth : Nat} {tokens : List Placed}
    {left reading : Reading tokens}
    (h : readFactors ending depth tokens left = .ok reading) :
    ∃ phrase : Phrase .products,
      phrase.Spans depth left.rest reading.rest ∧ phrase.meaning left.expr = reading.expr := by
  obtain rfl | ⟨scaling, position, rest, right, hrest, hright, joined, hjoined, hover, hmore⟩ :=
    of_readFactors h
  · exact ⟨.noProduct, ⟨Nat.zero_le _, rfl⟩, rfl⟩
  · obtain ⟨next, hnext, hmeaning⟩ := readFactor_derived hright
    obtain ⟨more, hmore, hexpr⟩ := readFactors_derived hmore
    refine ⟨.product scaling next more, ⟨Nat.max_le.2 ⟨hnext.1, hmore.1⟩, ?_⟩, ?_⟩
    · exact ⟨position, rest, hrest, precedes_append.2 ⟨right.rest, hnext.2, hover ▸ hmore.2⟩⟩
    · rw [hjoined, ← hmeaning] at hexpr
      exact hexpr
termination_by 4 * left.rest.length + 2
decreasing_by
  · rw [hrest, List.length_cons]
    omega
  · have := right.shorter
    rw [hover, hrest, List.length_cons]
    omega

theorem readFactor_derived {ending : Ending} {depth : Nat} {tokens : List Placed}
    {reading : Reading tokens}
    (h : readFactor ending depth tokens = .ok reading) :
    ∃ phrase : Phrase .factor,
      phrase.Spans depth tokens reading.rest ∧ phrase.meaning = reading.expr := by
  obtain hoperand | ⟨sign, position, rest, inner, htokens, hdepth, hinner, hexpr, hrest⟩ :=
    of_readFactor h
  · obtain ⟨operand, hspans, hmeaning⟩ := readOperand_derived hoperand
    exact ⟨.operand operand, ⟨hspans.1, hspans.2⟩, hmeaning⟩
  · obtain ⟨phrase, hspans, hmeaning⟩ := readFactor_derived hinner
    refine ⟨.signed sign phrase, ⟨?_, position, rest, htokens, hrest ▸ hspans.2⟩, ?_⟩
    · have := hspans.nesting_le
      show phrase.nesting + 1 ≤ maxDepth - depth
      omega
    · rw [Phrase.meaning_signed, hmeaning, hexpr]
termination_by 4 * tokens.length + 1
decreasing_by
  · omega
  · rw [htokens, List.length_cons]
    omega

theorem readOperand_derived {ending : Ending} {depth : Nat} {tokens : List Placed}
    {reading : Reading tokens}
    (h : readOperand ending depth tokens = .ok reading) :
    ∃ phrase : Phrase .operand,
      phrase.Spans depth tokens reading.rest ∧ phrase.meaning = reading.expr := by
  obtain ⟨value, position, htokens, hexpr⟩ | ⟨name, position, htokens, hexpr⟩ |
    ⟨position, position', rest, inner, htokens, hdepth, hinner, hexpr, hclosing⟩ :=
    of_readOperand h
  · exact ⟨.number value, ⟨Nat.zero_le _, position, _, htokens, rfl⟩, hexpr.symm⟩
  · exact ⟨.field name, ⟨Nat.zero_le _, position, _, htokens, rfl⟩, hexpr.symm⟩
  · obtain ⟨phrase, hspans, hmeaning⟩ := readExpression_derived hinner
    refine ⟨.parentheses phrase, ⟨?_, position, rest, htokens, ?_⟩, hmeaning.trans hexpr.symm⟩
    · have := hspans.nesting_le
      show phrase.nesting + 1 ≤ maxDepth - depth
      omega
    · exact precedes_append.2 ⟨inner.rest, hspans.2, position', _, hclosing, rfl⟩
termination_by 4 * tokens.length
decreasing_by
  rw [htokens, List.length_cons]
  omega

end

/-- **The expression of a scan.**  A scan has one if it came to the end of the text and its tokens
are a phrase that nests no deeper than allowed; it is what the phrase stands for. -/
theorem ofScan_eq_ok {scan : Scan} {expr : Expr} :
    ofScan scan = .ok expr ↔
      (∃ position, scan.ending = .finish position) ∧
      ∃ phrase : Phrase .expression, phrase.tokens = scan.tokens.map (·.token) ∧
        phrase.nesting ≤ maxDepth ∧ phrase.meaning = expr := by
  obtain ⟨tokens, ending⟩ := scan
  constructor
  · intro h
    unfold ofScan at h
    split at h
    · cases h
    · split at h
      · cases h
      · next reading hreading =>
        split at h
        · next position hrest hending =>
          obtain rfl := Except.ok.inj h
          obtain ⟨phrase, hspans, hmeaning⟩ := readExpression_derived hreading
          have htokens := map_of_precedes hspans.precedes
          rw [hrest, List.map_nil, List.append_nil] at htokens
          exact ⟨⟨position, hending⟩, phrase, htokens.symm, hspans.nesting_le, hmeaning⟩
        · cases h
  · rintro ⟨⟨position, rfl⟩, phrase, htokens, hnesting, rfl⟩
    have hprecedes : Precedes phrase.tokens [] tokens :=
      precedes_iff.2 ⟨tokens, htokens.symm, (List.append_nil _).symm⟩
    have hends : Category.expression.EndsBefore [] := fun _ h => by cases h
    obtain ⟨reading, hreading, hexpr, hrest⟩ :=
      phrase.isRead position 0 [] hnesting hends tokens hprecedes
    -- a reading has consumed some token
    have hne : tokens ≠ [] := List.ne_nil_of_length_pos (Nat.zero_lt_of_lt reading.shorter)
    unfold ofScan
    split
    · next hnil _ => exact absurd hnil hne
    · simp only [hreading, hrest, hexpr]

/-- What a formula is read from. -/
theorem exists_phrase_of_parse {source : String} {formula : Formula}
    (h : parse source = .ok formula) :
    ∃ phrase : Phrase .expression, Scan.Tokenizes source.toList phrase.tokens ∧
      phrase.nesting ≤ maxDepth ∧ phrase.meaning = formula.expr := by
  unfold parse at h
  split at h
  · cases h
  · next expr hexpr =>
    cases h
    obtain ⟨hending, phrase, htokens, hnesting, hmeaning⟩ := ofScan_eq_ok.1 hexpr
    exact ⟨phrase, (Scan.tokenizes_iff 0).2 ⟨hending, htokens.symm⟩, hnesting, hmeaning⟩

/-- A text made of the tokens of a phrase reads as what the phrase stands for. -/
theorem parse_of_phrase {source : String} (phrase : Phrase .expression)
    (h : Scan.Tokenizes source.toList phrase.tokens) (hnesting : phrase.nesting ≤ maxDepth) :
    parse source = .ok ⟨source, phrase.meaning⟩ := by
  obtain ⟨hending, htokens⟩ := (Scan.tokenizes_iff 0).1 h
  have hread : ofScan (Scan.ofText source) = .ok phrase.meaning :=
    ofScan_eq_ok.2 ⟨hending, phrase, htokens.symm, hnesting, rfl⟩
  rw [parse, hread]

/-- No two phrases are made of the tokens of one text. -/
theorem Phrase.tokenizes_iff {text : List Char} (phrase : Phrase .expression)
    (h : Scan.Tokenizes text phrase.tokens) (other : Phrase .expression) :
    Scan.Tokenizes text other.tokens ↔ other = phrase := by
  constructor
  · intro hother
    exact eq_of_tokens (hother.unique h)
  · rintro rfl
    exact h

/-- **What a formula is.**  A text reads as a formula if it is made of tokens that are a phrase of
the grammar, in which at most `maxDepth` parentheses and signs are open at a time.  There is only
one such phrase, and the formula is what it stands for. -/
theorem parse_eq_ok_iff (source : String) (formula : Formula) :
    parse source = .ok formula ↔
      formula.source = source ∧
      ∃ phrase : Phrase .expression,
        (∀ other : Phrase .expression,
          Scan.Tokenizes source.toList other.tokens ↔ other = phrase) ∧
        phrase.nesting ≤ maxDepth ∧ phrase.meaning = formula.expr := by
  obtain ⟨text, expr⟩ := formula
  constructor
  · intro h
    unfold parse at h
    split at h
    · cases h
    · next found hfound =>
      obtain ⟨rfl, rfl⟩ := Formula.mk.inj (Except.ok.inj h)
      obtain ⟨hending, phrase, htokens, hnesting, hmeaning⟩ := ofScan_eq_ok.1 hfound
      have hphrase := (Scan.tokenizes_iff 0).2 ⟨hending, htokens.symm⟩
      exact ⟨rfl, phrase, phrase.tokenizes_iff hphrase, hnesting, hmeaning⟩
  · rintro ⟨rfl, phrase, honly, hnesting, hmeaning⟩
    obtain ⟨hending, htokens⟩ := (Scan.tokenizes_iff 0).1 ((honly phrase).2 rfl)
    have hfound : ofScan (Scan.ofText text) = .ok expr :=
      ofScan_eq_ok.2 ⟨hending, phrase, htokens.symm, hnesting, hmeaning⟩
    rw [parse, hfound]

end PeriodSheet.Formula
