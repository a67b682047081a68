import PeriodSheet.Formula.Parser

/-!
# The grammar of formulas

Which sequences of tokens are formulas, and what expression each of them stands for, told apart from
how they are read:

```text
expression = term (("+" | "-") term)*
term       = factor (("*" | "/") factor)*
factor     = ("-" | "+") factor | operand
operand    = number | reference | "(" expression ")"
```

A `Phrase` is a derivation of this grammar.  Its tokens determine it (`Phrase.eq_of_tokens`), so no
formula can be understood in two ways.
-/

namespace PeriodSheet.Formula

/-- What a sequence of tokens is derived as: the four categories of the grammar, and the two
repetitions in it. -/
inductive Category where
  | expression
  /-- Terms that follow another one, each with its sign. -/
  | sums
  | term
  /-- Factors that follow another one, each with its operator. -/
  | products
  | factor
  | operand

inductive Sign where
  | plus
  | minus

inductive Scaling where
  | times
  | over

def Sign.operation : Sign → Operation
  | .plus => .add
  | .minus => .sub

def Scaling.operation : Scaling → Operation
  | .times => .mul
  | .over => .div

/-- A derivation of the grammar. -/
inductive Phrase : Category → Type where
  | expression (first : Phrase .term) (rest : Phrase .sums) : Phrase .expression
  | noSum : Phrase .sums
  | sum (sign : Sign) (next : Phrase .term) (rest : Phrase .sums) : Phrase .sums
  | term (first : Phrase .factor) (rest : Phrase .products) : Phrase .term
  | noProduct : Phrase .products
  | product (scaling : Scaling) (next : Phrase .factor) (rest : Phrase .products) :
      Phrase .products
  | signed (sign : Sign) (inner : Phrase .factor) : Phrase .factor
  | operand (inner : Phrase .operand) : Phrase .factor
  | number (value : Decimal) : Phrase .operand
  | field (name : FieldName) : Phrase .operand
  | parentheses (inner : Phrase .expression) : Phrase .operand

/-- What a phrase stands for: an expression, or what it makes of the one before it. -/
abbrev Category.Meaning : Category → Type
  | .sums => Expr → Expr
  | .products => Expr → Expr
  | _ => Expr

namespace Phrase

/-- The tokens that a phrase derives. -/
def tokens : {category : Category} → Phrase category → List Token
  | _, .expression first rest => first.tokens ++ rest.tokens
  | _, .noSum => []
  | _, .sum sign next rest => .operator sign.operation :: (next.tokens ++ rest.tokens)
  | _, .term first rest => first.tokens ++ rest.tokens
  | _, .noProduct => []
  | _, .product scaling next rest => .operator scaling.operation :: (next.tokens ++ rest.tokens)
  | _, .signed sign inner => .operator sign.operation :: inner.tokens
  | _, .operand inner => inner.tokens
  | _, .number value => [.number value]
  | _, .field name => [.field name]
  | _, .parentheses inner => .opening :: (inner.tokens ++ [.closing])

/-- How many parentheses and signs before factors are open at a time, at most. -/
def nesting : {category : Category} → Phrase category → Nat
  | _, .expression first rest => max first.nesting rest.nesting
  | _, .noSum => 0
  | _, .sum _ next rest => max next.nesting rest.nesting
  | _, .term first rest => max first.nesting rest.nesting
  | _, .noProduct => 0
  | _, .product _ next rest => max next.nesting rest.nesting
  | _, .signed _ inner => inner.nesting + 1
  | _, .operand inner => inner.nesting
  | _, .number _ => 0
  | _, .field _ => 0
  | _, .parentheses inner => inner.nesting + 1

/-- What a phrase stands for.  Terms and factors are joined from left to right; a minus before a
factor negates it; a plus there, and parentheses, leave no trace. -/
def meaning : {category : Category} → Phrase category → category.Meaning
  | _, .expression first rest => rest.meaning first.meaning
  | _, .noSum => fun left => left
  | _, .sum sign next rest => fun left => rest.meaning (.binary left sign.operation next.meaning)
  | _, .term first rest => rest.meaning first.meaning
  | _, .noProduct => fun left => left
  | _, .product scaling next rest => fun left =>
    rest.meaning (.binary left scaling.operation next.meaning)
  | _, .signed .plus inner => inner.meaning
  | _, .signed .minus inner => .negate inner.meaning
  | _, .operand inner => inner.meaning
  | _, .number value => .number value
  | _, .field name => .field name
  | _, .parentheses inner => inner.meaning

end Phrase

/-! ### Unambiguity -/

/-- Whether a token may go on a phrase of a category. -/
def Category.isContinuedBy : Category → Token → Bool
  | .expression, token => (additive? token).isSome || (multiplicative? token).isSome
  | .sums, token => (additive? token).isSome || (multiplicative? token).isSome
  | .term, token => (multiplicative? token).isSome
  | .products, token => (multiplicative? token).isSome
  | .factor, _ => false
  | .operand, _ => false

/-- Whether a phrase of a category has to end before some tokens. -/
def Category.EndsBefore (category : Category) (rest : List Token) : Prop :=
  ∀ token ∈ rest.head?, category.isContinuedBy token = false

namespace Phrase

/-- A term ends where another one is joined to it, or where the expression ends. -/
theorem term_endsBefore {rest : List Token} (sums : Phrase .sums)
    (h : Category.sums.EndsBefore rest) : Category.term.EndsBefore (sums.tokens ++ rest) := by
  cases sums with
  | noSum =>
    intro token htoken
    exact (Bool.or_eq_false_iff.1 (h token htoken)).2
  | sum sign next more =>
    intro token htoken
    obtain rfl : Token.operator sign.operation = token := Option.some.inj htoken
    cases sign <;> rfl

theorem factor_endsBefore (rest : List Token) : Category.factor.EndsBefore rest :=
  fun _ _ => rfl

/-- An operand does not begin with an operator. -/
theorem operand_ne_operator (operand : Phrase .operand) (operation : Operation)
    (rest more : List Token) : operand.tokens ++ rest ≠ .operator operation :: more := by
  cases operand <;> simp [tokens]

theorem sign_eq {a b : Sign} (h : a.operation = b.operation) : a = b := by
  cases a <;> cases b <;> first | rfl | cases h

theorem scaling_eq {a b : Scaling} (h : a.operation = b.operation) : a = b := by
  cases a <;> cases b <;> first | rfl | cases h

theorem sum_not_endsBefore (sign : Sign) (next : Phrase .term) (more : Phrase .sums)
    (rest : List Token) : ¬ Category.sums.EndsBefore ((sum sign next more).tokens ++ rest) := by
  intro h
  have hcontinued := h (.operator sign.operation) rfl
  cases sign <;> cases hcontinued

theorem product_not_endsBefore (scaling : Scaling) (next : Phrase .factor)
    (more : Phrase .products) (rest : List Token) :
    ¬ Category.products.EndsBefore ((product scaling next more).tokens ++ rest) := by
  intro h
  have hcontinued := h (.operator scaling.operation) rfl
  cases scaling <;> cases hcontinued

/-- A closing parenthesis ends an expression. -/
theorem endsBefore_closing (rest : List Token) :
    Category.expression.EndsBefore (.closing :: rest) := by
  intro token htoken
  obtain rfl : Token.closing = token := Option.some.inj htoken
  rfl

/-- Phrases of one category that stand before what ends them are told by their tokens. -/
theorem tokens_append_inj {category : Category} {a b : Phrase category} {rest rest' : List Token}
    (ha : category.EndsBefore rest) (hb : category.EndsBefore rest')
    (h : a.tokens ++ rest = b.tokens ++ rest') : a = b ∧ rest = rest' := by
  -- on the one phrase; the other one has the same form, as their first tokens are the same
  induction a generalizing rest rest' with
  | expression first more ihfirst ihmore =>
    cases b with
    | expression first' more' =>
      simp only [tokens, List.append_assoc] at h
      obtain ⟨rfl, hmore⟩ := ihfirst (term_endsBefore more ha) (term_endsBefore more' hb) h
      obtain ⟨rfl, hrest⟩ := ihmore ha hb hmore
      exact ⟨rfl, hrest⟩
  | noSum =>
    cases b with
    | noSum => exact ⟨rfl, h⟩
    | sum sign next more =>
      -- the sums that end here would be followed by another one
      have hrest : rest = (sum sign next more).tokens ++ rest' := h
      exact absurd (hrest ▸ ha) (sum_not_endsBefore sign next more rest')
  | sum sign next more ihnext ihmore =>
    cases b with
    | noSum =>
      have hrest : rest' = (sum sign next more).tokens ++ rest := h.symm
      exact absurd (hrest ▸ hb) (sum_not_endsBefore sign next more rest)
    | sum sign' next' more' =>
      simp only [tokens, List.cons_append, List.cons.injEq, Token.operator.injEq,
        List.append_assoc] at h
      obtain ⟨hsign, hnext⟩ := h
      obtain rfl := sign_eq hsign
      obtain ⟨rfl, hmore⟩ := ihnext (term_endsBefore more ha) (term_endsBefore more' hb) hnext
      obtain ⟨rfl, hrest⟩ := ihmore ha hb hmore
      exact ⟨rfl, hrest⟩
  | term first more ihfirst ihmore =>
    cases b with
    | term first' more' =>
      simp only [tokens, List.append_assoc] at h
      obtain ⟨rfl, hmore⟩ := ihfirst (factor_endsBefore _) (factor_endsBefore _) h
      obtain ⟨rfl, hrest⟩ := ihmore ha hb hmore
      exact ⟨rfl, hrest⟩
  | noProduct =>
    cases b with
    | noProduct => exact ⟨rfl, h⟩
    | product scaling next more =>
      have hrest : rest = (product scaling next more).tokens ++ rest' := h
      exact absurd (hrest ▸ ha) (product_not_endsBefore scaling next more rest')
  | product scaling next more ihnext ihmore =>
    cases b with
    | noProduct =>
      have hrest : rest' = (product scaling next more).tokens ++ rest := h.symm
      exact absurd (hrest ▸ hb) (product_not_endsBefore scaling next more rest)
    | product scaling' next' more' =>
      simp only [tokens, List.cons_append, List.cons.injEq, Token.operator.injEq,
        List.append_assoc] at h
      obtain ⟨hscaling, hnext⟩ := h
      obtain rfl := scaling_eq hscaling
      obtain ⟨rfl, hmore⟩ := ihnext (factor_endsBefore _) (factor_endsBefore _) hnext
      obtain ⟨rfl, hrest⟩ := ihmore ha hb hmore
      exact ⟨rfl, hrest⟩
  | signed sign inner ih =>
    cases b with
    | signed sign' inner' =>
      simp only [tokens, List.cons_append, List.cons.injEq, Token.operator.injEq] at h
      obtain ⟨hsign, hinner⟩ := h
      obtain rfl := sign_eq hsign
      obtain ⟨rfl, hrest⟩ := ih ha hb hinner
      exact ⟨rfl, hrest⟩
    | operand inner' => exact absurd h.symm (operand_ne_operator inner' _ _ _)
  | operand inner ih =>
    cases b with
    | signed sign' inner' => exact absurd h (operand_ne_operator inner _ _ _)
    | operand inner' =>
      obtain ⟨rfl, hrest⟩ := ih ha hb h
      exact ⟨rfl, hrest⟩
  | number value => cases b <;> simp_all [tokens]
  | field name => cases b <;> simp_all [tokens]
  | parentheses inner ih =>
    cases b with
    | number value => simp [tokens] at h
    | field name => simp [tokens] at h
    | parentheses inner' =>
      simp only [tokens, List.cons_append, List.cons.injEq, true_and, List.append_assoc,
        List.nil_append] at h
      obtain ⟨rfl, hrest⟩ := ih (endsBefore_closing rest) (endsBefore_closing rest') h
      exact ⟨rfl, (List.cons.inj hrest).2⟩

/-- **The grammar is unambiguous.** -/
theorem eq_of_tokens {category : Category} {a b : Phrase category} (h : a.tokens = b.tokens) :
    a = b := by
  have hends : category.EndsBefore [] := fun token htoken => by cases htoken
  exact (tokens_append_inj hends hends (by rw [h])).1

end Phrase

end PeriodSheet.Formula
