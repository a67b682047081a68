import PeriodSheet.Proofs.Formula.Reading

/-!
# The height of a formula

How deeply the expression of a formula is nested, and with it how deeply its evaluation recurses.

The limit of open parentheses and signs bounds the height only where no row of operations of one
rank counts: `a + b - c` nests nothing, but stands for `(a + b) - c`, one level deeper than `a + b`.
With such a row taken as one level the height is bounded by the limit (`Phrase.levels_within`), and
every operation that goes on a row adds at most one (`height_le_levels_add_repeats`).  No number
bounds the height of all formulas (`exists_parse_height`); the length of the text does, for each of
them (`Phrase.height_within`).
-/

namespace PeriodSheet

def Operation.isAdditive : Operation → Bool
  | .add => true
  | .sub => true
  | .mul => false
  | .div => false

namespace Expr

/-- Whether an operation goes on a row of operations of its rank, when it is given this left
operand. -/
def isRunOf (operation : Operation) : Expr → Bool
  | .binary _ own _ => own.isAdditive == operation.isAdditive
  | _ => false

/-- The nested levels of an expression, where a row of operations of one rank is one level. -/
def levels : Expr → Nat
  | .number _ => 1
  | .field _ => 1
  | .binary left operation right =>
    max (if left.isRunOf operation then left.levels else left.levels + 1) (right.levels + 1)
  | .negate inner => inner.levels + 1

/-- How many operations go on a row. -/
def repeats : Expr → Nat
  | .number _ => 0
  | .field _ => 0
  | .binary left operation right =>
    left.repeats + right.repeats + if left.isRunOf operation then 1 else 0
  | .negate inner => inner.repeats

/-- The levels of an expression as the left operand of an operation. -/
def levelsUnder (operation : Operation) (left : Expr) : Nat :=
  if left.isRunOf operation then left.levels else left.levels + 1

theorem levels_le_levelsUnder (operation : Operation) (left : Expr) :
    left.levels ≤ left.levelsUnder operation := by
  unfold levelsUnder
  split <;> omega

theorem levelsUnder_le (operation : Operation) (left : Expr) :
    left.levelsUnder operation ≤ left.levels + 1 := by
  unfold levelsUnder
  split <;> omega

theorem levels_binary (left right : Expr) (operation : Operation) :
    (Expr.binary left operation right).levels =
      max (left.levelsUnder operation) (right.levels + 1) :=
  rfl

theorem isRunOf_congr {a b : Operation} (h : a.isAdditive = b.isAdditive) (left : Expr) :
    left.isRunOf a = left.isRunOf b := by
  cases left <;> simp only [isRunOf, h]

/-- An operation keeps a bound of the levels for the next one of its rank, whose left operand its
result is. -/
theorem levelsUnder_binary_le {a b : Operation} (h : a.isAdditive = b.isAdditive)
    {left right : Expr} {n : Nat} (hleft : left.levelsUnder b ≤ n) (hright : right.levels + 1 ≤ n) :
    (Expr.binary left a right).levelsUnder b ≤ n := by
  have hgoes : (Expr.binary left a right).levelsUnder b = (Expr.binary left a right).levels :=
    if_pos (beq_iff_eq.2 h)
  have hunder : left.levelsUnder a = left.levelsUnder b := by
    rw [levelsUnder, isRunOf_congr h, levelsUnder]
  rw [hgoes, levels_binary, hunder]
  exact Nat.max_le.2 ⟨hleft, hright⟩

theorem height_pos (expr : Expr) : 0 < expr.height := by
  cases expr <;> exact Nat.succ_pos _

/-- **The height beyond the levels** is at most the number of operations that go on a row. -/
theorem height_le_levels_add_repeats (expr : Expr) :
    expr.height ≤ expr.levels + expr.repeats := by
  induction expr with
  | number value => exact Nat.le_refl 1
  | field name => exact Nat.le_refl 1
  | binary left operation right ihleft ihright =>
    simp only [height, levels, repeats]
    split <;> omega
  | negate inner ih =>
    simp only [height, levels, repeats]
    omega

end Expr

namespace Formula

/-! ### Levels and nesting -/

/-- A bound of the levels of what a phrase stands for.  What follows a term or a factor keeps the
bound, if that one keeps it as a left operand. -/
def Category.LevelsWithin (n : Nat) : (category : Category) → category.Meaning → Prop
  | .expression, expr => expr.levels ≤ 2 * n + 3
  | .sums, joined => ∀ left : Expr, left.levelsUnder .add ≤ 2 * n + 3 →
    Expr.levels (joined left) ≤ 2 * n + 3
  | .term, expr => expr.levels ≤ 2 * n + 2
  | .products, joined => ∀ left : Expr, left.levelsUnder .mul ≤ 2 * n + 2 →
    Expr.levels (joined left) ≤ 2 * n + 2
  | .factor, expr => expr.levels ≤ 2 * n + 1
  | .operand, expr => expr.levels ≤ 2 * n + 1

theorem Sign.isAdditive_operation (sign : Sign) :
    sign.operation.isAdditive = Operation.add.isAdditive := by
  cases sign <;> rfl

theorem Scaling.isAdditive_operation (scaling : Scaling) :
    scaling.operation.isAdditive = Operation.mul.isAdditive := by
  cases scaling <;> rfl

namespace Phrase

/-- **The levels of what a phrase stands for are bounded by its nesting.**  Each parenthesis or sign
is good for at most two levels: a row of terms and a row of factors. -/
theorem levels_within {category : Category} (phrase : Phrase category) (n : Nat)
    (h : phrase.nesting ≤ n) : category.LevelsWithin n phrase.meaning := by
  induction phrase generalizing n with
  | expression first rest ihfirst ihrest =>
    obtain ⟨hfirst, hrest⟩ := Nat.max_le.1 h
    have hterm : first.meaning.levels ≤ 2 * n + 2 := ihfirst n hfirst
    have hunder := Expr.levelsUnder_le .add first.meaning
    exact ihrest n hrest first.meaning (by omega)
  | noSum =>
    intro left hleft
    exact (left.levels_le_levelsUnder _).trans hleft
  | sum sign next rest ihnext ihrest =>
    intro left hleft
    obtain ⟨hnext, hrest⟩ := Nat.max_le.1 h
    have hterm : next.meaning.levels ≤ 2 * n + 2 := ihnext n hnext
    exact ihrest n hrest _
      (Expr.levelsUnder_binary_le sign.isAdditive_operation hleft (Nat.succ_le_succ hterm))
  | term first rest ihfirst ihrest =>
    obtain ⟨hfirst, hrest⟩ := Nat.max_le.1 h
    have hfactor : first.meaning.levels ≤ 2 * n + 1 := ihfirst n hfirst
    have hunder := Expr.levelsUnder_le .mul first.meaning
    exact ihrest n hrest first.meaning (by omega)
  | noProduct =>
    intro left hleft
    exact (left.levels_le_levelsUnder _).trans hleft
  | product scaling next rest ihnext ihrest =>
    intro left hleft
    obtain ⟨hnext, hrest⟩ := Nat.max_le.1 h
    have hfactor : next.meaning.levels ≤ 2 * n + 1 := ihnext n hnext
    exact ihrest n hrest _
      (Expr.levelsUnder_binary_le scaling.isAdditive_operation hleft (Nat.succ_le_succ hfactor))
  | signed sign inner ih =>
    obtain ⟨m, rfl⟩ := Nat.exists_eq_add_of_le' (Nat.one_le_of_lt h)
    have hinner : inner.meaning.levels ≤ 2 * m + 1 := ih m (Nat.le_of_succ_le_succ h)
    cases sign with
    | plus =>
      show inner.meaning.levels ≤ 2 * (m + 1) + 1
      omega
    | minus =>
      show inner.meaning.levels + 1 ≤ 2 * (m + 1) + 1
      omega
  | operand inner ih => exact ih n h
  | number value => exact Nat.le_add_left 1 (2 * n)
  | field name => exact Nat.le_add_left 1 (2 * n)
  | parentheses inner ih =>
    obtain ⟨m, rfl⟩ := Nat.exists_eq_add_of_le' (Nat.one_le_of_lt h)
    have hinner : inner.meaning.levels ≤ 2 * m + 3 := ih m (Nat.le_of_succ_le_succ h)
    show inner.meaning.levels ≤ 2 * (m + 1) + 1
    omega

end Phrase

/-! ### Height and length -/

/-- A bound of the height of what some tokens stand for by their number. -/
def Category.HeightWithin (n : Nat) : (category : Category) → category.Meaning → Prop
  | .expression, expr => expr.height ≤ n
  | .sums, joined => ∀ left : Expr, Expr.height (joined left) ≤ left.height + n
  | .term, expr => expr.height ≤ n
  | .products, joined => ∀ left : Expr, Expr.height (joined left) ≤ left.height + n
  | .factor, expr => expr.height ≤ n
  | .operand, expr => expr.height ≤ n

namespace Phrase

/-- **An expression is at most as high as it has tokens.** -/
theorem height_within {category : Category} (phrase : Phrase category) :
    category.HeightWithin phrase.tokens.length phrase.meaning := by
  induction phrase with
  | expression first rest ihfirst ihrest =>
    have hfirst : first.meaning.height ≤ first.tokens.length := ihfirst
    have hrest := ihrest first.meaning
    show Expr.height (rest.meaning first.meaning) ≤ (first.tokens ++ rest.tokens).length
    rw [List.length_append]
    omega
  | noSum => exact fun left => Nat.le_refl _
  | sum sign next rest ihnext ihrest =>
    intro left
    have hnext : next.meaning.height ≤ next.tokens.length := ihnext
    have hrest := ihrest (.binary left sign.operation next.meaning)
    simp only [Expr.height] at hrest
    simp only [tokens, List.length_cons, List.length_append, meaning]
    omega
  | term first rest ihfirst ihrest =>
    have hfirst : first.meaning.height ≤ first.tokens.length := ihfirst
    have hrest := ihrest first.meaning
    show Expr.height (rest.meaning first.meaning) ≤ (first.tokens ++ rest.tokens).length
    rw [List.length_append]
    omega
  | noProduct => exact fun left => Nat.le_refl _
  | product scaling next rest ihnext ihrest =>
    intro left
    have hnext : next.meaning.height ≤ next.tokens.length := ihnext
    have hrest := ihrest (.binary left scaling.operation next.meaning)
    simp only [Expr.height] at hrest
    simp only [tokens, List.length_cons, List.length_append, meaning]
    omega
  | signed sign inner ih =>
    have hinner : inner.meaning.height ≤ inner.tokens.length := ih
    cases sign with
    | plus => exact hinner.trans (Nat.le_succ _)
    | minus => exact Nat.succ_le_succ hinner
  | operand inner ih => exact ih
  | number value => exact Nat.le_refl 1
  | field name => exact Nat.le_refl 1
  | parentheses inner ih =>
    have hinner : inner.meaning.height ≤ inner.tokens.length := ih
    show inner.meaning.height ≤ (Token.opening :: (inner.tokens ++ [.closing])).length
    rw [List.length_cons, List.length_append]
    omega

end Phrase

end Formula

namespace Scan

theorem length_lt_of_lexes {cs rest : List Char} {token : Token} (h : Lexes cs token rest) :
    rest.length < cs.length := by
  cases h with
  | symbol _ => exact Nat.lt_succ_self _
  | reference _ _ =>
    simp only [List.length_cons, List.length_append]
    omega
  | number hnumeral _ _ =>
    have hpos := List.length_pos_iff.2 (numeral_ne_nil hnumeral)
    rw [List.length_append]
    omega

/-- Every token takes some character. -/
theorem length_le_of_tokenizes {cs : List Char} {tokens : List Token} (h : Tokenizes cs tokens) :
    tokens.length ≤ cs.length := by
  induction h with
  | done => exact Nat.le_refl 0
  | blank _ _ ih => exact ih.trans (Nat.le_succ _)
  | token htoken _ ih =>
    have hlt := length_lt_of_lexes htoken
    rw [List.length_cons]
    omega

end Scan

namespace Formula

/-- **The height of a formula.**  With a row of operations of one rank taken as one level, the
levels of a formula are bounded by the limit of open parentheses and signs.  Each operation that
goes on a row adds at most one to the height, and the length of the text bounds the height too. -/
theorem parse_height_le {source : String} {formula : Formula} (h : parse source = .ok formula) :
    formula.expr.levels ≤ 2 * maxDepth + 3 ∧
      formula.expr.height ≤ formula.expr.levels + formula.expr.repeats ∧
      formula.expr.height ≤ source.length := by
  obtain ⟨phrase, htokens, hnesting, hmeaning⟩ := exists_phrase_of_parse h
  have hlevels : phrase.meaning.levels ≤ 2 * maxDepth + 3 := phrase.levels_within maxDepth hnesting
  have hheight : phrase.meaning.height ≤ phrase.tokens.length := phrase.height_within
  have hlength := Scan.length_le_of_tokenizes htokens
  rw [← hmeaning]
  refine ⟨hlevels, phrase.meaning.height_le_levels_add_repeats, hheight.trans ?_⟩
  rw [← String.length_toList]
  exact hlength

theorem parse_height_le_signed :
    let one : Expr := .number .one
    let row : Expr := .binary (.binary one .add one) .sub one
    let formula : Formula := ⟨"-(1+1-1)*1", .binary (.negate row) .mul one⟩
    parse "-(1+1-1)*1" = .ok formula ∧ formula.expr.levels ≤ 2 * maxDepth + 3 ∧
      formula.expr.height ≤ formula.expr.levels + formula.expr.repeats ∧
      formula.expr.height ≤ "-(1+1-1)*1".length := by
  intro one row formula
  have hparse : parse "-(1+1-1)*1" = .ok formula := by decide +kernel
  exact ⟨hparse, parse_height_le hparse⟩

/-! ### Long sums -/

/-- The characters that add one to a sum, a number of times. -/
def onesAfter : Nat → List Char
  | 0 => []
  | n + 1 => '+' :: '1' :: onesAfter n

/-- The sum of ones with a number of plus signs. -/
def sumOfOnes (n : Nat) : String :=
  String.ofList ('1' :: onesAfter n)

example : sumOfOnes 2 = "1+1+1" := rfl

def onePhrase : Phrase .term :=
  .term (.operand (.number .one)) .noProduct

def onesPhrase : Nat → Phrase .sums
  | 0 => .noSum
  | n + 1 => .sum .plus onePhrase (onesPhrase n)

theorem lexes_one (n : Nat) : Scan.Lexes ('1' :: onesAfter n) (.number .one) (onesAfter n) := by
  have hdigits : ∀ c ∈ ['1'], c.isDigit = true := fun c hc => by
    rw [List.mem_singleton.1 hc]
    rfl
  have hstop : Scan.continuesNumber false (onesAfter n) = false := by
    cases n <;> rfl
  exact Scan.Lexes.number (.whole hdigits (List.cons_ne_nil _ _)) hstop rfl

theorem tokenizes_onesAfter (n : Nat) :
    Scan.Tokenizes (onesAfter n) (onesPhrase n).tokens := by
  induction n with
  | zero => exact .done
  | succ n ih => exact .token (.symbol rfl) (.token (lexes_one n) ih)

theorem nesting_onesPhrase (n : Nat) : (onesPhrase n).nesting = 0 := by
  induction n with
  | zero => rfl
  | succ n ih => exact Nat.max_eq_zero_iff.2 ⟨rfl, ih⟩

theorem height_onesPhrase (n : Nat) (left : Expr) :
    Expr.height ((onesPhrase n).meaning left) = left.height + n := by
  induction n generalizing left with
  | zero => rfl
  | succ n ih =>
    have hpos := left.height_pos
    have hone : onePhrase.meaning.height = 1 := rfl
    show Expr.height ((onesPhrase n).meaning (.binary left .add onePhrase.meaning)) = _
    rw [ih, Expr.height, hone]
    omega

/-- **Formulas are as high as one likes**: a sum of ones without parentheses and signs is as high as
it has ones. -/
theorem exists_parse_height (n : Nat) :
    ∃ formula, parse (sumOfOnes n) = .ok formula ∧ formula.expr.height = n + 1 := by
  let phrase : Phrase .expression := .expression onePhrase (onesPhrase n)
  have htokenizes : Scan.Tokenizes (sumOfOnes n).toList phrase.tokens := by
    rw [sumOfOnes, String.toList_ofList]
    exact .token (lexes_one n) (tokenizes_onesAfter n)
  have hnesting : phrase.nesting ≤ maxDepth :=
    Nat.max_le.2 ⟨Nat.zero_le _, (nesting_onesPhrase n).trans_le (Nat.zero_le _)⟩
  refine ⟨⟨sumOfOnes n, phrase.meaning⟩, parse_of_phrase phrase htokenizes hnesting, ?_⟩
  exact (height_onesPhrase n _).trans (Nat.add_comm 1 n)

/-- The limit of open parentheses and signs, four times over, does not bound the height. -/
theorem parse_height_not_le_four_mul :
    ∃ formula, parse (sumOfOnes 256) = .ok formula ∧
      ¬ formula.expr.height ≤ 4 * maxDepth := by
  obtain ⟨formula, hparse, hheight⟩ := exists_parse_height 256
  refine ⟨formula, hparse, ?_⟩
  rw [hheight]
  decide

end Formula

end PeriodSheet
