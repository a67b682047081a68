import PeriodSheet.Formula.Lexer

/-!
# Reading formulas

A recursive-descent reader over the tokens of a formula:

* an expression is terms joined by `+` and `-`,
* a term is factors joined by `*` and `/`,
* a factor is an operand, or a sign before a factor,
* an operand is a number, a reference, or an expression in parentheses.

Operations of equal rank associate to the left.  Open parentheses and signs may nest to a limited
depth.  Each reader returns the tokens that it left over, with the fact that it consumed some, and
that is why the recursion ends.
-/

namespace PeriodSheet

namespace Formula

/-- How many parentheses and signs may be open at a time. -/
def maxDepth : Nat := 64

/-- What a reader returns: an expression, and the tokens left over, fewer than there were. -/
structure Reading (tokens : List Placed) where
  expr : Expr
  rest : List Placed
  shorter : rest.length < tokens.length

namespace Reading

/-- The reading of a list with more tokens in front. -/
def widen {inner outer : List Placed} (r : Reading inner) (h : inner.length ≤ outer.length) :
    Reading outer :=
  ⟨r.expr, r.rest, Nat.lt_of_lt_of_le r.shorter h⟩

def withExpr {tokens : List Placed} (r : Reading tokens) (expr : Expr) : Reading tokens :=
  { r with expr }

end Reading

/-- The operation of a token that joins terms. -/
def additive? : Token → Option Operation
  | .operator .add => some .add
  | .operator .sub => some .sub
  | _ => none

/-- The operation of a token that joins factors. -/
def multiplicative? : Token → Option Operation
  | .operator .mul => some .mul
  | .operator .div => some .div
  | _ => none

/-- The error at the next token: the fault of the scan where it stopped there, else the error that
says what was found. -/
def errorAt (ending : Ending) (tokens : List Placed) (error : Option Token → FormError) :
    FormulaError :=
  match tokens, ending with
  | next :: _, _ => .malformed (error (some next.token)) next.position
  | [], .finish position => .malformed (error none) position
  | [], .fault error => error

/-- Checks the nesting depth after a sign or an opening parenthesis. -/
def enter (ending : Ending) (depth : Nat) (tokens : List Placed) : Except FormulaError Unit :=
  match tokens, ending with
  -- a fault of the scan that comes next is reported before the depth
  | [], .fault error => .error error
  | _, _ => if depth < maxDepth then .ok () else .error (errorAt ending tokens fun _ => .tooDeep)

mutual

/-- Reads terms joined by `+` and `-`. -/
def readExpression (ending : Ending) (depth : Nat) (tokens : List Placed) :
    Except FormulaError (Reading tokens) :=
  match readTerm ending depth tokens with
  | .error error => .error error
  | .ok first => readTerms ending depth tokens first
termination_by 4 * tokens.length + 3
decreasing_by
  · omega
  · have := first.shorter; omega

/-- Reads the terms that follow a first one. -/
def readTerms (ending : Ending) (depth : Nat) (tokens : List Placed) (left : Reading tokens) :
    Except FormulaError (Reading tokens) :=
  match hrest : left.rest with
  | [] => .ok left
  | next :: rest =>
    match additive? next.token with
    | none => .ok left
    | some operation =>
      match readTerm ending depth rest with
      | .error error => .error error
      | .ok right =>
        readTerms ending depth tokens
          ⟨.binary left.expr operation right.expr, right.rest, by
            have := right.shorter; have := left.shorter; simp_all; omega⟩
termination_by 4 * left.rest.length + 3
decreasing_by
  · rw [hrest, List.length_cons]; omega
  · have := right.shorter; simp_all; omega

/-- Reads factors joined by `*` and `/`. -/
def readTerm (ending : Ending) (depth : Nat) (tokens : List Placed) :
    Except FormulaError (Reading tokens) :=
  match readFactor ending depth tokens with
  | .error error => .error error
  | .ok first => readFactors ending depth tokens first
termination_by 4 * tokens.length + 2
decreasing_by
  · omega
  · have := first.shorter; omega

/-- Reads the factors that follow a first one. -/
def readFactors (ending : Ending) (depth : Nat) (tokens : List Placed) (left : Reading tokens) :
    Except FormulaError (Reading tokens) :=
  match hrest : left.rest with
  | [] => .ok left
  | next :: rest =>
    match multiplicative? next.token with
    | none => .ok left
    | some operation =>
      match readFactor ending depth rest with
      | .error error => .error error
      | .ok right =>
        readFactors ending depth tokens
          ⟨.binary left.expr operation right.expr, right.rest, by
            have := right.shorter; have := left.shorter; simp_all; omega⟩
termination_by 4 * left.rest.length + 2
decreasing_by
  · rw [hrest, List.length_cons]; omega
  · have := right.shorter; simp_all; omega

/-- Reads an operand with the signs before it. -/
def readFactor (ending : Ending) (depth : Nat) (tokens : List Placed) :
    Except FormulaError (Reading tokens) :=
  match tokens with
  | ⟨.operator .sub, _⟩ :: rest =>
    match enter ending depth rest with
    | .error error => .error error
    | .ok () =>
      match readFactor ending (depth + 1) rest with
      | .error error => .error error
      | .ok inner => .ok ((inner.withExpr (.negate inner.expr)).widen (by simp))
  | ⟨.operator .add, _⟩ :: rest =>
    match enter ending depth rest with
    | .error error => .error error
    | .ok () =>
      match readFactor ending (depth + 1) rest with
      | .error error => .error error
      | .ok inner => .ok (inner.widen (by simp))
  | tokens => readOperand ending depth tokens
termination_by 4 * tokens.length + 1
decreasing_by
  all_goals simp_all

/-- Reads a number, a reference, or an expression in parentheses. -/
def readOperand (ending : Ending) (depth : Nat) (tokens : List Placed) :
    Except FormulaError (Reading tokens) :=
  match tokens with
  | ⟨.number value, _⟩ :: rest => .ok ⟨.number value, rest, by simp⟩
  | ⟨.field name, _⟩ :: rest => .ok ⟨.field name, rest, by simp⟩
  | ⟨.opening, _⟩ :: rest =>
    match enter ending depth rest with
    | .error error => .error error
    | .ok () =>
      match readExpression ending (depth + 1) rest with
      | .error error => .error error
      | .ok inner =>
        match hrest : inner.rest with
        | ⟨.closing, _⟩ :: after =>
          .ok ⟨inner.expr, after, by have := inner.shorter; simp_all; omega⟩
        | found => .error (errorAt ending found .closingExpected)
  | tokens => .error (errorAt ending tokens .operandExpected)
termination_by 4 * tokens.length
decreasing_by
  simp; omega

end

/-- Reads the expression that all tokens make up. -/
def ofScan (scan : Scan) : Except FormulaError Expr :=
  match scan.tokens, scan.ending with
  | [], .finish _ => .error (.malformed .empty 0)
  | tokens, ending =>
    match readExpression ending 0 tokens with
    | .error error => .error error
    | .ok reading =>
      match reading.rest, ending with
      | [], .finish _ => .ok reading.expr
      | found, _ => .error (errorAt ending found .trailing)

def parse (source : String) : Except FormulaError Formula :=
  match ofScan (Scan.ofText source) with
  | .error error => .error error
  | .ok expr => .ok ⟨source, expr⟩

end Formula

end PeriodSheet
