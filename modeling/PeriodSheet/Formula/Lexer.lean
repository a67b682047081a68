import PeriodSheet.Decimal.Entered
import PeriodSheet.Formula.Error

/-!
# Tokens of a formula

Splits the text of a formula into tokens.  White space separates tokens; a number is a run of digits
with at most one decimal mark, which a digit follows; a reference runs from a bracket to the first
closing one.  Any other character is forbidden.  The scan stops at the first fault, and the tokens
before it are still returned: the parser reports the fault only when it gets there.
-/

namespace PeriodSheet

open Text

/-- A token and the position where it starts. -/
structure Placed where
  token : Token
  position : Nat

/-- How a scan ends: at the end of the text, or at a fault. -/
inductive Ending where
  | finish (position : Nat)
  | fault (error : FormulaError)

/-- The tokens of a text up to where the scan ends. -/
structure Scan where
  tokens : List Placed
  ending : Ending

namespace Scan

/-- The scan with one more token in front. -/
def push (token : Token) (position : Nat) (scan : Scan) : Scan :=
  { scan with tokens := ⟨token, position⟩ :: scan.tokens }

/-- The scan that ends at a fault. -/
def stop (error : FormulaError) : Scan :=
  ⟨[], .fault error⟩

def byteLength (cs : List Char) : Nat :=
  cs.foldl (fun n c => n + c.utf8Size) 0

def single? : Char → Option Token
  | '+' => some (.operator .add)
  | '-' => some (.operator .sub)
  | '*' => some (.operator .mul)
  | '/' => some (.operator .div)
  | '(' => some .opening
  | ')' => some .closing
  | _ => none

def startsWithDigit : List Char → Bool
  | c :: _ => c.isDigit
  | [] => false

/-- Splits off the number at the front.  `marked` says whether its decimal mark was passed. -/
def spanNumber (marked : Bool) : List Char → List Char × List Char
  | [] => ([], [])
  | c :: rest =>
    if c.isDigit then
      let (number, rest) := spanNumber marked rest
      (c :: number, rest)
    else if Decimal.isMark c && !marked && startsWithDigit rest then
      let (number, rest) := spanNumber true rest
      (c :: number, rest)
    else ([], c :: rest)

theorem spanNumber_snd_length_le (marked : Bool) (cs : List Char) :
    (spanNumber marked cs).2.length ≤ cs.length := by
  fun_induction spanNumber marked cs with
  | case1 => exact Nat.le_refl _
  | case2 marked c rest _ number rest' h ih => simp_all; omega
  | case3 marked c rest _ _ number rest' h ih => simp_all; omega
  | case4 => exact Nat.le_refl _

/-- Whether a number starts here: with a digit, or with a mark that a digit follows. -/
def startsNumber (c : Char) (rest : List Char) : Bool :=
  c.isDigit || (Decimal.isMark c && startsWithDigit rest)

/-- The characters after a number that starts with `c` are among those after `c`. -/
theorem spanNumber_snd_length_le_of_starts {c : Char} {rest : List Char}
    (h : startsNumber c rest = true) :
    (spanNumber false (c :: rest)).2.length ≤ rest.length := by
  have hle := spanNumber_snd_length_le false rest
  have hle' := spanNumber_snd_length_le true rest
  unfold startsNumber at h
  unfold spanNumber
  grind

/-- The text of a number with a point for its comma, and with a zero before a point in front. -/
def numberText (cs : List Char) : List Char :=
  match cs.map fun c => if c = ',' then '.' else c with
  | '.' :: fraction => '0' :: '.' :: fraction
  | text => text

/-- The value of a number as a formula writes it, with a point or a comma. -/
def numberValue? (cs : List Char) : Option Decimal :=
  Decimal.ofChars? (numberText cs)

/-- A token read from the front of a text: how many bytes it takes, and what follows it, no longer
than the text without its first character. -/
structure Lexeme (tail : List Char) where
  token : Token
  width : Nat
  rest : List Char
  shorter : rest.length ≤ tail.length

/-- Reads a reference whose opening bracket stands at a position. -/
def lexReference (position : Nat) (tail : List Char) : Except FormulaError (Lexeme tail) :=
  let name := tail.takeWhile (· != ']')
  if name.length = tail.length then .error (.malformed .unclosedReference position)
  else match FieldName.parse (String.ofList name) with
    | .error error => .error (.malformed (.badName error) position)
    | .ok field =>
      -- positions count bytes, and each bracket has one
      .ok ⟨.field field, byteLength name + 2, tail.drop (name.length + 1), by simp⟩

/-- Reads a number that starts with a character at a position. -/
def lexNumber (position : Nat) (c : Char) (tail : List Char) (h : startsNumber c tail = true) :
    Except FormulaError (Lexeme tail) :=
  let number := (spanNumber false (c :: tail)).1
  match numberValue? number with
  | none => .error (.malformed (.badNumber (String.ofList number)) position)
  | some value =>
    .ok ⟨.number value, byteLength number, (spanNumber false (c :: tail)).2,
      spanNumber_snd_length_le_of_starts h⟩

/-- Reads the token that starts with a character at a position. -/
def lexToken (position : Nat) (c : Char) (tail : List Char) : Except FormulaError (Lexeme tail) :=
  match single? c with
  | some token => .ok ⟨token, 1, tail, Nat.le_refl _⟩
  | none =>
    if c = '[' then lexReference position tail
    else if h : startsNumber c tail = true then lexNumber position c tail h
    else .error (.forbidden c.toString position)

/-- Scans characters, the first of which stands at a position. -/
def scan (position : Nat) : List Char → Scan
  | [] => ⟨[], .finish position⟩
  | c :: tail =>
    if isBlank c then scan (position + c.utf8Size) tail
    else match lexToken position c tail with
      | .error error => stop error
      | .ok lexeme => push lexeme.token position (scan (position + lexeme.width) lexeme.rest)
termination_by cs => cs.length
decreasing_by
  · simp
  · have := lexeme.shorter
    simp only [List.length_cons]
    omega

def ofText (source : String) : Scan :=
  scan 0 source.toList

end Scan

end PeriodSheet
