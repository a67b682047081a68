import PeriodSheet.Json.Reader

/-!
# The words of a TOML document

Keys, strings and scalar values at the front of a text.  Each reader returns what it read and the
characters that follow, or nothing where the text is not of its form.
-/

namespace PeriodSheet.Toml

open PeriodSheet.Text

/-! ### Space -/

/-- The text without the spaces and tabs at its front. -/
def skipSpace (cs : List Char) : List Char :=
  cs.dropWhile fun c => c == ' ' || c == '\t'

/-- Whether a character must not stand in a comment or a string as it is. -/
def isControl (c : Char) : Bool :=
  (c.toNat < 0x20 && c != '\t') || c.toNat == 0x7F

/-- The text after a comment, if there is one at the front; it ends before the line does. -/
def skipComment? : List Char → Option (List Char)
  | '#' :: rest =>
    let after := rest.dropWhile fun c => !isControl c
    match after with
    | [] => some after
    | '\n' :: _ => some after
    | '\r' :: '\n' :: _ => some after
    | _ => none
  | cs => some cs

/-- The text after the end of a line, if it is at the front. -/
def newline? : List Char → Option (List Char)
  | '\n' :: rest => some rest
  | '\r' :: '\n' :: rest => some rest
  | _ => none

/-- The text after the rest of a line that holds nothing more. -/
def endLine? (cs : List Char) : Option (List Char) := do
  let rest ← skipComment? (skipSpace cs)
  if rest.isEmpty then some [] else newline? rest

/-- The text after spaces, comments and line ends. -/
def skipLines? (fuel : Nat) (cs : List Char) : Option (List Char) :=
  match fuel with
  | 0 => none
  | fuel + 1 => do
    let rest ← skipComment? (skipSpace cs)
    match newline? rest with
    | some rest => skipLines? fuel rest
    | none => some rest

/-! ### Strings -/

def charOf? (code : Nat) : Option Char :=
  if code < 0xD800 ∨ (0xE000 ≤ code ∧ code < 0x110000) then some (Char.ofNat code) else none

/-- Reads what follows a backslash. -/
def readEscape : List Char → Option (Char × List Char)
  | 'b' :: rest => some ('\x08', rest)
  | 't' :: rest => some ('\t', rest)
  | 'n' :: rest => some ('\n', rest)
  | 'f' :: rest => some ('\x0c', rest)
  | 'r' :: rest => some ('\r', rest)
  | 'e' :: rest => some ('\x1b', rest)
  | '"' :: rest => some ('"', rest)
  | '\\' :: rest => some ('\\', rest)
  | 'x' :: a :: b :: rest => ((Json.ofHex? [a, b]).bind charOf?).map (·, rest)
  | 'u' :: a :: b :: c :: d :: rest =>
    ((Json.ofHex? [a, b, c, d]).bind charOf?).map (·, rest)
  | 'U' :: a :: b :: c :: d :: e :: f :: g :: h :: rest =>
    ((Json.ofHex? [a, b, c, d, e, f, g, h]).bind charOf?).map (·, rest)
  | _ => none

/-- Reads a string of one line up to its closing quote; `read` holds the characters before, last one
first. -/
def readBasic (fuel : Nat) (read : List Char) (cs : List Char) : Option (String × List Char) :=
  match fuel, cs with
  | 0, _ => none
  | _, [] => none
  | _, '"' :: rest => some (String.ofList read.reverse, rest)
  | fuel + 1, '\\' :: rest =>
    match readEscape rest with
    | some (c, rest) => readBasic fuel (c :: read) rest
    | none => none
  | fuel + 1, c :: rest => if isControl c then none else readBasic fuel (c :: read) rest

/-- Reads a string of one line without escapes up to its closing quote. -/
def readLiteral (cs : List Char) : Option (String × List Char) :=
  let body := cs.takeWhile fun c => c != '\'' && !isControl c
  match cs.drop body.length with
  | '\'' :: rest => some (String.ofList body, rest)
  | _ => none

/-- The text after an escaped line end: all spaces and line ends up to the next character. -/
def skipFolded : List Char → List Char
  | '\r' :: '\n' :: rest => skipFolded rest
  | c :: rest => if c == ' ' || c == '\t' || c == '\n' then skipFolded rest else c :: rest
  | [] => []

/-- Whether only spaces are left on the line. -/
def isLineEnd (cs : List Char) : Bool :=
  (newline? (skipSpace cs)).isSome

/-- Closes a string of several lines: up to two quotes before the closing ones belong to it. -/
def closeLong (quote : Char) (read : List Char) (cs : List Char) : Option (String × List Char) :=
  let extra := (cs.takeWhile (· == quote)).length
  if extra ≤ 2 then
    some (String.ofList (read.reverse ++ List.replicate extra quote), cs.drop extra)
  else none

/-- Reads a string of several lines up to its closing quotes; its line ends stay as they are. -/
def readLong (quote : Char) (fuel : Nat) (read : List Char) (cs : List Char) :
    Option (String × List Char) :=
  match fuel, cs with
  | 0, _ => none
  | _, [] => none
  | fuel + 1, '\n' :: rest => readLong quote fuel ('\n' :: read) rest
  | fuel + 1, '\r' :: '\n' :: rest => readLong quote fuel ('\n' :: '\r' :: read) rest
  | fuel + 1, c :: rest =>
    if c == quote && rest.take 2 == [quote, quote] then closeLong quote read (rest.drop 2)
    else if c == '\\' && quote == '"' then
      if isLineEnd rest then readLong quote fuel read (skipFolded rest)
      else match readEscape rest with
        | some (c, rest) => readLong quote fuel (c :: read) rest
        | none => none
    else if isControl c then none
    else readLong quote fuel (c :: read) rest

/-- The text after the line end that directly follows the opening quotes. -/
def dropFirstNewline (cs : List Char) : List Char :=
  (newline? cs).getD cs

def readString (cs : List Char) : Option (String × List Char) :=
  match cs with
  | '"' :: '"' :: '"' :: rest => readLong '"' (rest.length + 1) [] (dropFirstNewline rest)
  | '\'' :: '\'' :: '\'' :: rest => readLong '\'' (rest.length + 1) [] (dropFirstNewline rest)
  | '"' :: rest => readBasic (rest.length + 1) [] rest
  | '\'' :: rest => readLiteral rest
  | _ => none

/-! ### Keys -/

/-- Whether a character may stand in a key without quotes. -/
def isBare (c : Char) : Bool :=
  c.isAlphanum || c == '_' || c == '-'

def readKey (cs : List Char) : Option (String × List Char) :=
  match cs with
  | '"' :: rest => readBasic (rest.length + 1) [] rest
  | '\'' :: rest => readLiteral rest
  | cs =>
    let key := cs.takeWhile isBare
    if key.isEmpty then none else some (String.ofList key, cs.drop key.length)

/-- How many parts a key may have, and how many arrays and inline tables may stand inside one
another. -/
def maxDepth : Nat := 80

/-- Reads a key of `count` parts at most, with dots between them. -/
def readKeysUpTo (count : Nat) (cs : List Char) : Option (List String × List Char) :=
  match count with
  | 0 => none
  | count + 1 => do
    let (key, rest) ← readKey (skipSpace cs)
    match skipSpace rest with
    | '.' :: rest => (readKeysUpTo count rest).map fun (keys, rest) => (key :: keys, rest)
    | rest => some ([key], rest)

def readKeys (cs : List Char) : Option (List String × List Char) :=
  readKeysUpTo maxDepth cs

/-! ### Numbers -/

/-- Whether every underscore stands between two digits. -/
def underscoresSeparate (isDigit : Char → Bool) : List Char → Bool
  | [] => false
  | [c] => isDigit c
  | '_' :: _ => false
  | _ :: '_' :: d :: rest => isDigit d && underscoresSeparate isDigit (d :: rest)
  | c :: rest => isDigit c && underscoresSeparate isDigit rest

/-- The digits of a number without its underscores, where they stand between digits. -/
def digitsOf? (isDigit : Char → Bool) (cs : List Char) : Option (List Char) :=
  if underscoresSeparate isDigit cs && (cs.filter (· != '_')).all isDigit then
    some (cs.filter (· != '_'))
  else none

def inBase (base : Nat) (cs : List Char) : Nat :=
  cs.foldl (fun n c => base * n + ((Json.hexValue? c).getD 0)) 0

def isBaseDigit (base : Nat) (c : Char) : Bool :=
  match Json.hexValue? c with
  | some n => n < base
  | none => false

def splitSign : List Char → Bool × List Char
  | '-' :: rest => (true, rest)
  | '+' :: rest => (false, rest)
  | cs => (false, cs)

/-- The value of an integer, where it fits 64 bits.  A larger one may still be skipped as long as it
fits 128 bits. -/
def integerOf (n : Int) : Json :=
  if -(twoPow 63 : Int) ≤ n ∧ n < twoPow 64 then .integer n
  else .unreadable (-(twoPow 127 : Int) ≤ n && n < twoPow 128)

/-- Digits without a leading zero, unless they are a zero alone. -/
def wholeDigits? (cs : List Char) : Option (List Char) := do
  let ds ← digitsOf? Char.isDigit cs
  match ds with
  | '0' :: _ :: _ => none
  | ds => some ds

def integer? (lexeme : List Char) : Option Json :=
  match lexeme with
  | '0' :: 'x' :: rest => (digitsOf? (isBaseDigit 16) rest).map fun ds => integerOf (inBase 16 ds)
  | '0' :: 'o' :: rest => (digitsOf? (isBaseDigit 8) rest).map fun ds => integerOf (inBase 8 ds)
  | '0' :: 'b' :: rest => (digitsOf? (isBaseDigit 2) rest).map fun ds => integerOf (inBase 2 ds)
  | _ =>
    let (negative, rest) := splitSign lexeme
    (wholeDigits? rest).map fun ds =>
      integerOf (if negative then -(ofDigits ds : Int) else ofDigits ds)

/-- The number after the letter of an exponent. -/
def exponent? (cs : List Char) : Option Int :=
  let (negative, rest) := splitSign cs
  (digitsOf? Char.isDigit rest).map fun ds =>
    if negative then -(ofDigits ds : Int) else ofDigits ds

/-- Whether a number times a power of ten is rounded to infinity.  Its length decides where it is
far from the bound, which has 309 digits. -/
def isInfinite (n : Nat) (exponent : Int) : Bool :=
  let length := exponent + (digits n).length
  if n = 0 ∨ length < 309 then false
  else if 309 < length then true
  else Json.binaryBound * tenPow (-exponent).toNat ≤ n * tenPow exponent.toNat

/-- The value of a number with a fraction, an exponent or both, kept as its text. -/
def realOf (n : Nat) (exponent : Int) (lexeme : List Char) : Json :=
  if isInfinite n exponent then .unreadable false else .real (String.ofList lexeme)

/-- A number with a fraction, an exponent or both, or one of the two words for what is none. -/
def real? (lexeme : List Char) : Option Json := do
  let body := (splitSign lexeme).2
  if body = ['i', 'n', 'f'] ∨ body = ['n', 'a', 'n'] then return .real (String.ofList lexeme)
  let isMark := fun c => c == 'e' || c == 'E'
  let mantissa := body.takeWhile (!isMark ·)
  let whole ← wholeDigits? (mantissa.takeWhile (· != '.'))
  let fraction ← match mantissa.dropWhile (· != '.') with
    | [] => some []
    | _ :: ds => digitsOf? Char.isDigit ds
  let exponent ← match body.dropWhile (!isMark ·) with
    | [] => if fraction.isEmpty then none else some 0
    | _ :: rest => exponent? rest
  return realOf (ofDigits (whole ++ fraction)) (exponent - fraction.length) lexeme

/-! ### Dates -/

/-- The number of exactly `count` digits at the front, and what follows. -/
def fixedNumber? (count : Nat) (cs : List Char) : Option (Nat × List Char) :=
  let ds := cs.take count
  if ds.length = count ∧ ds.all Char.isDigit then some (ofDigits ds, cs.drop count) else none

/-- Whether a text is a second of a minute, with a fraction or without. -/
def isSecond (cs : List Char) : Bool :=
  match fixedNumber? 2 cs with
  | some (second, rest) => second ≤ 60 && match rest with
    | [] => true
    | '.' :: ds => !ds.isEmpty && ds.all Char.isDigit
    | _ => false
  | none => false

/-- Whether a text is a time of the day; it may end with the minute. -/
def isTime (cs : List Char) : Bool :=
  match fixedNumber? 2 cs with
  | some (hour, ':' :: cs) =>
    match fixedNumber? 2 cs with
    | some (minute, rest) => hour < 24 && minute < 60 && match rest with
      | [] => true
      | ':' :: second => isSecond second
      | _ => false
    | none => false
  | _ => false

/-- Whether a text is a time of the day with an optional distance from universal time. -/
def isOffsetTime (cs : List Char) : Bool :=
  let isOffset := fun c => c == 'Z' || c == 'z' || c == '+' || c == '-'
  isTime (cs.takeWhile (!isOffset ·)) && match cs.dropWhile (!isOffset ·) with
    | [] => true
    | [c] => c == 'Z' || c == 'z'
    | sign :: rest =>
      (sign == '+' || sign == '-') && match fixedNumber? 2 rest with
        | some (hour, ':' :: rest) =>
          match fixedNumber? 2 rest with
          | some (minute, []) => hour < 24 && minute < 60
          | _ => false
        | _ => false

/-- The text after a date at the front. -/
def afterDate? (cs : List Char) : Option (List Char) := do
  let (year, cs) ← fixedNumber? 4 cs
  let '-' :: cs := cs | none
  let (month, cs) ← fixedNumber? 2 cs
  let '-' :: cs := cs | none
  let (day, cs) ← fixedNumber? 2 cs
  let leap := year % 4 == 0 && (year % 100 != 0 || year % 400 == 0)
  let last :=
    if month = 2 then (if leap then 29 else 28)
    else if month = 4 ∨ month = 6 ∨ month = 9 ∨ month = 11 then 30
    else 31
  if 1 ≤ month ∧ month ≤ 12 ∧ 1 ≤ day ∧ day ≤ last then some cs else none

/-- Whether a text is a date, a time or both. -/
def isDateTime (lexeme : List Char) : Bool :=
  match afterDate? lexeme with
  | some [] => true
  | some (mark :: rest) => (mark == 'T' || mark == 't' || mark == ' ') && isOffsetTime rest
  | none => isTime lexeme

/-- A date, a time or both, as an object that holds their text. -/
def dateTime? (lexeme : List Char) : Option Json :=
  if isDateTime lexeme then some (.record [("datetime", .text (String.ofList lexeme))]) else none

/-! ### Scalars -/

/-- Whether a character may stand in a number, a date or a word. -/
def isScalarChar (c : Char) : Bool :=
  c.isAlphanum || c == '_' || c == '+' || c == '-' || c == '.' || c == ':'

/-- The scalar at the front and what follows; a space may part a date from its time. -/
def spanScalar (cs : List Char) : List Char × List Char :=
  let word := cs.takeWhile isScalarChar
  let rest := cs.drop word.length
  match afterDate? word, rest with
  | some [], ' ' :: digit :: tail =>
    if digit.isDigit then
      let time := (digit :: tail).takeWhile isScalarChar
      (word ++ ' ' :: time, (digit :: tail).drop time.length)
    else (word, rest)
  | _, _ => (word, rest)

/-- Reads a truth value, a number or a date. -/
def readScalar (cs : List Char) : Option (Json × List Char) :=
  let (lexeme, rest) := spanScalar cs
  let value :=
    if lexeme == ['t', 'r', 'u', 'e'] then some (.bool true)
    else if lexeme == ['f', 'a', 'l', 's', 'e'] then some (.bool false)
    else integer? lexeme <|> real? lexeme <|> dateTime? lexeme
  value.map (·, rest)

end PeriodSheet.Toml
