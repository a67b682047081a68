import PeriodSheet.Json.Number

/-!
# Reading JSON text

A recursive reader over the characters of a text.  Each step of the recursion spends one unit of
fuel; a text of `n` characters never needs more than `2 * n + 2`, because two consecutive steps
together consume a character.  What is spelled correctly but is no data is unreadable: a text with
half a pair of surrogates, an object with such a name, a number out of range, and an array or object
inside too many others.
-/

namespace PeriodSheet.Json

open PeriodSheet.Text

def isSpace (c : Char) : Bool :=
  c == ' ' || c == '\n' || c == '\t' || c == '\r'

/-- The characters from the next token on. -/
def skipSpace (cs : List Char) : List Char :=
  cs.dropWhile isSpace

/-! ### Strings -/

def hexValue? (c : Char) : Option Nat :=
  if c.isDigit then some (c.toNat - 48)
  else if 'a' ≤ c ∧ c ≤ 'f' then some (c.toNat - 87)
  else if 'A' ≤ c ∧ c ≤ 'F' then some (c.toNat - 55)
  else none

def ofHex? (cs : List Char) : Option Nat :=
  cs.foldlM (fun n c => (hexValue? c).map (16 * n + ·)) 0

/-- The character that a single-letter escape stands for. -/
def escaped? : Char → Option Char
  | '"' => some '"'
  | '\\' => some '\\'
  | '/' => some '/'
  | 'b' => some '\x08'
  | 'f' => some '\x0c'
  | 'n' => some '\n'
  | 'r' => some '\r'
  | 't' => some '\t'
  | _ => none

/-- The character of a pair of surrogate code units. -/
def ofSurrogates? (high low : Nat) : Option Char :=
  if 0xD800 ≤ high ∧ high < 0xDC00 ∧ 0xDC00 ≤ low ∧ low < 0xE000 then
    some (Char.ofNat (0x10000 + (high - 0xD800) * 0x400 + (low - 0xDC00)))
  else
    none

/-- The character of a code unit that is not a surrogate. -/
def ofUnit? (unit : Nat) : Option Char :=
  if 0xD800 ≤ unit ∧ unit < 0xE000 then none else some (Char.ofNat unit)

/-- The character of an escaped code unit, with the text after it: half a pair takes the other half
from the escape that follows, and is no character without it. -/
def ofEscapedUnit (unit : Nat) (rest : List Char) : Option Char × List Char :=
  match ofUnit? unit, rest with
  | some char, rest => (some char, rest)
  | none, '\\' :: 'u' :: a :: b :: c :: d :: after =>
    match (ofHex? [a, b, c, d]).bind (ofSurrogates? unit) with
    | some char => (some char, after)
    -- the escape that follows is no other half, and is read again as a character of its own
    | none => (none, rest)
  | none, rest => (none, rest)

/-- Reads the rest of a string up to its closing quote; `read` holds the characters before, last
one first.  A string with an escape that is no character is none. -/
def readString (fuel : Nat) (read : Option (List Char)) (cs : List Char) :
    Option (Option String × List Char) :=
  match fuel, cs with
  | 0, _ => none
  | _, [] => none
  | _, '"' :: rest => some (read.map fun read => String.ofList read.reverse, rest)
  | fuel + 1, '\\' :: 'u' :: a :: b :: c :: d :: rest =>
    match ofHex? [a, b, c, d] with
    | some unit =>
      let (char, rest) := ofEscapedUnit unit rest
      readString fuel (do return (← char) :: (← read)) rest
    | none => none
  | fuel + 1, '\\' :: c :: rest =>
    match escaped? c with
    | some char => readString fuel (read.map (char :: ·)) rest
    | none => none
  | fuel + 1, c :: rest =>
    if c.toNat < 0x20 || c == '\\' then none else readString fuel (read.map (c :: ·)) rest

def textOrUnreadable : Option String → Json
  | some s => .text s
  | none => .unreadable true

/-! ### Numbers -/

def spanDigits (cs : List Char) : List Char × List Char :=
  cs.span Char.isDigit

/-- The fraction at the front, with its point; it has a digit. -/
def readFraction : List Char → Option (List Char × List Char)
  | '.' :: rest =>
    match spanDigits rest with
    | ([], _) => none
    | (ds, rest) => some ('.' :: ds, rest)
  | cs => some ([], cs)

/-- The exponent at the front, with its letter; it has a digit. -/
def readExponent (cs : List Char) : Option (List Char × List Char) :=
  match cs with
  | c :: rest =>
    if c == 'e' || c == 'E' then
      let (sign, rest) := match rest with
        | '+' :: rest => (['+'], rest)
        | '-' :: rest => (['-'], rest)
        | rest => ([], rest)
      match spanDigits rest with
      | ([], _) => none
      | (ds, rest) => some (c :: sign ++ ds, rest)
    else some ([], cs)
  | [] => some ([], [])

def readNumber (cs : List Char) : Option (Json × List Char) := do
  let (negative, cs) := match cs with
    | '-' :: rest => (true, rest)
    | cs => (false, cs)
  let (whole, rest) := spanDigits cs
  match whole with
  | [] => none
  -- a zero stands alone before the point
  | '0' :: _ :: _ => none
  | whole =>
    let (fraction, rest) ← readFraction rest
    let (exponent, rest) ← readExponent rest
    some (Numeral.value ⟨negative, whole, fraction, exponent⟩, rest)

/-! ### Values -/

/-- The number of arrays and objects that may stand inside one another. -/
def maxDepth : Nat := 127

/-- An array or object inside `depth` others. -/
def nested (depth : Nat) (value : Json) : Json :=
  if depth < maxDepth then value else .unreadable true

/-- A member of an object, where its name is a text. -/
def member (name : Option String) (value : Json) (members : Option (List (String × Json))) :
    Option (List (String × Json)) := do
  return (← name, value) :: (← members)

/-- The object of some members. -/
def recordOrUnreadable : Option (List (String × Json)) → Json
  | some members => .record members
  | none => .unreadable true

mutual

/-- Reads one value inside `depth` arrays and objects. -/
def readValue (fuel depth : Nat) (cs : List Char) : Option (Json × List Char) :=
  match fuel with
  | 0 => none
  | fuel + 1 =>
    match skipSpace cs with
    | 'n' :: 'u' :: 'l' :: 'l' :: rest => some (.null, rest)
    | 't' :: 'r' :: 'u' :: 'e' :: rest => some (.bool true, rest)
    | 'f' :: 'a' :: 'l' :: 's' :: 'e' :: rest => some (.bool false, rest)
    | '"' :: rest =>
      (readString (rest.length + 1) (some []) rest).map fun (s, rest) => (textOrUnreadable s, rest)
    | '[' :: rest =>
      match skipSpace rest with
      | ']' :: rest => some (nested depth (.list []), rest)
      | rest => (readItems fuel (depth + 1) rest).map fun (items, rest) =>
        (nested depth (.list items), rest)
    | '\x7b' :: rest =>
      match skipSpace rest with
      | '\x7d' :: rest => some (nested depth (.record []), rest)
      | rest => (readMembers fuel (depth + 1) rest).map fun (members, rest) =>
        (nested depth (recordOrUnreadable members), rest)
    | rest => readNumber rest

/-- Reads the items of an array up to its closing bracket. -/
def readItems (fuel depth : Nat) (cs : List Char) : Option (List Json × List Char) :=
  match fuel with
  | 0 => none
  | fuel + 1 =>
    match readValue fuel depth cs with
    | none => none
    | some (item, rest) =>
      match skipSpace rest with
      | ',' :: rest => (readItems fuel depth rest).map fun (items, rest) => (item :: items, rest)
      | ']' :: rest => some ([item], rest)
      | _ => none

/-- Reads the members of an object up to its closing brace; none where a name is no text. -/
def readMembers (fuel depth : Nat) (cs : List Char) :
    Option (Option (List (String × Json)) × List Char) :=
  match fuel with
  | 0 => none
  | fuel + 1 =>
    match skipSpace cs with
    | '"' :: rest =>
      match readString (rest.length + 1) (some []) rest with
      | none => none
      | some (name, rest) =>
        match skipSpace rest with
        | ':' :: rest =>
          match readValue fuel depth rest with
          | none => none
          | some (value, rest) =>
            match skipSpace rest with
            | ',' :: rest =>
              (readMembers fuel depth rest).map fun (members, rest) =>
                (member name value members, rest)
            | '\x7d' :: rest => some (member name value (some []), rest)
            | _ => none
        | _ => none
    | _ => none

end

/-- Reads a text that holds one JSON value and nothing else. -/
def parse? (text : String) : Option Json :=
  let cs := text.toList
  match readValue (2 * cs.length + 2) 0 cs with
  | some (value, rest) => if (skipSpace rest).isEmpty then some value else none
  | none => none

end PeriodSheet.Json
