import PeriodSheet.Json.Basic
import PeriodSheet.Text.Digits

/-!
# Writing JSON text

The two written forms of a value: on one line without spaces, and indented by two spaces a level
with one item or member a line.
-/

namespace PeriodSheet.Json

open PeriodSheet.Text

def hexDigit (n : Nat) : Char :=
  if n < 10 then Char.ofNat (48 + n) else Char.ofNat (87 + n)

/-- A character as it stands inside a string. -/
def escapeChar (c : Char) : List Char :=
  if c = '"' then ['\\', '"']
  else if c = '\\' then ['\\', '\\']
  else if c = '\n' then ['\\', 'n']
  else if c = '\r' then ['\\', 'r']
  else if c = '\t' then ['\\', 't']
  else if c.toNat = 8 then ['\\', 'b']
  else if c.toNat = 12 then ['\\', 'f']
  else if c.toNat < 0x20 then
    ['\\', 'u', '0', '0', hexDigit (c.toNat / 16), hexDigit (c.toNat % 16)]
  else [c]

def quote (s : String) : String :=
  String.ofList ('"' :: s.toList.flatMap escapeChar ++ ['"'])

/-- The text of a value that holds no other values. -/
def leafText : Json → String
  | .null => "null"
  | .bool true => "true"
  | .bool false => "false"
  | .integer n => ofInt n
  | .real lexeme => lexeme
  | .text s => quote s
  | .list _ => "[]"
  | .record _ => "\x7b\x7d"
  | .unreadable _ => "null"

mutual

/-- The value on one line. -/
def compact : Json → String
  | .list items => "[" ++ ",".intercalate (compactItems items) ++ "]"
  | .record members => "\x7b" ++ ",".intercalate (compactMembers members) ++ "\x7d"
  | leaf => leafText leaf

def compactItems : List Json → List String
  | [] => []
  | item :: rest => compact item :: compactItems rest

def compactMembers : List (String × Json) → List String
  | [] => []
  | (name, value) :: rest => (quote name ++ ":" ++ compact value) :: compactMembers rest

end

def indent (depth : Nat) : String :=
  String.ofList (List.replicate (2 * depth) ' ')

/-- The lines of a list or an object between its brackets. -/
def block (opening closing : String) (depth : Nat) (entries : List String) : String :=
  let lines := entries.map fun entry => "\n" ++ indent (depth + 1) ++ entry
  opening ++ ",".intercalate lines ++ "\n" ++ indent depth ++ closing

mutual

/-- The value over several lines, inside `depth` others. -/
def prettyAt (depth : Nat) : Json → String
  | .list [] => "[]"
  | .record [] => "\x7b\x7d"
  | .list items => block "[" "]" depth (prettyItems (depth + 1) items)
  | .record members => block "\x7b" "\x7d" depth (prettyMembers (depth + 1) members)
  | leaf => leafText leaf

/-- The items of an array, each as it stands in its lines. -/
def prettyItems (depth : Nat) : List Json → List String
  | [] => []
  | item :: rest => prettyAt depth item :: prettyItems depth rest

/-- The members of an object, each as it stands in its lines. -/
def prettyMembers (depth : Nat) : List (String × Json) → List String
  | [] => []
  | (name, value) :: rest =>
    (quote name ++ ": " ++ prettyAt depth value) :: prettyMembers depth rest

end

/-- The value over several lines. -/
def pretty (value : Json) : String :=
  prettyAt 0 value

end PeriodSheet.Json
