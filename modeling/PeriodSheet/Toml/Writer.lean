import PeriodSheet.Json.Basic
import PeriodSheet.Text.Digits

/-!
# Writing TOML documents

Writes the members of an object as the keys of a document, one a line, with inline tables and arrays
for what they hold.  A member that is `null` is left out, because a document has no such value.
-/

namespace PeriodSheet.Toml

open PeriodSheet.Text

def hexDigits (n : Nat) : List Char :=
  [n / 4096 % 16, n / 256 % 16, n / 16 % 16, n % 16].map fun d =>
    if d < 10 then Char.ofNat (48 + d) else Char.ofNat (55 + d)

/-- A character as it stands inside a string. -/
def escapeChar (c : Char) : List Char :=
  if c = '"' then ['\\', '"']
  else if c = '\\' then ['\\', '\\']
  else if c.toNat < 0x20 ∨ c.toNat = 0x7F then '\\' :: 'u' :: hexDigits c.toNat
  else [c]

def quote (s : String) : String :=
  String.ofList ('"' :: s.toList.flatMap escapeChar ++ ['"'])

def isNull : Json → Bool
  | .null => true
  | _ => false

mutual

def valueText : Json → String
  | .null => "\"\""
  | .bool true => "true"
  | .bool false => "false"
  | .integer n => ofInt n
  | .real lexeme => lexeme
  | .text s => quote s
  | .list items => "[" ++ ", ".intercalate (itemTexts items) ++ "]"
  | .record members => "\x7b" ++ ", ".intercalate (memberTexts members) ++ "\x7d"
  | .unreadable _ => "\"\""

def itemTexts : List Json → List String
  | [] => []
  | item :: rest => valueText item :: itemTexts rest

/-- The members of a table, each with its key. -/
def memberTexts : List (String × Json) → List String
  | [] => []
  | (key, value) :: rest =>
    if isNull value then memberTexts rest
    else (quote key ++ " = " ++ valueText value) :: memberTexts rest

end

/-- The text of a document with these keys. -/
def document (members : List (String × Json)) : String :=
  String.join ((memberTexts members).map (· ++ "\n"))

end PeriodSheet.Toml
