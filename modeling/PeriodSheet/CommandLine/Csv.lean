/-!
# Comma-separated values

Lines of fields with commas between them.  A field that holds a comma, a quote or a line break
stands in quotes, and a quote inside it is written twice.
-/

namespace PeriodSheet.CommandLine.Csv

/-- Whether a character puts its field in quotes. -/
def isSpecial (c : Char) : Bool :=
  c == ',' || c == '"' || c == '\n' || c == '\r'

def escape : List Char → List Char
  | [] => []
  | c :: rest => if c = '"' then '"' :: '"' :: escape rest else c :: escape rest

def field (text : String) : String :=
  if text.toList.any isSpecial then String.ofList ('"' :: escape text.toList ++ ['"']) else text

def line (fields : List String) : String :=
  ",".intercalate (fields.map field) ++ "\n"

end PeriodSheet.CommandLine.Csv
