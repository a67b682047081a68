import PeriodSheet.Computation
import PeriodSheet.CommandLine.Csv
import PeriodSheet.CommandLine.Paint

/-!
# Sheets as text

The two written forms of a sheet beside its stored data: a table with aligned columns and painted
cells, followed by the errors, the carried values and the result, and lines of comma-separated
values.
-/

namespace PeriodSheet.CommandLine

open Text

def alignLeft (width : Nat) (text : String) : String :=
  String.ofList (text.toList ++ List.replicate (width - text.length) ' ')

def alignRight (width : Nat) (text : String) : String :=
  String.ofList (List.replicate (width - text.length) ' ' ++ text.toList)

/-- The largest of some numbers, and at least a given one. -/
def largest (least : Nat) (numbers : List Nat) : Nat :=
  numbers.foldl max least

def Paint.ofStyle (style : Style) : Paint :=
  { bold := style.bold
    background := style.backgroundColor.map Colour.ofText
    letters := style.textColor.map Colour.ofText }

/-- A cell's text in a table: a required field that is blank says so, a carried value has a star. -/
def cellText (cell : Cell) : String :=
  if cell.missingRequired then "(required)"
  else if cell.carried then cell.display ++ "*"
  else cell.display

/-- The paint of a cell in a table: an error and a blank required field have their own, then the
cell's style counts, then that of its row. -/
def cellPaint (row : Row) (cell : Cell) : Paint :=
  if cell.error.isSome then { bold := true, letters := some .red }
  else if cell.missingRequired then { letters := some .yellow }
  else if !cell.style.isNeutral then .ofStyle cell.style
  else .ofStyle row.style

end PeriodSheet.CommandLine

namespace PeriodSheet.Sheet

open Text CommandLine

def title (sheet : Sheet) : String :=
  sheet.activity ++ " - client " ++ ofInt sheet.client ++
    match sheet.fiscalYear with
    | some year => " - " ++ ofInt year
    | none => ""

def totalText? (sheet : Sheet) (column : Column) : Option String :=
  sheet.totals.bind (·.get? column.field)

def labelWidth (sheet : Sheet) : Nat :=
  largest "Period".length (sheet.rows.map (·.label.length))

/-- The width of a column: room for its label, its cells and its sum, and what it asks for. -/
def columnWidth (sheet : Sheet) (column : Column) : Nat :=
  let cells := sheet.rows.filterMap fun row => (row.cell? column.field).map cellText
  largest column.label.length
    (cells.map String.length ++
      [((sheet.totalText? column).getD "").length, column.width.getD 0])

/-- A line of a table: a label, then a text for each column. -/
def tableLine (labelWidth : Nat) (label : String) (cells : List (Nat × String)) : String :=
  alignLeft labelWidth label ++
    String.join (cells.map fun (width, text) => "  " ++ alignRight width text)

def rowLine (painting : Bool) (labelWidth : Nat) (columns : List (Column × Nat)) (row : Row) :
    String :=
  let cell (column : Column × Nat) : String :=
    "  " ++ match row.cell? column.1.field with
      | none => alignRight column.2 ""
      | some cell => (cellPaint row cell).apply painting (alignRight column.2 (cellText cell))
  (Paint.ofStyle row.style).apply painting (alignLeft labelWidth row.label) ++
    String.join (columns.map cell) ++
    (if row.isComplete then ""
      else "  " ++ { dimmed := true : Paint }.apply painting "(open)") ++ "\n"

def errorLines (painting : Bool) (row : Row) : String :=
  String.join <| row.cells.map fun cell =>
    match cell.error with
    | none => ""
    | some error =>
      { bold := true, letters := some .red : Paint }.apply painting "!" ++ " " ++ row.label ++
        " " ++ cell.field.spelling ++ ": " ++ error.message ++ "\n"

def carryLine (painting : Bool) (event : CarryEvent) : String :=
  let text := match event.value with
    | some value =>
      "carried " ++ event.field.spelling ++ " = " ++ value ++ " from period " ++
        ofNat event.source ++ " into period " ++ ofNat event.target
    | none =>
      "withdrew carried " ++ event.field.spelling ++ " from period " ++ ofNat event.target
  { dimmed := true : Paint }.apply painting text ++ "\n"

def resultLine (painting : Bool) (sheet : Sheet) : String :=
  let text := match sheet.badge with
    | none => { dimmed := true : Paint }.apply painting "-"
    | some badge =>
      let label := match sheet.row? badge.period with
        | some row => row.label
        | none => ofNat badge.period
      let colour := if badge.isNegative then Colour.red else Colour.green
      { bold := true, letters := some colour : Paint }.apply painting
        (badge.field.spelling ++ " " ++ badge.value ++ " (" ++ label ++ ")")
  "Result: " ++ text ++ "\n"

/-- The sheet as a table, with what was carried. -/
def table (painting : Bool) (sheet : Sheet) (carried : List CarryEvent) : String :=
  let labelWidth := sheet.labelWidth
  let columns := sheet.columns.map fun column => (column, sheet.columnWidth column)
  let line (label : String) (text : Column → String) : String :=
    tableLine labelWidth label (columns.map fun (column, width) => (width, text column))
  let totals :=
    if sheet.totals.isNone then ""
    else
      { bold := true : Paint }.apply painting
        (line "Total" fun column => (sheet.totalText? column).getD "") ++ "\n"
  { bold := true : Paint }.apply painting sheet.title ++ "\n" ++
    { underlined := true : Paint }.apply painting (line "Period" (·.label)) ++ "\n" ++
    String.join (sheet.rows.map (rowLine painting labelWidth columns)) ++ totals ++
    String.join (sheet.rows.map (errorLines painting)) ++
    String.join (carried.map (carryLine painting)) ++ resultLine painting sheet

/-- The names of the values of a line. -/
def csvHeader (sheet : Sheet) : String :=
  Csv.line (["client_id", "fiscal_year", "period", "label"] ++
    sheet.columns.map (·.field.spelling))

def csvRow (sheet : Sheet) (row : Row) : String :=
  let cells := sheet.columns.map fun column =>
    match row.cell? column.field with
    | some cell => cell.display
    | none => ""
  let year := match sheet.fiscalYear with
    | some year => ofInt year
    | none => ""
  Csv.line ([ofInt sheet.client, year, ofNat row.period, row.label] ++ cells)

/-- The lines of several sheets of one activity, under one header. -/
def csv (sheets : List Sheet) : String :=
  match sheets with
  | [] => ""
  | first :: _ =>
    first.csvHeader ++
      String.join (sheets.map fun sheet => String.join (sheet.rows.map sheet.csvRow))

end PeriodSheet.Sheet
