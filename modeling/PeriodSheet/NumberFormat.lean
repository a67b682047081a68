import PeriodSheet.Decimal.Entered
import PeriodSheet.Decimal.Rounding

/-!
# Number formats

How computed numbers become text: the decimal mark, and how many fraction digits they are rounded
to, half away from zero.  A formatted number shows all of these digits; a plain one drops trailing
zeros, so that it reads as if a user had typed it.
-/

namespace PeriodSheet

/-- A decimal mark and a number of fraction digits. -/
structure NumberFormat where
  separator : Char
  fractionDigits : Nat
deriving DecidableEq

namespace NumberFormat

/-- Two fraction digits after a comma. -/
def standard : NumberFormat := ⟨',', 2⟩

instance : Inhabited NumberFormat := ⟨standard⟩

/-- Rounds to the format's fraction digits; a zero comes out without sign and fraction. -/
def round (format : NumberFormat) (d : Decimal) : Decimal :=
  let rounded := d.roundTo format.fractionDigits
  if rounded.isZero then .zero else rounded

/-- Writes the format's separator for the point. -/
def withSeparator (format : NumberFormat) (cs : List Char) : String :=
  String.ofList (cs.map fun c => if c = '.' then format.separator else c)

/-- The rounded number with exactly the format's fraction digits.  There is a text for every number,
however long.  A decimal writer with room for 32 characters stops where a text needs more, and a
computation that comes to such a number then ends without a result; with such a writer, what is
stated of computations holds only where no text that they write is longer. -/
def format (format : NumberFormat) (d : Decimal) : String :=
  format.withSeparator ((format.round d).toFixedChars format.fractionDigits)

/-- The rounded number without trailing fraction zeros. -/
def formatPlain (format : NumberFormat) (d : Decimal) : String :=
  format.withSeparator (format.round d).normalize.toChars

end NumberFormat

end PeriodSheet
