import PeriodSheet.Text.Digits
import PeriodSheet.Text.Lowercase

/-!
# Painted text

Text set apart on a terminal by escape sequences: bold, dimmed or underlined, with a colour for the
letters and one for their background.  Colours are known by a name or by their red, green and blue
parts; any other name is white.
-/

namespace PeriodSheet.CommandLine

open Text

inductive Colour where
  /-- A colour of the palette, by its code for letters. -/
  | palette (code : Nat)
  | mixed (red green blue : Nat)
deriving DecidableEq

namespace Colour

/-- The colours that have names, by their codes for letters. -/
def named : List (String × Nat) :=
  [("black", 30), ("red", 31), ("green", 32), ("yellow", 33), ("blue", 34), ("magenta", 35),
    ("purple", 35), ("cyan", 36), ("white", 37), ("bright black", 90), ("bright red", 91),
    ("bright green", 92), ("bright yellow", 93), ("bright blue", 94), ("bright magenta", 95),
    ("bright cyan", 96), ("bright white", 97)]

def hexValue? (c : Char) : Option Nat :=
  if c.isDigit then some (c.toNat - 48)
  else if 'a' ≤ c ∧ c ≤ 'f' then some (c.toNat - 87)
  else none

/-- The number of two hexadecimal digits; a plus sign may stand for the first one. -/
def pairValue? (high low : Char) : Option Nat :=
  if high = '+' then hexValue? low
  else do return 16 * (← hexValue? high) + (← hexValue? low)

/-- The colour of six hexadecimal digits, or of three that count twice. -/
def ofHex? : List Char → Option Colour
  | [r, r', g, g', b, b'] => do
    return .mixed (← pairValue? r r') (← pairValue? g g') (← pairValue? b b')
  | [r, g, b] => do
    return .mixed (17 * (← hexValue? r)) (17 * (← hexValue? g)) (17 * (← hexValue? b))
  | _ => none

/-- The colour that a style names. -/
def ofText (text : String) : Colour :=
  let name := lower text
  let known := match name.toList with
    | '#' :: hex => ofHex? hex
    | _ => (named.lookup name).map .palette
  known.getD (.palette 37)

def letterCode : Colour → String
  | .palette code => ofNat code
  | .mixed r g b => ";".intercalate ["38", "2", ofNat r, ofNat g, ofNat b]

def backgroundCode : Colour → String
  | .palette code => ofNat (code + 10)
  | .mixed r g b => ";".intercalate ["48", "2", ofNat r, ofNat g, ofNat b]

def red : Colour := .palette 31

/-- The colour of results that are not negative. -/
def green : Colour := .palette 32

def yellow : Colour := .palette 33

/-- The colour of what an issue is about. -/
def cyan : Colour := .palette 36

/-- The colour of what went well. -/
def brightGreen : Colour := .palette 92

end Colour

/-- How a text is set apart. -/
structure Paint where
  bold : Bool := false
  dimmed : Bool := false
  underlined : Bool := false
  background : Option Colour := none
  letters : Option Colour := none
deriving DecidableEq

namespace Paint

def codes (paint : Paint) : List String :=
  (if paint.bold then ["1"] else []) ++ (if paint.dimmed then ["2"] else []) ++
    (if paint.underlined then ["4"] else []) ++
    paint.background.toList.map Colour.backgroundCode ++ paint.letters.toList.map Colour.letterCode

/-- The sequence that ends all paint. -/
def reset : List Char := ['\x1b', '[', '0', 'm']

/-- The text with the paint begun again after each reset in it. -/
def resume (start : List Char) : List Char → List Char
  | '\x1b' :: '[' :: '0' :: 'm' :: rest => reset ++ start ++ resume start rest
  | c :: rest => c :: resume start rest
  | [] => []

/-- The painted text; it stays plain where nothing is painted or paint is switched off. -/
def apply (enabled : Bool) (paint : Paint) (text : String) : String :=
  if !enabled || paint.codes.isEmpty then text
  else
    let start := ['\x1b', '['] ++ (";".intercalate paint.codes).toList ++ ['m']
    String.ofList (start ++ resume start text.toList ++ reset)

end Paint

end PeriodSheet.CommandLine
