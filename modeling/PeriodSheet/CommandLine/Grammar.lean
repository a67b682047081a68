import PeriodSheet.Text.Digits

/-!
# The grammar of a command line

Reads the words of a command line as options and operands.  An option has a long name, after two
dashes, and may have a letter, after one; letters can stand together behind one dash.  The value of
an option follows an equals sign, or the letter itself, or is the next word.  A word of two dashes
ends the options.

A value that is the next word is checked only when something after it is read, or at the end.  So of
two faults the one that is met first wins, except that a word that no option knows is reported
before a bad value right in front of it.
-/

namespace PeriodSheet.CommandLine

open Text

inductive OptionKind where
  | help
  | version
  /-- Nothing follows. -/
  | flag
  /-- The path of a file, which is not empty. -/
  | path
  | text
  /-- An integer within bounds, both included. -/
  | integer (low high : Int)
  | word (words : List String)
deriving DecidableEq

def OptionKind.takesValue : OptionKind → Bool
  | .help => false
  | .version => false
  | .flag => false
  | _ => true

structure OptionForm where
  name : String
  letter : Option Char := none
  kind : OptionKind
  /-- Whether the option may be given more than once. -/
  repeats : Bool := false
deriving DecidableEq

structure CommandForm where
  name : String
  options : List OptionForm
  /-- The names of the operands, all of them required. -/
  operands : List String := []
  /-- The options that must be given. -/
  required : List String := []
  /-- Pairs of options: the first may be given only together with the second. -/
  requires : List (String × String) := []
deriving DecidableEq

/-- Why a command line is not run. -/
inductive UsageError where
  | help
  | version
  /-- There is neither a command nor an option. -/
  | nothingGiven
  | missingCommand
  | unknownCommand
  | unknownArgument
  | missingArgument
  /-- A value is missing, empty, or none of the words that are allowed. -/
  | invalidValue
  /-- A value is not a number, or out of bounds. -/
  | badNumber
  | unexpectedValue
  | repeatedOption
deriving DecidableEq

/-- Whether the line asks for information, so that not running it is no failure. -/
def UsageError.isRequest : UsageError → Bool
  | .help => true
  | .version => true
  | _ => false

def integerWithin? (low high : Int) (text : String) : Option Int :=
  (intOfChars? text.toList).filter fun n => low ≤ n && n ≤ high

def OptionKind.fault? (kind : OptionKind) (value : String) : Option UsageError :=
  match kind with
  | .path => if value.isEmpty then some .invalidValue else none
  | .integer low high => if (integerWithin? low high value).isSome then none else some .badNumber
  | .word words => if words.contains value then none else some .invalidValue
  | _ => none

/-! ### Reading -/

/-- A command line while it is read. -/
structure Reading where
  /-- The options that were accepted, in order, each with its value. -/
  given : List (String × String) := []
  operands : List String := []
  /-- The option met last, if its value is not checked yet, and the value if it has come. -/
  pending : Option (OptionForm × Option String) := none
  /-- Whether the options have ended. -/
  ended : Bool := false
deriving DecidableEq

namespace Reading

def has (reading : Reading) (name : String) : Bool :=
  reading.given.any (·.1 == name)

/-- Whether the next word is the value of an option. -/
def isAwaiting (reading : Reading) : Bool :=
  match reading.pending with
  | some (_, none) => !reading.ended
  | _ => false

def accept (option : OptionForm) (value : String) (reading : Reading) : Except UsageError Reading :=
  if reading.has option.name && !option.repeats then .error .repeatedOption
  else
    match option.kind.fault? value with
    | some fault => .error fault
    | none => .ok { reading with given := reading.given ++ [(option.name, value)] }

/-- Checks the value of the option that was met last. -/
def settle (reading : Reading) : Except UsageError Reading :=
  match reading.pending with
  | none => .ok reading
  | some (_, none) => .error .invalidValue
  | some (option, some value) => { reading with pending := none }.accept option value

/-- Takes an option with the value that is attached to it. -/
def take (option : OptionForm) (value : String) (reading : Reading) :
    Except UsageError Reading := do
  (← reading.settle).accept option value

/-- Takes an option whose value is the next word. -/
def await (option : OptionForm) (reading : Reading) : Except UsageError Reading := do
  return { ← reading.settle with pending := some (option, none) }

/-- Takes an option without a value. -/
def takeBare (option : OptionForm) (reading : Reading) : Except UsageError Reading :=
  match option.kind with
  -- a request for help is reported after what is wrong with the option before it
  | .help => reading.settle >>= fun _ => .error .help
  | .version => reading.settle >>= fun _ => .error .version
  | _ => reading.take option ""

/-- Reads what follows two dashes. -/
def readLong (form : CommandForm) (body : List Char) (reading : Reading) :
    Except UsageError Reading :=
  let name := String.ofList (body.takeWhile (· ≠ '='))
  match form.options.find? (·.name == name), body.dropWhile (· ≠ '=') with
  | none, _ => .error .unknownArgument
  | some option, _ :: value =>
    if option.kind.takesValue then reading.take option (String.ofList value)
    else .error .unexpectedValue
  | some option, [] =>
    if option.kind.takesValue then reading.await option else reading.takeBare option

/-- Reads the letters that follow one dash. -/
def readLetters (form : CommandForm) : List Char → Reading → Except UsageError Reading
  | [], reading => .ok reading
  | c :: rest, reading =>
    match form.options.find? (·.letter == some c) with
    | none => .error .unknownArgument
    | some option =>
      if option.kind.takesValue then
        match rest with
        | [] => reading.await option
        | '=' :: value => reading.take option (String.ofList value)
        -- what is left of the word is the value, also where it looks like more options
        | value => reading.take option (String.ofList value)
      else reading.takeBare option >>= readLetters form rest

/-- Reads an operand; `surplus` says what is wrong where there is no place for it. -/
def readOperand (form : CommandForm) (surplus : Reading → String → UsageError) (word : String)
    (reading : Reading) : Except UsageError Reading :=
  if reading.operands.length < form.operands.length then do
    let reading ← reading.settle
    return { reading with pending := none, operands := reading.operands ++ [word] }
  else .error (surplus reading word)

def readWord (form : CommandForm) (surplus : Reading → String → UsageError) (word : String)
    (reading : Reading) : Except UsageError Reading :=
  if reading.ended then reading.readOperand form surplus word
  else
    match word.toList with
    | ['-', '-'] => .ok { reading with ended := true }
    | '-' :: '-' :: body => reading.readLong form body
    | '-' :: c :: rest => reading.readLetters form (c :: rest)
    | _ =>
      match reading.pending with
      | some (option, none) => .ok { reading with pending := some (option, some word) }
      | _ => reading.readOperand form surplus word

/-- Whether all that the form requires was given. -/
def isComplete (form : CommandForm) (reading : Reading) : Bool :=
  reading.operands.length == form.operands.length && form.required.all reading.has &&
    form.requires.all fun (name, other) => !reading.has name || reading.has other

/-- The value of an option; the last one, if it was given more than once. -/
def value? (reading : Reading) (name : String) : Option String :=
  (reading.given.reverse.find? (·.1 == name)).map (·.2)

def values (reading : Reading) (name : String) : List String :=
  (reading.given.filter (·.1 == name)).map (·.2)

def integer? (reading : Reading) (name : String) : Option Int :=
  (reading.value? name).bind fun text => intOfChars? text.toList

end Reading

def CommandForm.read (form : CommandForm) (words : List String) : Except UsageError Reading := do
  let read (reading : Reading) (word : String) : Except UsageError Reading :=
    reading.readWord form (fun _ _ => .unknownArgument) word
  let reading ← (← words.foldlM read {}).settle
  if reading.isComplete form then .ok reading else .error .missingArgument

end PeriodSheet.CommandLine
