import PeriodSheet.Toml.Lexeme
import PeriodSheet.Toml.Table

/-!
# Reading TOML documents

A document is read line by line: a header chooses the table that the keys after it belong to.  The
result is the value that the document stands for; numbers that are not integers are kept as their
text.
-/

namespace PeriodSheet.Toml

/-! ### Values -/

/-- The text after a character, where that follows after spaces, comments and line ends. -/
def skipPast? (mark : Char) (cs : List Char) : Option (List Char) :=
  match skipLines? (cs.length + 1) cs with
  | some (c :: rest) => if c = mark then some rest else none
  | _ => none

/-- The key of an entry of an inline table, with the text from its value on. -/
def readEntryKey? (cs : List Char) : Option (List String × List Char) := do
  let (keys, rest) ← readKeys cs
  let rest ← skipPast? '=' rest
  return (keys, ← skipLines? (rest.length + 1) rest)

mutual

/-- Reads a value inside arrays and inline tables that leave room for `depth` more. -/
def readValue (fuel depth : Nat) (cs : List Char) : Option (Json × List Char) :=
  match fuel, depth with
  | 0, _ => none
  | fuel + 1, depth =>
    match cs with
    | '[' :: rest =>
      match depth with
      | 0 => none
      | depth + 1 => (readItems fuel depth rest).map fun (items, rest) => (.list items, rest)
    | '\x7b' :: rest =>
      match depth with
      | 0 => none
      | depth + 1 => (readEntries fuel depth [] rest).map fun (entries, rest) =>
        (.record (membersOf entries), rest)
    | '"' :: _ => (readString cs).map fun (s, rest) => (.text s, rest)
    | '\'' :: _ => (readString cs).map fun (s, rest) => (.text s, rest)
    | _ => readScalar cs

/-- Reads the items of an array up to its closing bracket; they may stand on several lines. -/
def readItems (fuel depth : Nat) (cs : List Char) : Option (List Json × List Char) :=
  match fuel with
  | 0 => none
  | fuel + 1 =>
    match skipLines? (cs.length + 1) cs with
    | none => none
    | some (']' :: rest) => some ([], rest)
    | some cs =>
      match readValue fuel depth cs with
      | none => none
      | some (item, rest) =>
        match skipLines? (rest.length + 1) rest with
        | some (',' :: rest) =>
          (readItems fuel depth rest).map fun (items, rest) => (item :: items, rest)
        | some (']' :: rest) => some ([item], rest)
        | _ => none

/-- Reads the entries of an inline table up to its closing brace; they may stand on several
lines. -/
def readEntries (fuel depth : Nat) (entries : Entries) (cs : List Char) :
    Option (Entries × List Char) :=
  match fuel with
  | 0 => none
  | fuel + 1 =>
    match skipLines? (cs.length + 1) cs with
    | none => none
    | some ('\x7d' :: rest) => some (entries, rest)
    | some cs =>
      match readEntryKey? cs with
      | none => none
      | some (keys, rest) =>
        match readValue fuel depth rest with
        | none => none
        | some (value, rest) =>
          match entries.set? true keys value with
          | none => none
          | some entries =>
            match skipLines? (rest.length + 1) rest with
            | some (',' :: rest) => readEntries fuel depth entries rest
            | some ('\x7d' :: rest) => some (entries, rest)
            | _ => none

end

/-! ### Lines -/

/-- A document in the making: its root table, and the path of the table that keys belong to. -/
structure Draft where
  root : Entries
  path : List String

/-- Splits the last part off a key. -/
def splitLast? (keys : List String) : Option (List String × String) :=
  keys.getLast?.map fun last => (keys.dropLast, last)

namespace Draft

/-- Goes on in the table that a header opens. -/
def enter? (draft : Draft) (keys : List String) (enterLast : String → Entries → Option Entries) :
    Option Draft := do
  let (path, last) ← splitLast? keys
  let root ← draft.root.alterAt? path (enterLast last)
  return ⟨root, keys⟩

/-- Sets a key of the table that keys belong to. -/
def set? (draft : Draft) (keys : List String) (value : Json) : Option Draft := do
  let root ← draft.root.alterAt? draft.path (Entries.set? true keys value)
  return { draft with root }

/-- Reads the line at the front, a header or a key with its value. -/
def readLine? (draft : Draft) (cs : List Char) : Option (Draft × List Char) :=
  match cs with
  | '[' :: '[' :: rest => do
    let (keys, rest) ← readKeys rest
    let ']' :: ']' :: rest := rest | none
    return (← draft.enter? keys Entries.pushTable?, rest)
  | '[' :: rest => do
    let (keys, rest) ← readKeys rest
    let ']' :: rest := rest | none
    return (← draft.enter? keys Entries.openTable?, rest)
  | cs => do
    let (keys, rest) ← readKeys cs
    let '=' :: rest := rest | none
    let (value, rest) ← readValue (2 * rest.length + 2) maxDepth (skipSpace rest)
    return (← draft.set? keys value, rest)

/-- Reads lines until the text ends. -/
def readLines? (fuel : Nat) (draft : Draft) (cs : List Char) : Option Draft :=
  match fuel with
  | 0 => none
  | fuel + 1 =>
    match skipLines? (cs.length + 1) cs with
    | none => none
    | some [] => some draft
    | some cs =>
      match draft.readLine? cs with
      | none => none
      | some (draft, rest) =>
        match endLine? rest with
        | none => none
        | some rest => readLines? fuel draft rest

end Draft

/-- The text without the mark that may start a file. -/
def dropByteOrderMark : List Char → List Char
  | '\uFEFF' :: rest => rest
  | cs => cs

/-- Reads the text of a document. -/
def parse? (text : String) : Option Json :=
  let cs := dropByteOrderMark text.toList
  (Draft.readLines? (cs.length + 1) ⟨[], []⟩ cs).map fun draft => .record (membersOf draft.root)

end PeriodSheet.Toml
