import PeriodSheet.Json.Basic
import PeriodSheet.Power

/-!
# Reading typed data out of JSON values

Small readers that turn a JSON value into data of a given type, or say that it is not such data.  A
structure is read from an object, whose unknown members are skipped and whose known members must not
repeat, or from an array that lists the structure's members in order.  Where a value comes from
decides how its choices are written and whether such an array may be too long.
-/

namespace PeriodSheet.Json

/-- Where a value comes from. -/
inductive Medium where
  | json
  | toml
  /-- A value that is read as a whole before one of its members tells what it is. -/
  | tagged
deriving DecidableEq

/-- Whether a value is what a choice may be given along with its name: nothing. -/
def Medium.isNothing : Medium → Json → Bool
  | .json, .null => true
  | .toml, .record [] => true
  | .toml, .list [] => true
  | .tagged, .null => true
  | .tagged, .record [] => true
  | _, _ => false

/-! ### Plain data -/

def text? : Json → Option String
  | .text s => some s
  | _ => none

def char? : Json → Option Char
  | .text s => match s.toList with
    | [c] => some c
    | _ => none
  | _ => none

def bool? : Json → Option Bool
  | .bool b => some b
  | _ => none

def intWithin? (low high : Int) : Json → Option Int
  | .integer n => if low ≤ n ∧ n ≤ high then some n else none
  | _ => none

def natBelow? (bound : Nat) : Json → Option Nat
  | .integer n => if 0 ≤ n ∧ n < bound then some n.toNat else none
  | _ => none

def int64? : Json → Option Int :=
  intWithin? (-(twoPow 63 : Int)) (twoPow 63 - 1 : Nat)

def int32? : Json → Option Int :=
  intWithin? (-(twoPow 31 : Int)) (twoPow 31 - 1 : Nat)

def nat64? : Json → Option Nat :=
  natBelow? (twoPow 64)

def nat32? : Json → Option Nat :=
  natBelow? (twoPow 32)

def nat16? : Json → Option Nat :=
  natBelow? (twoPow 16)

def nullable? {α : Type} (decode : Json → Option α) : Json → Option (Option α)
  | .null => some none
  | value => (decode value).map some

def list? {α : Type} (decode : Json → Option α) : Json → Option (List α)
  | .list items => items.mapM decode
  | _ => none

def members? : Json → Option (List (String × Json))
  | .record members => some members
  | _ => none

/-- One of several named choices: its name, or an object that gives nothing under that name. -/
def choice? {α : Type} (medium : Medium) (names : List (String × α)) : Json → Option α
  | .text s => names.lookup s
  | .record [(s, content)] => if medium.isNothing content then names.lookup s else none
  | _ => none

/-! ### Structures -/

/-- The members of a structure, under their first names. -/
structure Fields where
  /-- Whether the members were listed in order, without names. -/
  positional : Bool
  values : List (String × Json)

/-- The first name of the member that a written name belongs to. -/
def firstName? (names : List (List String)) (name : String) : Option String :=
  (names.find? (·.contains name)).bind List.head?

def allDistinct : List String → Bool
  | [] => true
  | s :: rest => !rest.contains s && allDistinct rest

/-- Whether the members that do not belong to a structure may be skipped. -/
def skipsOthers (names : List (List String)) (members : List (String × Json)) : Bool :=
  members.all fun (name, value) => (firstName? names name).isSome || value.isSkippable

/-- The members of a structure; each member is given by its names, the first one first.  Only an
array of a TOML document may have more items than the structure has members. -/
def fields? (medium : Medium) (names : List (List String)) : Json → Option Fields
  | .record members =>
    let known := members.filterMap fun (name, value) => (firstName? names name).map (·, value)
    -- two names of one member count as a repetition
    if allDistinct (known.map (·.1)) && skipsOthers names members then some ⟨false, known⟩
    else none
  | .list items =>
    if medium = .toml ∨ items.length ≤ names.length then
      some ⟨true, (names.filterMap List.head?).zip items⟩
    else none
  | _ => none

namespace Fields

def get? (fields : Fields) (name : String) : Option Json :=
  fields.values.lookup name

def required? {α : Type} (fields : Fields) (name : String) (decode : Json → Option α) : Option α :=
  (fields.get? name).bind decode

/-- A member that has a value also where it is not given. -/
def orElse? {α : Type} (fields : Fields) (name : String) (missing : α) (decode : Json → Option α) :
    Option α :=
  match fields.get? name with
  | none => some missing
  | some value => decode value

/-- A member that may be left out by name, or be `null`. -/
def optional? {α : Type} (fields : Fields) (name : String) (decode : Json → Option α) :
    Option (Option α) :=
  match fields.get? name with
  | none => if fields.positional then none else some none
  | some value => nullable? decode value

end Fields

end PeriodSheet.Json
