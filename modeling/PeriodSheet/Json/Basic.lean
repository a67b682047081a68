/-!
# JSON values

The data that records and schemas are stored as.  Members of an object keep their order, and may
repeat a name: what a repeated name means is up to whoever reads the object.  A number is an integer
where it is written as one and fits 64 bits; any other number is kept as its text.  A text may also
spell a value correctly that no data can hold, such as a number beyond every range: it is
unreadable, which matters only where somebody reads it.
-/

namespace PeriodSheet

inductive Json where
  | null
  | bool (value : Bool)
  | integer (value : Int)
  | real (lexeme : String)
  | text (value : String)
  | list (items : List Json)
  | record (members : List (String × Json))
  /-- A well-spelled value that is no data; it may be skippable where nobody asks for it. -/
  | unreadable (skippable : Bool)

namespace Json

instance : Inhabited Json := ⟨.null⟩

def ofNat (n : Nat) : Json := .integer n

/-- An optional value, `null` where there is none. -/
def ofOption {α : Type} (encode : α → Json) : Option α → Json
  | none => .null
  | some a => encode a

def ofList {α : Type} (encode : α → Json) (as : List α) : Json :=
  .list (as.map encode)

def ofTexts (texts : List String) : Json :=
  ofList .text texts

/-- The members of an object that is written without the optional members that are absent. -/
def ofMembers (members : List (Option (String × Json))) : Json :=
  .record (members.filterMap id)

/-! ### Unreadable parts -/

mutual

/-- Whether the unreadable parts of a value, if it has any, are all of an accepted kind. -/
def eachUnreadable (accept : Bool → Bool) : Json → Bool
  | .unreadable skippable => accept skippable
  | .list items => itemsUnreadable accept items
  | .record members => membersUnreadable accept members
  | _ => true

/-- The same of the items of an array. -/
def itemsUnreadable (accept : Bool → Bool) : List Json → Bool
  | [] => true
  | item :: rest => eachUnreadable accept item && itemsUnreadable accept rest

/-- The same of the members of an object. -/
def membersUnreadable (accept : Bool → Bool) : List (String × Json) → Bool
  | [] => true
  | (_, value) :: rest => eachUnreadable accept value && membersUnreadable accept rest

end

/-- Whether all parts of a value can be read. -/
def isReadable (value : Json) : Bool :=
  value.eachUnreadable fun _ => false

/-- Whether a value may stand where nobody asks for it. -/
def isSkippable (value : Json) : Bool :=
  value.eachUnreadable id

end Json

end PeriodSheet
