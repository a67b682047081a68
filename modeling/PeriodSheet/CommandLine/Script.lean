/-!
# Scripts over files

A command reads and writes files in an order that depends on what it read.  A script holds that
order as a value: what to read or write next, and how to go on with the answer.  It can be run on
files kept in memory as well as on a real file system.
-/

namespace PeriodSheet.CommandLine

/-- What reading a file comes to. -/
inductive FileText where
  | missing
  /-- There is something at the path, but no text can be read from it. -/
  | unreadable
  | text (content : String)
deriving DecidableEq

/-- Steps on files that end in a result. -/
inductive Script (α : Type) where
  | done (result : α)
  | read (path : String) (next : FileText → Script α)
  /-- Writes a text into a file; the answer says whether that worked. -/
  | write (path content : String) (next : Bool → Script α)

namespace Script

def bind {α β : Type} : Script α → (α → Script β) → Script β
  | .done result, next => next result
  | .read path go, next => .read path fun answer => (go answer).bind next
  | .write path content go, next => .write path content fun answer => (go answer).bind next

instance : Monad Script where
  pure := .done
  bind := .bind

end Script

/-- A line of the causes of a failure, from the outermost message inwards. -/
inductive Cause where
  | message (text : String)
  /-- What the file system, or the reader of a format, has to say. -/
  | detail
  /-- The same after a label. -/
  | labelled (label : String)
deriving DecidableEq

/-- The text of a cause, given what stands for the detail. -/
def Cause.text (detail : String) : Cause → String
  | .message text => text
  | .detail => detail
  | .labelled label => label ++ detail

/-- A script that may fail, with the causes of its failure. -/
abbrev Task (α : Type) := ExceptT (List Cause) Script α

namespace Task

def read (path : String) : Task FileText :=
  ExceptT.mk (.read path fun answer => .done (.ok answer))

def fail {α : Type} (message : String) : Task α :=
  throw [.message message]

/-- Reads the text of a file, with the messages for a file that is missing or unreadable. -/
def readText (path missing unreadable : String) : Task String := do
  match ← read path with
  | .text content => return content
  | .missing => fail missing
  | .unreadable => throw [.message unreadable, .detail]

/-- Writes a file, with the message for a file that cannot be written. -/
def writeText (path content refused : String) : Task Unit := do
  let written ← ExceptT.mk (.write path content fun answer => .done (.ok answer))
  if written then return () else throw [.message refused, .detail]

end Task

end PeriodSheet.CommandLine
