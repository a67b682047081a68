import PeriodSheet.CommandLine.Script

/-!
# Files in memory

A tree of directories and texts that scripts can run on.  A path is walked name by name, from the
root of the tree where it begins with a slash, and from a working directory otherwise.  A directory
is there as long as a file stands below it; the root, the working directory and some directories of
a system's own are always there.
-/

namespace PeriodSheet.CommandLine

/-- Files by their place: the names of the directories above them, and their own. -/
structure FileTree where
  files : List (List String × String) := []
deriving DecidableEq

namespace FileTree

/-- The directory that relative paths start in: one among the temporary files, with a name that no
path can spell. -/
def workingDirectory : List String := ["tmp", ""]

/-- The directories that are there without any file below them. -/
def standingDirectories : List (List String) :=
  [] :: workingDirectory ::
    ["bin", "boot", "dev", "etc", "home", "lib", "media", "mnt", "opt", "proc", "root", "run",
      "sbin", "srv", "sys", "tmp", "usr", "var"].map fun name => [name]

/-- The place of the file that stays empty whatever is written into it. -/
def nullDevice : List String := ["dev", "null"]

def fileAt? (tree : FileTree) (place : List String) : Option String :=
  if place = nullDevice then some "" else tree.files.lookup place

def isDirectory (tree : FileTree) (place : List String) : Bool :=
  standingDirectories.contains place || tree.files.any fun (file, _) =>
    place.length < file.length && file.take place.length == place

/-- The parts of a path between its slashes. -/
def partsOf : List Char → List (List Char)
  | [] => [[]]
  | '/' :: rest => [] :: partsOf rest
  | c :: rest =>
    match partsOf rest with
    | part :: parts => (c :: part) :: parts
    | [] => [[c]]

/-- Whether a part of a path is short enough for a name. -/
def isName (part : String) : Bool :=
  part.utf8ByteSize ≤ 255

/-- The place that a part of a path leads to.  Above the root is the root. -/
def next (place : List String) (part : String) : List String :=
  if part = "" ∨ part = "." then place
  else if part = ".." then place.dropLast
  else place ++ [part]

/-- Walks from a place along the parts of a path; every part starts in a directory. -/
def walk (tree : FileTree) (place : List String) : List String → Option (List String)
  | [] => some place
  | part :: rest =>
    if tree.isDirectory place && isName part then tree.walk (next place part) rest else none

/-- Whether a text can be a path: it is not empty, has less than 4096 bytes, and no null
character. -/
def isPath (path : String) : Bool :=
  !path.isEmpty && path.utf8ByteSize < 4096 && !path.toList.contains '\x00'

def startOf (path : String) : List String :=
  if path.toList.head? = some '/' then [] else workingDirectory

/-- The place that a path leads to, if the directories on the way are there. -/
def placeOf? (tree : FileTree) (path : String) : Option (List String) :=
  if isPath path then tree.walk (startOf path) ((partsOf path.toList).map String.ofList) else none

def read (tree : FileTree) (path : String) : FileText :=
  match tree.placeOf? path with
  | none => .missing
  | some place =>
    match tree.fileAt? place with
    | some content => .text content
    | none => if tree.isDirectory place then .unreadable else .missing

def put (tree : FileTree) (place : List String) (content : String) : FileTree :=
  if place = nullDevice then tree else ⟨(place, content) :: tree.files.filter (·.1 != place)⟩

/-- The tree with a text at a path, if a file can stand there. -/
def write? (tree : FileTree) (path content : String) : Option FileTree :=
  match tree.placeOf? path with
  | none => none
  | some place => if tree.isDirectory place then none else some (tree.put place content)

/-- The tree of some files, with all the directories that their paths name. -/
def ofList (files : List (String × String)) : FileTree :=
  files.foldl (fun tree (path, content) =>
    let parts := (partsOf path.toList).map String.ofList
    tree.put (parts.foldl next (startOf path)) content) {}

end FileTree

/-- Runs a script on files in memory: its result, and the files after it. -/
def Script.runOn {α : Type} (tree : FileTree) : Script α → α × FileTree
  | .done result => (result, tree)
  | .read path next => (next (tree.read path)).runOn tree
  | .write path content next =>
    match tree.write? path content with
    | some changed => (next true).runOn changed
    | none => (next false).runOn tree

end PeriodSheet.CommandLine
