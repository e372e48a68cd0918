import ScriptCell.Command

/-!
# A working directory in memory

A program finds files below its working directory, by their names. A path is followed component by
component; empty components and single dots stay where they are, and two dots lead to the directory
above.

The working directory stands somewhere in a file system. Above it are directories of which nothing
else is known; at the top are the directories that every such system has, with the null device in
one of them.
-/

namespace ScriptCell

/-- A working directory: files with the components of their names and their bytes. -/
structure Directory where
  /-- The files. -/
  files : List (List String × List UInt8)

/-- A place in the file system around a working directory. -/
inductive Place where
  /-- The working directory, or what is below it by these names. -/
  | below (names : List String)
  /-- A directory above the working directory. -/
  | above
  /-- The directory at the top, or what is below it by these names. -/
  | fromTop (names : List String)
  deriving DecidableEq

namespace Directory

/-- The components of a path between slashes. -/
def components (path : String) : List String :=
  (splitAfter '/' path.toList).map fun piece => String.ofList (piece.filter (· ≠ '/'))

/-- Whether a component stays where it is. -/
def isIdle (c : String) : Bool := c = "" || c = "."

/-- A directory of files with their names. -/
def ofFiles (files : List (String × List UInt8)) : Directory :=
  ⟨files.map fun (name, bytes) => ((components name).filter (!isIdle ·), bytes)⟩

/-- The names of the directories at the top. -/
def topNames : List String :=
  ["bin", "boot", "dev", "etc", "home", "lib", "media", "mnt", "opt", "proc", "root", "run", "sbin",
    "srv", "sys", "tmp", "usr", "var"]

/-- Whether a place is a directory. Below the working directory these are the fronts of names of
files. -/
def isDirectory (d : Directory) : Place → Bool
  | .below [] | .above | .fromTop [] => true
  | .below names => d.files.any fun (name, _) => names.isPrefixOf name && names.length < name.length
  | .fromTop [name] => topNames.contains name
  | .fromTop _ => false

/-- The directory above a directory; the one at the top is above itself. -/
def parent : Place → Place
  | .below [] | .above => .above
  | .below names => .below names.dropLast
  | .fromTop names => .fromTop names.dropLast

/-- Where a name leads in a directory. -/
def child? (name : String) : Place → Option Place
  | .below names => some (.below (names ++ [name]))
  | .above => none
  | .fromTop names => some (.fromTop (names ++ [name]))

/-- Follows components from a place; every place that is passed through must be a directory. -/
def follow (d : Directory) (place : Place) : List String → Option Place
  | [] => some place
  | c :: cs =>
    if !d.isDirectory place then none
    else if isIdle c then d.follow place cs
    else if c = ".." then d.follow (parent place) cs
    else
      match child? c place with
      | some place => d.follow place cs
      | none => none

/-- What a place holds. The null device has no bytes. -/
def content (d : Directory) (place : Place) : PathContent :=
  if d.isDirectory place then .unreadable "Is a directory (os error 21)"
  else
    match place with
    | .below names =>
      match d.files.lookup names with
      | some bytes => .file bytes
      | none => .missing
    | .fromTop names => if names = ["dev", "null"] then .file [] else .missing
    | .above => .missing

/-- What a path leads to. A slash in front leads to the top, a slash behind to directories only. -/
def read (d : Directory) (path : String) : PathContent :=
  if path = "" then .missing
  else
    let start := if path.toList.head? = some '/' then .fromTop [] else .below []
    let trailing := if path.toList.getLast? = some '/' then [""] else []
    match d.follow start (components path ++ trailing) with
    | some place => d.content place
    | none => .missing

end Directory

end ScriptCell
