/-!
# Files

What a run can see of the files around it: for every path, what stands there.  A path is a text with
slashes between names.  A dot is the directory it stands in, so it may be left out of the middle of
a path.

Making a directory makes the directories that lead to it as well.  `canMake` says when that goes
well and `making` what is to be seen afterwards.

## Main Definitions

* `FileEntry`, `Files` — what stands at a path
* `Files.canMake`, `Files.making` — directories that are made
-/

namespace FleetLink

/-- What stands at a path. -/
inductive FileEntry where
  | absent
  /-- Nothing can stand there, as the path leads through a file. -/
  | unreachable
  /-- A directory, or something else that cannot be read as text. -/
  | directory
  | file (text : String)
  deriving DecidableEq, Repr

/-- What stands at each path. -/
abbrev Files := String → FileEntry

namespace Files

/-- Something stands at a path. -/
def exist (files : Files) (path : String) : Bool :=
  match files path with
  | .absent | .unreachable => false
  | .directory | .file _ => true

/-- The names that a path leads through. -/
def names (path : String) : List String :=
  (path.splitOn "/").filter fun name => name ≠ "" ∧ name ≠ "."

/-- The directory that a path stands in; the empty path if that is where the run is. -/
def parent (path : String) : String :=
  (if "/".isPrefixOf path then "/" else "") ++ "/".intercalate (names path).dropLast

/-- A path that starts at a directory, unless it says itself where it starts. -/
def join (directory path : String) : String :=
  if "/".isPrefixOf path ∨ directory = "" then path
  else if directory.endsWith "/" then directory ++ path
  else directory ++ "/" ++ path

/-- A directory is there or can be made.  The empty path is where the run is.  No path holds the
null character, and a dot at the end is for directories that are there. -/
def canMake (files : Files) (path : String) : Bool :=
  if path = "" then true
  else if '\x00' ∈ path.toList then false
  else
    match files path with
    | .directory => true
    | .unreachable | .file _ => false
    | .absent => !path.endsWith "/."

/-- The files after a directory was made. -/
def making (files : Files) (directory : String) : Files := fun path =>
  if files path = .absent ∧ names path ≠ [] ∧ (names path).isPrefixOf (names directory) then
    .directory
  else files path

end Files

end FleetLink
