import Std.Data.ExtTreeMap
import RightOfWay.Command.FileAccess

/-!
# Files in memory

A `FileTree` holds the files and directories below a working directory.  A path is followed name by
name: each name but the last must be that of a directory, one dot stays where it is, and two go
back.  Outside the working directory there are the directories that it is in, and nothing else.
-/

set_option autoImplicit false

namespace RightOfWay

/-- What a path leads to. -/
inductive FileEntry where
  | file (text : String)
  | directory
  deriving DecidableEq

/-- The names on the way from the working directory. -/
abbrev Location := List String

/-- The files and directories below the working directory. -/
structure FileTree where
  entries : Std.ExtTreeMap Location FileEntry

namespace FileTree

/-- What is at the location. -/
def entry? (t : FileTree) (location : Location) : Option FileEntry :=
  if location = [] then some .directory else t.entries[location]?

/-- The error of going on from a location that is no directory. -/
def passage (t : FileTree) (location : Location) : Except FileError Unit :=
  match t.entry? location with
  | none => .error .notFound
  | some (.file _) => .error .notADirectory
  | some .directory => .ok ()

/-- The place that the rest of a path leads to: a location, or a directory outside the tree. -/
def follow (t : FileTree) (here : Option Location) :
    List String → Except FileError (Option Location)
  | [] => .ok here
  | name :: rest => do
    if let some location := here then t.passage location
    if name = "" ∨ name = "." then t.follow here rest
    else if name = ".." then
      match here with
      | some (first :: more) => t.follow (some (first :: more).dropLast) rest
      | _ => t.follow none rest
    else if ¬ nameFits name then .error .nameTooLong
    else
      match here with
      | some location => t.follow (some (location ++ [name])) rest
      | none => .error .notFound

/-- The place that a path leads to.  Nothing needs to be there yet. -/
def locate (t : FileTree) (path : String) : Except FileError (Option Location) :=
  if path.contains '\x00' then .error .nulInPath
  else if ¬ pathFits path then .error .nameTooLong
  else if path = "" then .error .notFound
  else t.follow (if path.startsWith "/" then none else some []) (path.splitOn "/")

/-- The text of a file. -/
def read (t : FileTree) (path : String) : Except FileError String := do
  match ← t.locate path with
  | none => throw .isADirectory
  | some location =>
    match t.entry? location with
    | some (.file text) => return text
    | some .directory => throw .isADirectory
    | none => throw .notFound

/-- The tree with a text in a file, unless the path leads to a directory or nowhere. -/
def write (t : FileTree) (path text : String) : FileTree :=
  match t.locate path with
  | .ok (some location) =>
    if t.entry? location = some .directory ∨ path.endsWith "/" then t
    else ⟨t.entries.insert location (.file text)⟩
  | _ => t

/-- The tree with the directories on the rest of a path. -/
def makeFrom (t : FileTree) (here : Location) : List String → FileTree
  | [] => t
  | name :: rest =>
    if name = "" ∨ name = "." then t.makeFrom here rest
    else if name = ".." then if here = [] then t else t.makeFrom here.dropLast rest
    else if ¬ nameFits name then t
    else
      let next := here ++ [name]
      match t.entry? next with
      | some (.file _) => t
      | some .directory => t.makeFrom next rest
      | none => FileTree.makeFrom ⟨t.entries.insert next .directory⟩ next rest

/-- The tree with a directory and those that it is in. -/
def makeDirectory (t : FileTree) (path : String) : FileTree :=
  if path.startsWith "/" ∨ path.contains '\x00' ∨ ¬ pathFits path then t
  else t.makeFrom [] (path.splitOn "/")

/-- The tree of these files and the directories that they are in. -/
def ofFiles (files : List (String × String)) : FileTree :=
  files.foldl (fun t (path, text) ↦
    let directory := "/".intercalate (path.splitOn "/").dropLast
    (t.makeDirectory directory).write path text) ⟨∅⟩

/-- The files right inside a directory by name, in order. -/
def filesIn (t : FileTree) (path : String) : List (String × String) :=
  match t.locate (if path = "" then "." else path) with
  | .ok (some directory) => t.entries.toList.filterMap fun (location, entry) ↦
    match entry, location.getLast? with
    | .file text, some name => if location.dropLast = directory then some (name, text) else none
    | _, _ => none
  | _ => []

/-- Why a file of the tree cannot be started.  A name without a slash is looked for among the
programs of the system, where only the dots are found, which are directories. -/
def startError (t : FileTree) (path : String) : FileError :=
  if path.contains '\x00' then .nulInProgram
  else if path.contains '/' then
    match t.locate path with
    | .error e => e
    | .ok none => .permissionDenied
    | .ok (some location) => if (t.entry? location).isSome then .permissionDenied else .notFound
  else if ¬ nameFits path then .nameTooLong
  else if path = "." ∨ path = ".." then .permissionDenied
  else .notFound

/-- Access to the files of a tree. -/
def access : FileAccess (StateM FileTree) where
  read path := do return (← get).read path
  write path text := modify (·.write path text)
  makeDirectory path := modify (·.makeDirectory path)
  startError path := do return (← get).startError path

end FileTree
end RightOfWay
