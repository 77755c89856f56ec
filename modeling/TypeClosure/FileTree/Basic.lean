import TypeClosure.FileTree.Path

/-! Trees of directories and files, and the ways in which a path fails to name one. -/

namespace TypeClosure

inductive Entry where
  | directory
  /-- The text is missing when the content is no Unicode text. -/
  | file (text : Option String)
deriving Repr, DecidableEq, Inhabited

/-- The entries by their places, which are names from the root on, and the place from which
relative paths start. -/
structure FileTree where
  current : List String
  entries : List (List String × Entry)
deriving Repr, DecidableEq, Inhabited

namespace FileTree

inductive Fault where
  | notFound
  | notDirectory
  | isDirectory
  | notText
deriving Repr, DecidableEq, Inhabited

def Fault.message : Fault → String
  | .notFound => "No such file or directory (os error 2)"
  | .notDirectory => "Not a directory (os error 20)"
  | .isDirectory => "Is a directory (os error 21)"
  | .notText => "stream did not contain valid UTF-8"

/-- The entry at a place; the root is a directory. -/
def entryAt? (t : FileTree) (place : List String) : Option Entry :=
  if place = [] then some .directory else t.entries.lookup place

/-- Goes from a place along the segments of a path. -/
def walk (t : FileTree) (place : List String) : List (List Char) → Except Fault (List String)
  | [] => .ok place
  | segment :: rest =>
      match t.entryAt? place with
      | some .directory =>
          if Path.isEmptySegment segment then t.walk place rest
          else if segment = ['.', '.'] then t.walk place.dropLast rest
          else
            let next := place ++ [String.ofList segment]
            if (t.entryAt? next).isSome then t.walk next rest else .error .notFound
      | some (.file _) => .error .notDirectory
      | none => .error .notFound

/-- The place that a path names. -/
def locate (t : FileTree) (path : String) : Except Fault (List String) :=
  if path.isEmpty then .error .notFound
  else if Path.isAbsolute path then t.walk [] (segments path.toList)
  else t.walk t.current (segments path.toList)

/-- The entry that a path names. -/
def find? (t : FileTree) (path : String) : Option Entry :=
  match t.locate path with
  | .ok place => t.entryAt? place
  | .error _ => none

/-- Whether a path names anything. -/
def «exists» (t : FileTree) (path : String) : Bool := (t.find? path).isSome

def isFile (t : FileTree) (path : String) : Bool :=
  match t.find? path with
  | some (.file _) => true
  | _ => false

def isDirectory (t : FileTree) (path : String) : Bool := t.find? path == some .directory

/-- The text of the file that a path names. -/
def readText (t : FileTree) (path : String) : Except Fault String := do
  match t.entryAt? (← t.locate path) with
  | some (.file (some text)) => .ok text
  | some (.file none) => .error .notText
  | some .directory => .error .isDirectory
  | none => .error .notFound

/-- A place as an absolute path. -/
def pathOf (place : List String) : String :=
  if place.isEmpty then "/" else String.join (place.map ("/" ++ ·))

/-- The one spelling of what a path names; a path that names nothing stands for itself. -/
def canonical (t : FileTree) (path : String) : String :=
  match t.locate path with
  | .ok place => pathOf place
  | .error _ => path

/-- The names in the directory at a place, sorted. -/
def names (t : FileTree) (place : List String) : List String :=
  (t.entries.filterMap fun (p, _) =>
    if p.dropLast = place then p.getLast? else none).mergeSort (fun a b => a ≤ b)

/-- The texts of all files. -/
def texts (t : FileTree) : List (List String × String) :=
  t.entries.filterMap fun
    | (place, .file (some text)) => some (place, text)
    | _ => none

/-- Puts a file into the current directory. -/
def addFile (t : FileTree) (name text : String) : FileTree :=
  { t with entries := t.entries ++ [(t.current ++ [name], .file (some text))] }

end FileTree

end TypeClosure
