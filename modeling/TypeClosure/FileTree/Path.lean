/-!
Paths as texts. Joining and taking parents keep the spelling; components forget repeated slashes
and single dots, except one in front.
-/

namespace TypeClosure.FileTree

/-- A text cut at each slash. -/
def segments : List Char → List (List Char)
  | [] => [[]]
  | c :: cs =>
      if c = '/' then [] :: segments cs
      else match segments cs with
        | [] => [[c]]
        | s :: ss => (c :: s) :: ss

/-- Segments with slashes between them. -/
def joinSegments : List (List Char) → List Char
  | [] => []
  | [s] => s
  | s :: ss => s ++ '/' :: joinSegments ss

inductive Component where
  | root
  | here
  | up
  | name (name : String)
deriving Repr, DecidableEq, Inhabited

namespace Path

def isAbsolute (path : String) : Bool := path.toList.head? == some '/'

/-- Whether a segment says nothing but that it stands in a directory. -/
def isEmptySegment (segment : List Char) : Bool := segment == [] || segment == ['.']

private def segmentComponent? (segment : List Char) : Option Component :=
  if isEmptySegment segment then none
  else if segment == ['.', '.'] then some .up
  else some (.name (String.ofList segment))

/-- The components of a path. -/
def components (path : String) : List Component :=
  let parts := segments path.toList
  let rest := parts.filterMap segmentComponent?
  if isAbsolute path then .root :: rest
  else if parts.head? == some ['.'] then .here :: rest
  else rest

/-- The components that segments stand for behind the front of a path. -/
def componentsOf (ss : List (List Char)) : List Component := ss.filterMap segmentComponent?

@[simp] theorem componentsOf_nil : componentsOf [] = [] := rfl

@[simp] theorem componentsOf_append (ss ts : List (List Char)) :
    componentsOf (ss ++ ts) = componentsOf ss ++ componentsOf ts := List.filterMap_append

theorem componentsOf_cons (s : List Char) (ss : List (List Char)) :
    componentsOf (s :: ss) =
      if isEmptySegment s then componentsOf ss
      else if s = ['.', '.'] then .up :: componentsOf ss
      else .name (String.ofList s) :: componentsOf ss := by
  rw [componentsOf, List.filterMap_cons]
  by_cases empty : isEmptySegment s = true
  · simp [segmentComponent?, empty, componentsOf]
  · by_cases up : s = ['.', '.']
    · subst up
      rfl
    · simp [segmentComponent?, empty, up, componentsOf]

/-- What stands in front of all other components: the root, or the current directory. -/
def front (path : String) : List Component :=
  if isAbsolute path then [.root]
  else if (segments path.toList).head? = some ['.'] then [.here]
  else []

theorem components_eq (path : String) :
    components path = front path ++ componentsOf (segments path.toList) := by
  unfold components front
  dsimp only
  split
  · rfl
  · by_cases here : (segments path.toList).head? = some ['.']
    · simp [here, componentsOf]
    · simp [here, componentsOf]

/-- Two spellings that differ in nothing but slashes and dots that say nothing. -/
def same (path other : String) : Bool := components path == components other

/-- The name that a path ends in, unless it ends in `..`. -/
def fileName? (path : String) : Option String :=
  match (components path).getLast? with
  | some (.name name) => some name
  | _ => none

/-- What follows the last dot of a name that does not begin with that dot. -/
def extension? (path : String) : Option String :=
  (fileName? path).bind fun name =>
    let reversed := name.toList.reverse
    let last := reversed.takeWhile (· != '.')
    match reversed.dropWhile (· != '.') with
    | _ :: _ :: _ => some (String.ofList last.reverse)
    | _ => none

/-- A path behind a directory; an absolute one stands for itself. -/
def join (base path : String) : String :=
  if isAbsolute path then path
  else match base.toList.getLast? with
    | none => path
    | some '/' => base ++ path
    | some _ => base ++ "/" ++ path

/-- What comes before the first component that has a name: a slash, a dot, or nothing; and what
follows. -/
def lead (path : List Char) : List Char × List Char :=
  match path with
  | '/' :: rest => (['/'], rest)
  | ['.'] => (['.'], [])
  | '.' :: '/' :: rest => (['.'], '/' :: rest)
  | _ => ([], path)

/-- The path without its last component, as it is spelled. -/
def parent? (path : String) : Option String :=
  let (lead, body) := lead path.toList
  match (segments body).reverse.dropWhile isEmptySegment with
  | _ :: others =>
      some (String.ofList (lead ++ joinSegments (others.dropWhile isEmptySegment).reverse))
  | [] => if lead == ['.'] then some "" else none

/-- A path and its parents, the nearest first; `n` parents at most. -/
def ancestorsUpTo : Nat → String → List String
  | 0, path => [path]
  | n + 1, path =>
      match parent? path with
      | some parent => path :: ancestorsUpTo n parent
      | none => [path]

/-- A path and all its parents, the nearest first. -/
def ancestors (path : String) : List String := ancestorsUpTo path.length path

end Path

end TypeClosure.FileTree
