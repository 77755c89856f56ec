import TypeClosure.Failure

/-!
The paths that a glob pattern stands for in a tree, component by component. What a directory holds
comes in the order of the names, and a directory before what it holds.
-/

namespace TypeClosure.Glob

/-- The components of a pattern; an empty one at the end does not count. -/
def componentTexts (text : List Char) : List String :=
  let parts := FileTree.segments text
  let kept := if parts.getLast? = some [] then parts.dropLast else parts
  kept.map String.ofList

/-- Patterns in which no component `**` follows another. -/
def collapse : List Pattern → List Pattern
  | p :: q :: rest =>
      if p.isRecursive && q.isRecursive then collapse (q :: rest) else p :: collapse (q :: rest)
  | ps => ps

/-- A name behind a path; behind the current directory it stands alone. -/
def behind (path name : String) : String :=
  if FileTree.Path.components path = [.here] then name else FileTree.Path.join path name

/-- The entries of a directory. -/
def entries (t : FileTree) (path : String) : List String :=
  match t.locate path with
  | .ok place => (t.names place).map (behind path)
  | .error _ => []

/-- Everything below a directory, with what `found` makes of each path; `n` directories deep at
most. -/
def descend (t : FileTree) (found : String → List String) : Nat → String → List String
  | 0, _ => []
  | n + 1, path =>
      if t.isDirectory path then
        (entries t path).flatMap fun child => found child ++ descend t found n child
      else []

/-- Whether a path leads anywhere behind a directory. -/
def leadsOn (t : FileTree) (path name next : String) : Bool :=
  if name = "." || name = ".." then t.isDirectory path else t.exists next

/-- Whether the name of a path matches a pattern. -/
def matchesName (p : Pattern) (path : String) : Bool :=
  match FileTree.Path.fileName? path with
  | some name => p.matches name
  | none => false

/-- The directories `..` and `.` of a directory, where a pattern that begins with a dot matches
them. -/
def specials (p : Pattern) : List String :=
  if p.tokens.head? = some (.literal '.') then ["..", "."].filter p.matches else []

/-- The paths below a path that match patterns. -/
def expandFrom (t : FileTree) (directoriesOnly : Bool) : List Pattern → String → List String
  | [], path => if directoriesOnly && !t.isDirectory path then [] else [path]
  | [p], path =>
      if p.isLiteral then
        let next := behind path p.text
        if leadsOn t path p.text next then expandFrom t directoriesOnly [] next else []
      else if p.isRecursive then
        descend t (fun child => if t.isDirectory child then [child] else [])
          (t.entries.length + 1) path
      else if t.isDirectory path then
        (specials p).flatMap (fun name =>
          expandFrom t directoriesOnly [] (FileTree.Path.join path name)) ++
        ((entries t path).filter (matchesName p)).flatMap (expandFrom t directoriesOnly [])
      else []
  | p :: q :: ps, path =>
      if p.isLiteral then
        let next := behind path p.text
        if leadsOn t path p.text next then expandFrom t directoriesOnly (q :: ps) next else []
      else if p.isRecursive then
        descend t (fun child =>
          if matchesName q child then expandFrom t directoriesOnly ps child else [])
          (t.entries.length + 1) path
      else if t.isDirectory path then
        (specials p).flatMap (fun name =>
          expandFrom t directoriesOnly (q :: ps) (FileTree.Path.join path name)) ++
        ((entries t path).filter (matchesName p)).flatMap
          (expandFrom t directoriesOnly (q :: ps))
      else []

/-- The paths of a tree that a pattern stands for. -/
def expand (t : FileTree) (text : String) : Except Fault (List String) := do
  let _ ← Pattern.read text
  let isAbsolute := FileTree.Path.isAbsolute text
  let parts := componentTexts (if isAbsolute then text.toList.drop 1 else text.toList)
  let patterns ← parts.mapM Pattern.read
  if patterns.isEmpty then return []
  let directoriesOnly := text.toList.getLast? = some '/'
  return expandFrom t directoriesOnly (collapse patterns) (if isAbsolute then "/" else ".")

/-! ### Source files -/

/-- Whether a path has an extension of TypeScript. -/
def isTypeScript (path : String) : Bool :=
  match FileTree.Path.extension? path with
  | some e => ["ts", "tsx", "mts", "cts"].contains e
  | none => false

/-- Whether a text is a pattern rather than a path. -/
def isPattern (text : String) : Bool := text.toList.any (['*', '?', '['].contains ·)

/-- Adds a path behind others, unless it is one of them. -/
def addPath (paths : List String) (path : String) : List String :=
  if paths.any (FileTree.Path.same path) then paths else paths ++ [path]

/-- The source files that a pattern stands for; a path stands for itself. -/
def sourcePaths (t : FileTree) (text : String) : Except Failure (List String) :=
  if isPattern text then
    match expand t text with
    | .ok paths => .ok (paths.filter fun path => t.isFile path && isTypeScript path)
    | .error fault => .error ⟨[.expanding text], .pattern fault⟩
  else .ok [text]

/-- The source files that patterns stand for, each once. -/
def allSourcePaths (t : FileTree) (texts : List String) : Except Failure (List String) :=
  texts.foldlM (fun paths text => (sourcePaths t text).map (·.foldl addPath paths)) []

end TypeClosure.Glob
