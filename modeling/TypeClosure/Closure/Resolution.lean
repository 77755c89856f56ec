import TypeClosure.FileTree.Basic

/-! The file that a module specifier means to the file that imports it. -/

namespace TypeClosure.FileTree

/-- A text without an ending, if it has that ending. -/
def withoutEnding? (ending text : String) : Option String :=
  if ending.toList.isSuffixOf text.toList then
    some (String.ofList (text.toList.take (text.length - ending.length)))
  else none

/-- Where the file of a module is looked for: at the specifier as it is written, with each
extension behind it, with each extension in the place of `.js`, and as the index of a directory. -/
def moduleCandidates (importing specifier : String) (extensions : List String) : List String :=
  let base := Path.join ((Path.parent? importing).getD ".") specifier
  let replaced := match withoutEnding? ".js" base with
    | some stem => extensions.map (stem ++ ·)
    | none => []
  base :: extensions.map (base ++ ·) ++ replaced ++
    extensions.map fun e => Path.join base ("index" ++ e)

/-- The first of the candidates that is a file. -/
def resolveModule (t : FileTree) (importing specifier : String) (extensions : List String) :
    Option String :=
  (moduleCandidates importing specifier extensions).find? t.isFile

end TypeClosure.FileTree
