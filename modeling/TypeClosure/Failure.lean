import TypeClosure.FileTree.Basic
import TypeClosure.Glob.Pattern
import TypeClosure.Json.Reader

/-! Why something could not be done. A failure carries what was being done when it came about, the
outermost first. -/

namespace TypeClosure

/-- What was being done. -/
inductive Activity where
  | readingSource (path : String)
  | following (modules : List String)
  | analyzing (path : String)
  | readingConfig (path : String)
  | compilingExternal (pattern : String)
  | expanding (pattern : String)
deriving Repr, DecidableEq

inductive Cause where
  /-- A text that does not follow the grammar. -/
  | parse (path : String)
  | file (fault : FileTree.Fault)
  | pattern (fault : Glob.Fault)
  | json (fault : Json.Fault)
  | moduleExtension (extension : String)
  | noFiles (patterns : List String)
  | nesting
deriving Repr, DecidableEq

structure Failure where
  activities : List Activity := []
  cause : Cause
deriving Repr, DecidableEq

namespace Failure

/-- The same failure while something further out was being done. -/
def during (activity : Activity) (f : Failure) : Failure :=
  { f with activities := activity :: f.activities }

/-- A character as it stands in a quoted path. -/
def quotedChar (c : Char) : String :=
  if c = '"' then "\\\""
  else if c = '\\' then "\\\\"
  else if c = '\'' then "\\'"
  else if c = '\n' then "\\n"
  else if c = '\r' then "\\r"
  else if c = '\t' then "\\t"
  else if c = Char.ofNat 0 then "\\0"
  else if c.toNat < 0x20 || c.toNat = 0x7f then
    "\\u\x7b" ++ String.ofList (Nat.toDigits 16 c.toNat) ++ "\x7d"
  else c.toString

def quoted (path : String) : String :=
  "\"" ++ String.join (path.toList.map quotedChar) ++ "\""

end Failure

def Activity.message : Activity → String
  | .readingSource path => "Failed to read source file: " ++ path
  | .following modules =>
      "Failed to follow re-export \"" ++ String.intercalate "\", \"" modules ++ "\""
  | .analyzing path => "Failed to analyze " ++ path
  | .readingConfig path => "Failed to parse config file: " ++ Failure.quoted path
  | .compilingExternal pattern => "Invalid glob pattern in 'externals': \"" ++ pattern ++ "\""
  | .expanding pattern => "Invalid glob pattern: \"" ++ pattern ++ "\""

/-- What a cause says of itself; a JSON text that cannot be read says nothing. -/
def Cause.message? : Cause → Option String
  | .parse path => some ("Failed to parse " ++ path)
  | .file fault => some fault.message
  | .pattern fault => some fault.message
  | .json _ => none
  | .moduleExtension extension =>
      some ("Invalid entry in 'moduleExtensions': \"" ++ extension ++ "\" (must start with '.')")
  | .noFiles patterns =>
      some ("No TypeScript files matched: " ++ String.intercalate " " patterns)
  | .nesting => some "Re-exports are nested too deeply"

/-- The whole chain of a failure. -/
def Failure.message (f : Failure) : String :=
  String.intercalate ": " (f.activities.map Activity.message ++ f.cause.message?.toList)

end TypeClosure
