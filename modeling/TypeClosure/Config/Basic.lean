import TypeClosure.Failure

/-! The settings of a run. -/

namespace TypeClosure

structure Config where
  /-- Names to start from, behind those that are asked for. -/
  roots : List String := []
  /-- Patterns of names that are never looked up. -/
  externals : List String := []
  followReexports : Bool := false
  /-- What is appended to the name of a module to find its file. -/
  moduleExtensions : List String := [".ts", ".tsx", ".d.ts"]
deriving Repr, DecidableEq

namespace Config

/-- The patterns of external names. -/
def externalPatterns (c : Config) : Except Failure (List Glob.Pattern) :=
  c.externals.mapM fun text =>
    match Glob.Pattern.read text with
    | .ok pattern => .ok pattern
    | .error fault => .error ⟨[.compilingExternal text], .pattern fault⟩

/-- Whether all patterns can be read, and all extensions begin with a dot. -/
def validate (c : Config) : Except Failure Unit := do
  let _ ← c.externalPatterns
  match c.moduleExtensions.find? (!".".toList.isPrefixOf ·.toList) with
  | some extension => .error ⟨[], .moduleExtension extension⟩
  | none => .ok ()

end Config

end TypeClosure
