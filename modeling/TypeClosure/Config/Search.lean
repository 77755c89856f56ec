import TypeClosure.Config.Json

/-! The configuration file of a directory: its own, or that of the nearest directory above. The
search does not go past a directory with a `.git` entry. -/

namespace TypeClosure

def configName : String := ".typedepsrc.json"

namespace FileTree

/-- The first configuration file in some directories. -/
def firstConfig? (t : FileTree) : List String → Option String
  | [] => none
  | directory :: above =>
      let path := Path.join directory configName
      if t.exists path then some path
      else if t.exists (Path.join directory ".git") then none
      else t.firstConfig? above

/-- The configuration file of a directory. -/
def configFile? (t : FileTree) (directory : String) : Option String :=
  t.firstConfig? (Path.ancestors directory)

/-- Reads and checks a configuration file. -/
def readConfig (t : FileTree) (path : String) : Except Failure Config :=
  match t.readText path with
  | .error fault => .error ⟨[], .file fault⟩
  | .ok text =>
      match Config.ofJson text with
      | .error fault => .error ⟨[.readingConfig path], .json fault⟩
      | .ok config => config.validate.map fun _ => config

end FileTree

/-- A configuration, and whether it comes from a file. -/
structure LoadedConfig where
  config : Config := {}
  fromFile : Bool := false
deriving Repr, DecidableEq

/-- The configuration of a directory; without a file it is the default one. -/
def FileTree.loadConfig (t : FileTree) (directory : String) : Except Failure LoadedConfig :=
  match t.configFile? directory with
  | some path => (t.readConfig path).map fun config => ⟨config, true⟩
  | none => .ok {}

end TypeClosure
