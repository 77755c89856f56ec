import TypeClosure.Closure.Build
import TypeClosure.Closure.Resolution
import TypeClosure.Config.Basic

/-!
Closures across files. What a closure needs of the statements that forward names is looked up in
the files of their modules, where the names are called by their origins. Statements whose modules
are one file are followed together, and a name is demanded of a file only once.
-/

namespace TypeClosure

structure ClosureOptions where
  externals : List Glob.Pattern := []
  followReexports : Bool := false
  moduleExtensions : List String := ({} : Config).moduleExtensions

/-- The options that a configuration gives. -/
def Config.closureOptions (c : Config) : Except Failure ClosureOptions := do
  return ⟨← c.externalPatterns, c.followReexports, c.moduleExtensions⟩

/-- Reads a source file of a tree. -/
def FileTree.readSource (t : FileTree) (path : String) : Except Failure Source :=
  match t.readText path with
  | .error fault => .error ⟨[.readingSource path], .file fault⟩
  | .ok text =>
      match Source.read? path text with
      | some source => .ok source
      | none => .error ⟨[], .parse path⟩

/-! ### What has been visited -/

inductive FollowStep where
  | parsing (path : String)
  | skipping (path : String)
deriving Repr, DecidableEq

def FollowStep.message : FollowStep → String
  | .parsing path => "Parsing " ++ path
  | .skipping path => "Skipping " ++ path ++ " (already followed)"

/-- The names that have been demanded or listed, with their files, and the steps of the way. -/
structure Visits where
  seen : List (String × String) := []
  steps : List FollowStep := []
deriving Repr, DecidableEq

namespace Visits

def mark (v : Visits) (file : String) (names : List String) : Visits :=
  { v with seen := names.map (file, ·) ++ v.seen }

def record (v : Visits) (step : FollowStep) : Visits := { v with steps := v.steps ++ [step] }

def unseen (v : Visits) (file : String) (names : List String) : List String :=
  names.filter fun name => !v.seen.contains (file, name)

end Visits

/-! ### What is followed -/

/-- A file to follow names to: by its path, and by its one spelling. -/
structure FollowTarget where
  path : String
  file : String
  modules : List String
  roots : List String
deriving Repr, DecidableEq

/-- Adds names that are demanded of a file by a module specifier. -/
def addTarget (target : FollowTarget) : List FollowTarget → List FollowTarget
  | [] => [target]
  | t :: ts =>
      if t.file = target.file then
        { t with
          modules := target.modules.foldl addName t.modules
          roots := target.roots.foldl addName t.roots } :: ts
      else t :: addTarget target ts

namespace FileTree

/-- The file of a statement that forwards names, with the names demanded of it. -/
def targetOf? (t : FileTree) (extensions : List String) (importing : String) (r : Reexport) :
    Option FollowTarget :=
  (t.resolveModule importing r.module extensions).map fun path =>
    ⟨path, t.canonical path, [r.module], distinct (r.names.map r.originOf)⟩

/-- The files to follow, in the order in which the statements first lead to them. -/
def targets (t : FileTree) (extensions : List String) (c : Closure) (path : String) :
    List FollowTarget :=
  (c.reexports.filterMap (t.targetOf? extensions path)).foldl (fun ts target =>
    addTarget target ts) []

/-- The modules that no file stands for. -/
def unresolvedModules (t : FileTree) (extensions : List String) (c : Closure) (path : String) :
    List String :=
  (c.reexports.filter fun r => (t.targetOf? extensions path r).isNone).map Reexport.module

/-- Visits files one after the other, each for the names that are new. -/
def followTargets
    (visit : String → List String → Visits → Except Failure ClosureTree × Visits) :
    List FollowTarget → Visits → Except Failure (List ClosureTree) × Visits
  | [], v => (.ok [], v)
  | target :: rest, v =>
      let roots := v.unseen target.file target.roots
      if roots.isEmpty then followTargets visit rest (v.record (.skipping target.path))
      else
        match visit target.path roots v with
        | (.error f, v) => (.error (f.during (.following target.modules)), v)
        | (.ok nested, v) =>
            match followTargets visit rest v with
            | (.error f, v) => (.error f, v)
            | (.ok others, v) => (.ok (nested :: others), v)

/-- The closure of some roots in the file that a path names, with those that are followed from it
in at most `n` steps. -/
def followUpTo (t : FileTree) (options : ClosureOptions) :
    Nat → String → List String → Visits → Except Failure ClosureTree × Visits
  | 0, _, _, v => (.error ⟨[], .nesting⟩, v)
  | n + 1, path, roots, v =>
      let v := v.record (.parsing path)
      let file := t.canonical path
      let v := v.mark file roots
      match t.readSource path with
      | .error f => (.error f, v)
      | .ok source =>
          let c := source.closure options.externals roots
          let v := v.mark file (c.roots ++ c.declarationNames)
          if options.followReexports then
            match followTargets (t.followUpTo options n)
                (t.targets options.moduleExtensions c path) v with
            | (.error f, v) => (.error f, v)
            | (.ok followed, v) =>
                (.ok (.node c (t.unresolvedModules options.moduleExtensions c path) followed), v)
          else (.ok (.node c [] []), v)

/-- The names under which the files of a tree forward names from others. -/
def forwardedOrigins (t : FileTree) : List String :=
  t.texts.flatMap fun (place, text) =>
    match Source.read? (pathOf place) text with
    | some source => source.contents.reexports.flatMap Reexport.origins
    | none => []

/-- How often a name can be demanded of a file for the first time. -/
def followBound (t : FileTree) : Nat := t.entries.length * t.forwardedOrigins.length

/-- The closure of some roots in the file that a path names, and the steps on the way. Each file
that is followed is demanded a name that has not been demanded of it before. -/
def closure (t : FileTree) (options : ClosureOptions) (path : String) (roots : List String) :
    Except Failure ClosureTree × List FollowStep :=
  let bound := if options.followReexports then t.followBound else 0
  let (result, visits) := t.followUpTo options (bound + 1) path roots {}
  (result, visits.steps)

end FileTree

end TypeClosure
