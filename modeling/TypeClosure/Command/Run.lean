import TypeClosure.Closure.Follow
import TypeClosure.Command.Help
import TypeClosure.Config.Search
import TypeClosure.Glob.Expansion
import TypeClosure.Report.Data
import TypeClosure.Report.Names

/-! What the commands do to a tree, what they write, and how they end. -/

namespace TypeClosure.Command

open Report

/-- How a task ends: with everything found, with something missing, or not at all. -/
inductive Ending where
  | success
  | failure
  | aborted (failure : Failure)
deriving Repr, DecidableEq

def endingOf (complete : Bool) : Ending := if complete then .success else .failure

/-- What is written of a result. -/
inductive Output where
  | lines (lines : List Line)
  | json (value : Json.Value)

def Output.text (colours : Bool) : Output → String
  | .lines written => render colours written
  | .json value => value.text ++ "\n"

/-- What a task leaves behind: what it writes of its result and beside it, how it ends, and the
tree. A task that is timed tells in the end how long it took, unless it is aborted. -/
structure Outcome where
  output : Output := .lines []
  errors : List Line := []
  ending : Ending
  timed : Bool := false
  tree : FileTree

/-- Lines that are written only on demand. -/
def whenVerbose (verbose : Bool) (messages : List String) : List Line :=
  if verbose then messages.map fun message => [.plain message] else []

/-! ### Closures -/

def configMessage (loaded : LoadedConfig) : String :=
  if loaded.fromFile then "Using " ++ configName
  else "No " ++ configName ++ " found, using defaults"

/-- The closure that a command asks for, under a configuration. -/
def requestedClosure (t : FileTree) (a : ClosureArguments) (config : Config) :
    Except Failure ClosureTree × List FollowStep :=
  match config.closureOptions with
  | .error f => (.error f, [])
  | .ok options =>
      let options := { options with
        followReexports := options.followReexports || a.followReexports }
      let (result, steps) := t.closure options a.file (a.types ++ config.roots)
      (result.mapError (·.during (.analyzing a.file)), steps)

def runClosure (t : FileTree) (a : ClosureArguments) : Outcome :=
  match t.loadConfig (FileTree.pathOf t.current) with
  | .error f => { ending := .aborted f, tree := t }
  | .ok loaded =>
      let (result, steps) := requestedClosure t a loaded.config
      let errors :=
        whenVerbose a.verbose (configMessage loaded :: steps.map FollowStep.message)
      match result with
      | .error f => { errors, ending := .aborted f, tree := t }
      | .ok tree =>
          { output := if a.json then .json tree.toJson else .lines (closureLines tree)
            errors, ending := endingOf (!tree.hasMissingRoots), timed := a.verbose, tree := t }

/-! ### Names -/

/-- The listing of each file. -/
def listFiles (t : FileTree) (paths : List String) : List (String × Except Failure Listing) :=
  paths.map fun path => (path, (t.readSource path).map Source.listing)

def readable (results : List (String × Except Failure Listing)) : List Listing :=
  results.filterMap fun
    | (_, .ok listing) => some listing
    | (_, .error _) => none

/-- The paths of files that could not be read, and why. -/
def unreadable (results : List (String × Except Failure Listing)) : List (String × Failure) :=
  results.filterMap fun
    | (path, .error f) => some (path, f)
    | (_, .ok _) => none

def failureLine : String × Failure → Line
  | (path, f) => [.styled .boldYellow "warning:", .plain (" " ++ path ++ ": " ++ f.message)]

/-- What is written beside the listings: on demand, why each file could not be read. -/
def namesErrors (verbose : Bool) (files : Nat) (failed : List (String × Failure)) : List Line :=
  whenVerbose verbose ["Analyzing " ++ toString files ++ " file(s)"] ++
    (if verbose then failed.map failureLine else []) ++ failureLines failed.length verbose

def runNames (t : FileTree) (a : NamesArguments) : Outcome :=
  match Glob.allSourcePaths t a.patterns with
  | .error f => { ending := .aborted f, tree := t }
  | .ok [] => { ending := .aborted ⟨[], .noFiles a.patterns⟩, tree := t }
  | .ok paths =>
      let results := listFiles t paths
      let listings := readable results
      let failed := unreadable results
      { output :=
          if a.json then .json (.array (listings.map Listing.toJson))
          else .lines (namesLines listings)
        errors := namesErrors a.verbose paths.length failed
        ending := endingOf failed.isEmpty, timed := a.verbose, tree := t }

/-! ### Configuration files -/

/-- Puts the default configuration into the current directory, unless there is one. -/
def runInit (t : FileTree) : Outcome :=
  let path := FileTree.Path.join (FileTree.pathOf t.current) configName
  if t.exists path then
    { errors := [[.plain ("Error: " ++ configName ++ " already exists")]]
      ending := .failure, tree := t }
  else
    { output := .lines [[.styled .green successMark, .plain " ",
        .styled .green ("Created " ++ configName)]]
      ending := .success, tree := t.addFile configName Config.defaultText }

def Task.run (t : FileTree) : Task → Outcome
  | .closure a => runClosure t a
  | .names a => runNames t a
  | .init => runInit t

/-! ### Command lines -/

/-- What a command line leads to. -/
inductive Response where
  | shown (text : String)
  | overview (text : String)
  | performed (outcome : Outcome)
  | refused (fault : UsageFault)

/-- Reads and performs a command line. Without a command the help of the program is shown. -/
def respond (t : FileTree) (words : List String) : Response :=
  match Request.read words with
  | .ok (.perform task) => .performed (task.run t)
  | .ok (.showHelp topic) => .shown topic.text
  | .ok .showVersion => .shown versionText
  | .ok .overview => .overview programHelp
  | .error fault => .refused fault

/-- The tree after a command line. -/
def Response.tree (before : FileTree) : Response → FileTree
  | .performed o => o.tree
  | .shown _ | .overview _ | .refused _ => before

/-- What the program writes on each channel, and its exit code. -/
structure Exit where
  output : String := ""
  errors : List Line := []
  timed : Bool := false
  code : Nat

/-- How the program ends. -/
def Response.exit (colours : Bool) : Response → Exit
  | .shown help | .overview help => { output := help, code := 0 }
  | .refused fault => { errors := [[.plain fault.message]], code := 2 }
  | .performed o =>
      let output := o.output.text colours
      match o.ending with
      | .success => { output, errors := o.errors, timed := o.timed, code := 0 }
      | .failure => { output, errors := o.errors, timed := o.timed, code := 1 }
      | .aborted f =>
          { output, errors := o.errors ++ [[.plain ("Error: " ++ f.message)]], code := 2 }

end TypeClosure.Command
