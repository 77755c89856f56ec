import TypeClosure.Command.Run
import TypeClosure.Report.Elapsed

/-!
The program. A run sees the files below the nearest directory above with a `.git` entry, or below
the current directory if there is none, and the configuration files of the directories above.
-/

open TypeClosure

/-- Everything below a place. -/
partial def readBelow (place : List String) : IO (List (List String × Entry)) := do
  let directory ← IO.FS.realPath (FileTree.pathOf place)
  let parts ← (← directory.readDir).toList.mapM fun entry => do
    let next := place ++ [entry.fileName]
    if ← entry.path.isDir then
      return (next, Entry.directory) :: (← readBelow next)
    else
      return [(next, Entry.file (String.fromUTF8? (← IO.FS.readBinFile entry.path)))]
  return parts.flatten

/-- The entries with some names at a place. -/
def readNamed (place names : List String) : IO (List (List String × Entry)) := do
  let directory ← IO.FS.realPath (FileTree.pathOf place)
  let parts ← names.mapM fun (name : String) => do
    let path := directory / name
    if ← path.isDir then return [(place ++ [name], Entry.directory)]
    else if ← path.pathExists then
      return [(place ++ [name], Entry.file (String.fromUTF8? (← IO.FS.readBinFile path)))]
    else return []
  return parts.flatten

/-- The tree that a run in the current directory sees. -/
def readTree : IO FileTree := do
  let current := (FileTree.segments (← IO.currentDir).toString.toList).filterMap fun segment =>
    if segment.isEmpty then none else some (String.ofList segment)
  let above := (List.range (current.length + 1)).reverse.map current.take
  let marked ← above.filterM fun place => do
    return !(← readNamed place [".git"]).isEmpty
  let base := marked.headD current
  let outside := above.filter (·.length < base.length)
  let configs ← outside.mapM (readNamed · [configName, ".git"])
  let directories := (above.filter (·.length ≤ base.length)).map (·, Entry.directory)
  return ⟨current, directories ++ configs.flatten ++ (← readBelow base)⟩

/-- Writes the files that a run has added. -/
def writeAdded (before after : FileTree) : IO Unit := do
  for (place, entry) in after.entries.drop before.entries.length do
    if let .file (some text) := entry then
      IO.FS.writeFile (FileTree.pathOf place) text

def main (words : List String) : IO UInt32 := do
  let start ← IO.monoNanosNow
  let tree ← readTree
  let output ← IO.getStdout
  let errors ← IO.getStderr
  let response := Command.respond tree words
  writeAdded tree (response.tree tree)
  let done := response.exit (← output.isTty)
  output.putStr done.output
  errors.putStr (Report.render (← errors.isTty) done.errors)
  if done.timed then
    errors.putStr ("Finished in " ++ Report.elapsed ((← IO.monoNanosNow) - start) ++ "\n")
  return done.code.toUInt32
