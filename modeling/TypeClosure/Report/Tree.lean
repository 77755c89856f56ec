import TypeClosure.Closure.Basic
import TypeClosure.Report.Span

/-! What is written of a closure: a block for each file, those that were followed further in, and
a line that sums them up. -/

namespace TypeClosure.Report

open TypeClosure.Report.Span

def indent (depth : Nat) : Span := plain (String.ofList (List.replicate (2 * depth) ' '))

def entryLine (depth : Nat) (e : ClosureEntry) : Line :=
  [indent depth, plain "  ", styled .dimmed (padded e.line), plain "  ",
    styled .cyan e.kind.word, plain (" " ++ e.name),
    styled .dimmed (if e.exported then " (exported)" else "")]

/-- A line with a heading and some names, unless there are none. -/
def namesLine? (depth : Nat) (style : Style) (heading : String) (names : List String) :
    List Line :=
  if names.isEmpty then []
  else [[indent depth, plain "  ", styled style heading, plain (" " ++ commaSeparated names)]]

def reexportLine (depth : Nat) (r : Reexport) : Line :=
  [indent depth, plain "  ", styled .blue "from",
    plain (" " ++ r.module ++ ": " ++ commaSeparated r.names)]

def unresolvedLine (depth : Nat) (module : String) : Line :=
  [indent depth, plain "  ", styled .boldYellow "warning:",
    plain (" cannot resolve module " ++ module)]

/-- The block of a file, `depth` followings away from the start. -/
def block (depth : Nat) (c : Closure) (unresolved : List String) : List Line :=
  [indent depth, styled .bold c.file, plain ":"] ::
    c.declarations.map (entryLine depth) ++
    namesLine? depth .yellow "external:" c.external ++
    c.reexports.map (reexportLine depth) ++
    namesLine? depth .red "missing:" c.missingRoots ++
    unresolved.map (unresolvedLine depth)

mutual
def blocks (depth : Nat) : ClosureTree → List Line
  | .node own unresolved followed =>
      block depth own unresolved ++ blocksOfAll (depth + 1) followed

def blocksOfAll (depth : Nat) : List ClosureTree → List Line
  | [] => []
  | t :: ts => blocks depth t ++ blocksOfAll depth ts
end

/-- How many declarations and files there are, or which roots are missing. -/
def summary (t : ClosureTree) : Line :=
  let missing := t.missingRoots
  if missing.isEmpty then
    let declarations := t.closures.foldl (fun n c => n + c.declarations.length) 0
    let files := t.closures.length
    [styled .green successMark, plain " ", styled .green ("Collected " ++ toString declarations ++
      " " ++ plural declarations "declaration" "declarations" ++ " from " ++ toString files ++ " " ++
      plural files "file" "files")]
  else
    [styled .red failureMark, plain " ", styled .red (plural missing.length "Type" "Types" ++
      " not found: " ++ commaSeparated missing)]

/-- What is written of a closure. -/
def closureLines (t : ClosureTree) : List Line := blocks 0 t ++ [summary t]

end TypeClosure.Report
