import TypeClosure.Listing
import TypeClosure.Report.Tree

/-! What is written of the mentions of files. -/

namespace TypeClosure.Report

open TypeClosure.Report.Span

def mentionsLine (d : ListedDeclaration) : Line :=
  [plain "  ", styled .dimmed (padded d.line), plain "  ", styled .cyan d.kind.word,
    plain (" " ++ d.name ++ ": " ++ commaSeparated d.mentions)]

def listingLines (l : Listing) : List Line :=
  [styled .bold l.file, plain ":"] :: l.declarations.map mentionsLine ++
    l.reexports.map (reexportLine 0)

def namesLines (ls : List Listing) : List Line := ls.flatMap listingLines

/-- A warning about files that could not be read, unless each has had one of its own. -/
def failureLines (failed : Nat) (verbose : Bool) : List Line :=
  if failed = 0 || verbose then []
  else [[styled .boldYellow "warning:",
    plain (" " ++ toString failed ++ " file(s) could not be parsed (use "), styled .cyan "-v",
    plain " for details)"]]

end TypeClosure.Report
