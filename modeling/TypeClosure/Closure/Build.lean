import TypeClosure.Closure.Basic
import TypeClosure.Closure.Worklist

/-! The closure of a file: what its worklist comes to. -/

namespace TypeClosure

/-- The first of each group of equal names. -/
def distinct (names : List String) : List String := names.foldl addName []

theorem mem_foldl_addName {names added : List String} {name : String} :
    name ∈ added.foldl addName names ↔ name ∈ names ∨ name ∈ added := by
  induction added generalizing names with
  | nil => simp
  | cons first rest ih =>
      rw [List.foldl_cons, ih, mem_addName, List.mem_cons]
      exact or_assoc

theorem mem_distinct {names : List String} {name : String} :
    name ∈ distinct names ↔ name ∈ names := by
  simp [distinct, mem_foldl_addName]

namespace Contents

/-- What a closure says of a declaration. -/
def entry (markers : Markers) (e : TableEntry) : ClosureEntry :=
  ⟨e.name, e.kind, e.line, markers.isExported e.name⟩

/-- The statements that forward needed names, each with these names only. -/
def neededReexports (c : Contents) (forwarded : List (List String)) : List Reexport :=
  ((c.reexports.zip forwarded).filter (!·.2.isEmpty)).map fun (r, names) => r.restrictTo names

/-- The roots that stand for a request: without any, all exported declarations. -/
def rootsFor (c : Contents) (requested : List String) : List String :=
  if requested.isEmpty then c.exportedNames else distinct requested

end Contents

/-- The worklist of a file when every name that roots lead to has been looked up. -/
def Contents.worklist (c : Contents) (externals : List Glob.Pattern) (roots : List String) :
    Worklist :=
  (Worklist.start c roots).run c externals roots

/-- The closure of some roots in a file. -/
def Source.closure (s : Source) (externals : List Glob.Pattern) (requested : List String) :
    Closure :=
  let c := s.contents
  let roots := c.rootsFor requested
  let w := c.worklist externals roots
  { file := s.path
    roots
    declarations := (w.included.filterMap c.table.get?).map (Contents.entry w.markers)
    external := w.external
    reexports := c.neededReexports w.forwarded
    missingRoots := w.missing }

end TypeClosure
