import TypeClosure.Outline

/-! Names that a file forwards from another module. -/

namespace TypeClosure

/-- A forwarded name: as this file exports it, and as the other module calls it. -/
structure Binding where
  exported : String
  origin : String
deriving Repr, DecidableEq, Inhabited

/-- The name that an entry of an export list forwards. Only identifiers are forwarded; an origin
that is a string with a surrogate alone counts as the exported name. -/
def ExportSpecifier.binding? : ExportSpecifier → Option Binding
  | .named name newName =>
      match newName.getD name with
      | .string _ => none
      | .identifier exported =>
          match name with
          | .identifier origin => some ⟨exported, origin⟩
          | .string value => some ⟨exported, value.getD exported⟩
  | .whole => none

/-- The names that an export list forwards, in its order. -/
def bindings (specifiers : List ExportSpecifier) : List Binding :=
  specifiers.filterMap ExportSpecifier.binding?

/-- The names that an export list forwards, as this file exports them. -/
def forwardedNames (specifiers : List ExportSpecifier) : List String :=
  (bindings specifiers).map Binding.exported

/-- Whether a module is named by its place beside the importing file. -/
def isRelative (module : String) : Bool := ".".toList.isPrefixOf module.toList

/-- The names that a statement forwards from a module. -/
structure Reexport where
  module : String
  bindings : List Binding
deriving Repr, DecidableEq, Inhabited

namespace Reexport

def names (r : Reexport) : List String := r.bindings.map Binding.exported

def origins (r : Reexport) : List String := r.bindings.map Binding.origin

/-- What the module calls a forwarded name. -/
def originOf (r : Reexport) (name : String) : String :=
  match r.bindings.find? (·.exported == name) with
  | some b => b.origin
  | none => name

/-- The same statement for some names only, in the order given. -/
def restrictTo (r : Reexport) (names : List String) : Reexport :=
  ⟨r.module, names.map fun name => ⟨name, r.originOf name⟩⟩

@[simp] theorem names_restrictTo (r : Reexport) (names : List String) :
    (r.restrictTo names).names = names := by
  simp [Reexport.names, restrictTo, Function.comp_def]

@[simp] theorem origins_restrictTo (r : Reexport) (names : List String) :
    (r.restrictTo names).origins = names.map r.originOf := by
  simp [Reexport.origins, restrictTo, Function.comp_def]

end Reexport

end TypeClosure
