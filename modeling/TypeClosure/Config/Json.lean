import TypeClosure.Config.Basic
import TypeClosure.Json.Value

/-!
Configurations as JSON. An object may leave members out and hold others; a member that is known
must not come twice. An array gives the members in their order, and may end early.
-/

namespace TypeClosure

open Json

/-- The members of a configuration as far as they have been read. -/
structure ConfigMembers where
  roots : Option (List String) := none
  externals : Option (List String) := none
  followReexports : Option Bool := none
  moduleExtensions : Option (List String) := none
deriving Repr, DecidableEq

namespace ConfigMembers

open Reader

/-- The configuration, with defaults for what is missing. -/
def config (m : ConfigMembers) : Config :=
  let default : Config := {}
  { roots := m.roots.getD default.roots
    externals := m.externals.getD default.externals
    followReexports := m.followReexports.getD default.followReexports
    moduleExtensions := m.moduleExtensions.getD default.moduleExtensions }

/-- The value of a member that must not have been there before. -/
def once (old : Option α) (value : Reader α) : Reader (Option α) := do
  if old.isSome then throw .shape
  expect ':'
  return some (← value)

/-- Takes in the member with a name, which has been read. -/
def take (m : ConfigMembers) (name : String) : Reader ConfigMembers := do
  match name with
  | "roots" => return { m with roots := ← once m.roots (array string) }
  | "externals" => return { m with externals := ← once m.externals (array string) }
  | "followReexports" => return { m with followReexports := ← once m.followReexports bool }
  | "moduleExtensions" =>
      return { m with moduleExtensions := ← once m.moduleExtensions (array string) }
  | _ =>
      expect ':'
      skipValue
      return m

/-- Members up to the end of an object, `n` at most. -/
def readUpTo : Nat → Bool → ConfigMembers → Reader ConfigMembers
  | 0, _, _ => throw .endOfText
  | n + 1, first, m => do
      if ← hasMember first then
        skip
        let name ← stringBody
        readUpTo n false (← m.take name)
      else return m

/-- An element of an array, unless the array has ended. -/
private def element? (goesOn first : Bool) (value : Reader α) : Reader (Option α) := do
  if goesOn && (← hasElement first) then return some (← value) else return none

/-- The elements of an array in the order of the members. -/
def elements : Reader ConfigMembers := do
  let roots ← element? true true (array string)
  let externals ← element? roots.isSome false (array string)
  let followReexports ← element? externals.isSome false bool
  let moduleExtensions ← element? followReexports.isSome false (array string)
  return ⟨roots, externals, followReexports, moduleExtensions⟩

/-- An object or an array of members. -/
def read : Reader ConfigMembers := do
  let c ← start
  if c == '\x7b' then
    skip
    let m ← readUpTo ((← get).length + 1) true {}
    expect '\x7d'
    return m
  else if c == '[' then
    skip
    let m ← elements
    expect ']'
    return m
  else wrongShape

end ConfigMembers

namespace Config

/-- Reads a configuration. -/
def ofJson (text : String) : Except Json.Fault Config :=
  (Reader.whole ConfigMembers.read text).map ConfigMembers.config

def toJson (c : Config) : Json.Value :=
  .object [("roots", .strings c.roots), ("externals", .strings c.externals),
    ("followReexports", .bool c.followReexports),
    ("moduleExtensions", .strings c.moduleExtensions)]

/-- The text of the configuration that is used when there is none. -/
def defaultText : String := (toJson {}).text

end Config

end TypeClosure
