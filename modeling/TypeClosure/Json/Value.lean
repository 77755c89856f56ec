/-! JSON values and their text, with each part on a line of its own. -/

namespace TypeClosure.Json

inductive Value where
  | bool (value : Bool)
  | number (value : Nat)
  | string (value : String)
  | array (elements : List Value)
  | object (members : List (String × Value))

namespace Value

def strings (texts : List String) : Value := .array (texts.map .string)

/-- A character as it stands in a string. -/
def escaped (c : Char) : List Char :=
  if c = '"' then ['\\', '"']
  else if c = '\\' then ['\\', '\\']
  else if c = '\x08' then ['\\', 'b']
  else if c = '\x0c' then ['\\', 'f']
  else if c = '\n' then ['\\', 'n']
  else if c = '\r' then ['\\', 'r']
  else if c = '\t' then ['\\', 't']
  else if c.toNat < 0x20 then
    ['\\', 'u', '0', '0', Nat.digitChar (c.toNat / 16), Nat.digitChar (c.toNat % 16)]
  else [c]

def quoted (text : String) : String :=
  "\"" ++ String.ofList (text.toList.flatMap escaped) ++ "\""

/-- The start of a line, `depth` values deep. -/
def newLine (depth : Nat) : String := "\n" ++ String.ofList (List.replicate (2 * depth) ' ')

mutual
/-- The text of a value that stands `depth` values deep. -/
def pretty (depth : Nat) : Value → String
  | .bool true => "true"
  | .bool false => "false"
  | .number value => toString value
  | .string value => quoted value
  | .array [] => "[]"
  | .array (v :: vs) =>
      "[" ++ prettyElements (depth + 1) (v :: vs) ++ newLine depth ++ "]"
  | .object [] => "\x7b\x7d"
  | .object (m :: ms) =>
      "\x7b" ++ prettyMembers (depth + 1) (m :: ms) ++ newLine depth ++ "\x7d"

def prettyElements (depth : Nat) : List Value → String
  | [] => ""
  | [v] => newLine depth ++ v.pretty depth
  | v :: vs => newLine depth ++ v.pretty depth ++ "," ++ prettyElements depth vs

def prettyMembers (depth : Nat) : List (String × Value) → String
  | [] => ""
  | [(name, v)] => newLine depth ++ quoted name ++ ": " ++ v.pretty depth
  | (name, v) :: ms =>
      newLine depth ++ quoted name ++ ": " ++ v.pretty depth ++ "," ++ prettyMembers depth ms
end

/-- The text of a value. -/
def text (v : Value) : String := v.pretty 0

end Value

end TypeClosure.Json
