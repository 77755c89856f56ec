import TypeClosure.Grammar.Function

/-! JSX elements. Their text is read from the end of the tag or container in front of it. -/

namespace TypeClosure.Grammar

open Syntax

variable (rules : Rules)

def tagWord : Parse String := do
  let t ← token
  require t.isAnyWord
  let last := jsxNameEnd t.first
  resume last
  return t.first.textTo last

/-- The name of an element: a word, a word with a namespace, or words with dots between them. -/
def tagName : Parse (List String) := do
  let first ← tagWord
  if ← eat .colon then return [first, ":", ← tagWord]
  let others ← repeated do
    if ← eat .dot then return some (← tagWord) else return none
  return first :: others

/-- An attribute that spreads the properties of a value. -/
def spreadAttribute : Parse (List LocalCode) := do
  expect .lbrace
  expect .ellipsis
  let e ← nested rules.assignment
  expect .rbrace
  return e.code

/-- An expression in braces, which may be left out. -/
def container : Parse (List LocalCode) := do
  expect .lbrace
  if ← eat .rbrace then return []
  let _ ← eat .ellipsis
  let e ← nested (expression rules)
  expect .rbrace
  return e.code

def attributeValue : Parse (List LocalCode) := do
  let first ← here
  if first.next? == some '"' || first.next? == some '\'' then
    match jsxStringEnd? first with
    | some last => resume last; return []
    | none => failure
  else if ← isAt .lbrace then container rules
  else rules.element

def attributes : Parse (List LocalCode) := do
  let list ← repeated do
    if ← isAt .lbrace then return some (← spreadAttribute rules)
    else if ← isAtAnyWord then
      let _ ← tagWord
      if ← eat .colon then
        let _ ← tagWord
      if ← eat .equals then return some (← attributeValue rules) else return some []
    else return none
  return list.flatten

/-- Text, containers and elements up to a closing tag, whose slash comes next. -/
def children : Parse (List LocalCode) := do
  let list ← repeated do
    resume (jsxTextEnd (← get).taken)
    if ← isAt .lbrace then return some (← container rules)
    else if (← tokenAfter).first.next? == some '/' then return none
    else return some (← rules.element)
  expect .langle
  return list.flatten

/-- An element or a fragment. -/
def element : Parse (List LocalCode) := do
  expect .langle
  if ← eat .rangle then
    let inside ← children rules
    expect .slash
    expect .rangle
    return inside
  let opening ← tagName
  let arguments ← if ← isAt .langle then typeArguments rules else pure []
  let given ← attributes rules
  if ← eat .slash then
    expect .rangle
    return given ++ arguments
  expect .rangle
  let inside ← children rules
  expect .slash
  let closing ← tagName
  require (opening == closing)
  expect .rangle
  return given ++ arguments ++ inside

end TypeClosure.Grammar
