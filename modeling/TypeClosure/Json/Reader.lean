import TypeClosure.Text.Hex

/-!
Reading JSON for a known shape. A fault tells whether the text is no JSON, has another shape, or
ends too early; the first one in the order of the text counts. A value that is not wanted is gone
past without being built, however deep it is.
-/

namespace TypeClosure.Json

open Text (hexValue?)

inductive Fault where
  | syntaxError
  | shape
  | endOfText
deriving Repr, DecidableEq, Inhabited

/-- Reads from the front of a text. -/
abbrev Reader := StateT (List Char) (Except Fault)

namespace Reader

/-! ### Characters -/

def isSpace (c : Char) : Bool := c == ' ' || c == '\n' || c == '\t' || c == '\r'

/-- The next character, which stays. -/
def peek? : Reader (Option Char) := return (← get).head?

/-- The next character behind blank space. -/
def peekBehindSpace? : Reader (Option Char) := do
  modify (·.dropWhile isSpace)
  peek?

def skip : Reader Unit := modify (·.drop 1)

/-- Takes the next character; none may be missing. -/
def next : Reader Char := do
  match ← get with
  | [] => throw .endOfText
  | c :: rest => set rest; return c

/-- The next character behind blank space, which stays; none may be missing. -/
def start : Reader Char := do
  match ← peekBehindSpace? with
  | some c => return c
  | none => throw .endOfText

/-- Takes a character that has to come behind blank space. -/
def expect (c : Char) : Reader Unit := do
  if (← start) == c then skip else throw .syntaxError

/-- Takes the rest of a word. -/
def word : List Char → Reader Unit
  | [] => return
  | c :: cs => do
      if (← next) == c then word cs else throw .syntaxError

/-! ### Strings -/

/-- Four hexadecimal digits. The text ends too early if fewer than four bytes are left. -/
def hexEscape : Reader Nat := do
  let text ← get
  let digits := text.take 4
  if (String.ofList digits).utf8ByteSize < 4 then throw .endOfText
  -- Fewer than four characters in four bytes are not all digits.
  match hexValue? digits with
  | some value =>
      set (text.drop 4)
      return value
  | none => throw .syntaxError

/-- The character of an escape that is a letter or mark by itself. -/
def plainEscape? (c : Char) : Option Char :=
  if c = '"' || c = '\\' || c = '/' then some c
  else if c = 'b' then some '\x08'
  else if c = 'f' then some '\x0c'
  else if c = 'n' then some '\n'
  else if c = 'r' then some '\r'
  else if c = 't' then some '\t'
  else none

/-- What follows `\u`; a surrogate needs its partner. -/
def unicodeEscape : Reader Char := do
  let high ← hexEscape
  if high < 0xd800 || 0xdfff < high then return Char.ofNat high
  if 0xdc00 ≤ high then throw .syntaxError
  if (← next) != '\\' then throw .syntaxError
  if (← next) != 'u' then throw .syntaxError
  let low ← hexEscape
  if low < 0xdc00 || 0xdfff < low then throw .syntaxError
  return Char.ofNat (0x10000 + (high - 0xd800) * 0x400 + (low - 0xdc00))

/-- What follows a backslash. -/
def escape : Reader Char := do
  let c ← next
  match plainEscape? c with
  | some d => return d
  | none => if c = 'u' then unicodeEscape else throw .syntaxError

/-- What follows a backslash where the value is not wanted: no surrogate needs its partner. -/
def skipEscape : Reader Unit := do
  let c ← next
  if (plainEscape? c).isNone then
    if c = 'u' then
      let _ ← hexEscape
    else throw .syntaxError

/-- Characters up to the closing quote, `n` at most. -/
def stringUpTo : Nat → Reader (List Char)
  | 0 => throw .endOfText
  | n + 1 => do
      let c ← next
      if c = '"' then return []
      else if c = '\\' then return (← escape) :: (← stringUpTo n)
      else if c.toNat < 0x20 then throw .syntaxError
      else return c :: (← stringUpTo n)

def skipStringUpTo : Nat → Reader Unit
  | 0 => throw .endOfText
  | n + 1 => do
      let c ← next
      if c = '"' then return
      else if c = '\\' then
        skipEscape
        skipStringUpTo n
      else if c.toNat < 0x20 then throw .syntaxError
      else skipStringUpTo n

/-- A string behind its opening quote. -/
def stringBody : Reader String := do
  return String.ofList (← stringUpTo ((← get).length + 1))

def skipStringBody : Reader Unit := do skipStringUpTo ((← get).length + 1)

/-! ### Numbers -/

def digits : Reader (List Char) := do
  let text ← get
  set (text.dropWhile Char.isDigit)
  return text.takeWhile Char.isDigit

/-- The value of digits as far as it stays below 2 ^ 64, starting from a value, and how many digits
were left. -/
def significand : Nat → List Char → Nat × Nat
  | value, [] => (value, 0)
  | value, d :: ds =>
      let next := value * 10 + (d.toNat - '0'.toNat)
      if next < 2 ^ 64 then significand next ds else (value, ds.length + 1)

/-- Digits behind a point, and the decimal exponent that they stand for. -/
def withFraction (value left : Nat) (fraction : List Char) : Nat × Int :=
  if left = 0 then
    let (all, unused) := significand value fraction
    (all, unused - fraction.length)
  else (value, left)

/-- Fails with `missing` at the end of the text, and else by syntax. -/
def unexpected (missing : Fault) : Reader α := do
  match ← peek? with
  | some _ => throw .syntaxError
  | none => throw missing

/-- A digit that has to come. -/
def someDigits (missing : Fault) : Reader (List Char) := do
  match ← digits with
  | [] => unexpected missing
  | ds => return ds

/-- The exponent of a number behind its letter. -/
def exponent (missing : Fault) : Reader Int := do
  let sign ← peek?
  if sign == some '+' || sign == some '-' then skip
  let value := (significand 0 (← someDigits missing)).1
  return if sign == some '-' then -value else value

/-- A number behind its sign, as a significand and a decimal exponent. -/
def number (missing : Fault) : Reader (Nat × Int) := do
  let whole ← someDigits missing
  if whole.head? == some '0' && whole.length != 1 then throw .syntaxError
  let (value, left) := significand 0 whole
  let fraction ←
    if (← peek?) == some '.' then do
      skip
      someDigits missing
    else pure []
  let (value, scale) := withFraction value left fraction
  let letter ← peek?
  if letter == some 'e' || letter == some 'E' then
    skip
    return (value, scale + (← exponent missing))
  else return (value, scale)

/-- Whether a number is nearer to 2 ^ 1024 than to any number of double precision. -/
def isTooLarge (value : Nat) (exponent : Int) : Bool :=
  value != 0 && 0 ≤ exponent &&
    (308 < exponent || Nat.pow 2 1024 - Nat.pow 2 970 ≤ value * Nat.pow 10 exponent.toNat)

/-! ### Values of another shape -/

/-- Fails at a value that has not the shape that is wanted. A value without parts is read first, and
what is wrong with it counts more. -/
def wrongShape : Reader α := do
  let c ← start
  if c == 'n' then
    word "null".toList
  else if c == 't' then
    word "true".toList
  else if c == 'f' then
    word "false".toList
  else if c == '"' then
    skip
    let _ ← stringBody
  else if c == '-' || c.isDigit then
    if c == '-' then skip
    let (value, exponent) ← number .endOfText
    if isTooLarge value exponent then throw .syntaxError
  else if c != '[' && c != '\x7b' then throw .syntaxError
  throw .shape

/-! ### Values that are not wanted -/

/-- What an open value is. -/
inductive Frame where
  | array
  | object
deriving DecidableEq

def Frame.close : Frame → Char
  | .array => ']'
  | .object => '\x7d'

/-- The name of a member with its colon, where one is to come. -/
def skipKey : Frame → Reader Unit
  | .array => return
  | .object => do
      expect '"'
      skipStringBody
      expect ':'

/-- Behind a value, closes what ends there; answers what is open where another value is to come. -/
def closeFrames : List Frame → Reader (List Frame)
  | [] => return []
  | frame :: outer => do
      let c ← start
      if c == ',' then
        skip
        skipKey frame
        return frame :: outer
      else if c == frame.close then
        skip
        closeFrames outer
      else throw .syntaxError

/-- Goes past a value inside others, and past what follows it up to the end of the outermost one,
in at most `n` steps. -/
def skipUpTo : Nat → List Frame → Reader Unit
  | 0, _ => throw .endOfText
  | n + 1, outer => do
      let c ← start
      let opened := if c == '[' then some Frame.array else if c == '\x7b' then some .object else none
      match opened with
      | some frame =>
          skip
          if (← start) == frame.close then
            skip
            finish n (← closeFrames outer)
          else
            skipKey frame
            skipUpTo n (frame :: outer)
      | none =>
          if c == 'n' then word "null".toList
          else if c == 't' then word "true".toList
          else if c == 'f' then word "false".toList
          else if c == '"' then
            skip
            skipStringBody
          else if c == '-' || c.isDigit then
            if c == '-' then skip
            let _ ← number .syntaxError
          else throw .syntaxError
          finish n (← closeFrames outer)
where
  finish (n : Nat) : List Frame → Reader Unit
    | [] => return
    | outer => skipUpTo n outer

/-- Goes past a value. -/
def skipValue : Reader Unit := do skipUpTo ((← get).length + 1) []

/-! ### Parts of arrays and objects -/

/-- Whether another element comes, in front of which a comma is taken unless it is the first. -/
def hasElement (first : Bool) : Reader Bool := do
  let c ← start
  if c == ']' then return false
  else if first then return true
  else if c == ',' then
    skip
    if (← start) == ']' then throw .syntaxError else return true
  else throw .syntaxError

/-- Whether another member comes, up to its name. -/
def hasMember (first : Bool) : Reader Bool := do
  let c ← start
  if c == '\x7d' then return false
  else if first then
    if c == '"' then return true else throw .syntaxError
  else if c == ',' then
    skip
    if (← start) == '"' then return true else throw .syntaxError
  else throw .syntaxError

def elementsUpTo (element : Reader α) : Nat → Bool → Reader (List α)
  | 0, _ => throw .endOfText
  | n + 1, first => do
      if ← hasElement first then return (← element) :: (← elementsUpTo element n false)
      else return []

/-! ### Values -/

def bool : Reader Bool := do
  let c ← start
  if c == 't' then
    word "true".toList
    return true
  else if c == 'f' then
    word "false".toList
    return false
  else wrongShape

def string : Reader String := do
  if (← start) == '"' then
    skip
    stringBody
  else wrongShape

/-- An array of values of one shape. -/
def array (element : Reader α) : Reader (List α) := do
  if (← start) == '[' then
    skip
    let list ← elementsUpTo element ((← get).length + 1) true
    expect ']'
    return list
  else wrongShape

/-- Reads a whole text. -/
def whole (value : Reader α) (text : String) : Except Fault α := do
  let (a, rest) ← value.run text.toList
  if (rest.dropWhile isSpace).isEmpty then return a else throw .syntaxError

end Reader

end TypeClosure.Json
