import TypeClosure.Syntax.Token
import TypeClosure.Text.Blank
import TypeClosure.Text.Hex
import TypeClosure.Text.Identifier

/-!
Reading a token at a place. A text that is no token is read as `invalid`, which no rule of the
grammar takes. Regular expressions, template text and JSX are read where the grammar expects
them, by the functions at the end.
-/

namespace TypeClosure.Syntax

open Text

export Text (hexDigit?)

/-- What stands between two tokens. -/
inductive Trivia where
  | space
  | lineComment
  | blockComment
deriving DecidableEq

/-- Goes past blank space and comments, an unclosed comment being the rest of the text; tells
whether a line ended on the way. `<!--`, and `-->` on a new line, begin a comment. -/
def skipTrivia : Trivia → Bool → Nat → List Char → Bool × Cursor
  | _, newline, offset, [] => (newline, ⟨offset, []⟩)
  | .space, newline, offset, '/' :: '/' :: rest => skipTrivia .lineComment newline (offset + 2) rest
  | .space, newline, offset, '/' :: '*' :: rest => skipTrivia .blockComment newline (offset + 2) rest
  | .space, newline, offset, '<' :: '!' :: '-' :: '-' :: rest =>
      skipTrivia .lineComment newline (offset + 4) rest
  | .space, true, offset, '-' :: '-' :: '>' :: rest => skipTrivia .lineComment true (offset + 3) rest
  | .space, newline, offset, c :: rest =>
      if isLineEnd c then skipTrivia .space true (offset + 1) rest
      else if isBlank c then skipTrivia .space newline (offset + 1) rest
      else (newline, ⟨offset, c :: rest⟩)
  | .lineComment, newline, offset, c :: rest =>
      if isLineEnd c then skipTrivia .space true (offset + 1) rest
      else skipTrivia .lineComment newline (offset + 1) rest
  | .blockComment, newline, offset, '*' :: '/' :: rest =>
      skipTrivia .space newline (offset + 2) rest
  | .blockComment, newline, offset, c :: rest =>
      skipTrivia .blockComment (newline || isLineEnd c) (offset + 1) rest

/-- Exactly `n` hexadecimal digits. -/
def fixedHex? (n : Nat) (c : Cursor) : Option (Nat × Cursor) :=
  let digits := c.rest.take n
  if digits.length == n then (hexValue? digits).map (·, c.drop n) else none

/-- What follows `\u`: four hexadecimal digits, or any number of them in braces. -/
def unicodeEscape? (c : Cursor) : Option (Nat × Cursor) :=
  match c.rest with
  | '\x7b' :: rest =>
      let digits := rest.takeWhile (fun d => (hexDigit? d).isSome)
      let after := c.drop (digits.length + 1)
      match hexValue? digits, after.next? with
      | some value, some '\x7d' =>
          if digits.isEmpty || 0x10ffff < value then none else some (value, after.drop 1)
      | _, _ => none
  | _ => fixedHex? 4 c

/-- The characters of a word that holds escapes, behind those already read. -/
def escapedWord? : Nat → List Char → Cursor → Option (List Char × Cursor)
  | 0, _, _ => none
  | n + 1, read, c =>
      match c.rest with
      | '\\' :: 'u' :: _ =>
          match unicodeEscape? (c.drop 2) with
          | some (value, after) =>
              let d := Char.ofNat value
              if isIdentifierPart d then escapedWord? n (read ++ [d]) after else none
          | none => none
      | '\\' :: _ => none
      | d :: _ =>
          if isIdentifierPart d then escapedWord? n (read ++ [d]) (c.drop 1) else some (read, c)
      | [] => some (read, c)

/-- A word. Reserved words may not hold escapes behind their first character. -/
def scanWord (c : Cursor) : Lexeme × Cursor :=
  let plain := c.takeWhile isIdentifierPart
  let after := c.drop plain.length
  if after.next? == some '\\' then
    match escapedWord? (after.rest.length + 1) plain after with
    | some (read, last) =>
        let w := String.ofList read
        if !(read.head?.map isIdentifierStart).getD false then (.invalid, last)
        else if plain.isEmpty then (.word w true, last)
        else if keywords.contains w || moduleReservedWords.contains w then (.invalid, last)
        else (.word w false, last)
    | none => (.invalid, after)
  else (.word (String.ofList plain) false, after)

/-- A numeral must not run into a name. -/
def endNumeral (lexeme : Lexeme) (c : Cursor) : Lexeme × Cursor :=
  match c.next? with
  | some d => if isIdentifierStart d || d == '\\' then (.invalid, c) else (lexeme, c)
  | none => (lexeme, c)

def isDecimal (c : Char) : Bool := c.isDigit || c == '_'

/-- The exponent of a numeral, if there is one. -/
def scanExponent (c : Cursor) : Lexeme × Cursor :=
  match c.rest with
  | e :: rest =>
      if e == 'e' || e == 'E' then
        let sign := match rest with
          | '+' :: _ | '-' :: _ => 2
          | _ => 1
        let digits := c.drop sign
        if (digits.takeWhile isDecimal).isEmpty then (.invalid, c)
        else endNumeral .number (digits.dropWhile isDecimal)
      else endNumeral .number c
  | [] => (.number, c)

/-- A numeral with a letter for its base behind the first zero. -/
def scanBased (isDigit : Char → Bool) (c : Cursor) : Lexeme × Cursor :=
  let digits := c.drop 2
  let after := digits.dropWhile (fun d => isDigit d || d == '_')
  if (digits.takeWhile isDigit).isEmpty then (.invalid, c)
  else match after.next? with
    | some 'n' => endNumeral .bigint (after.drop 1)
    | _ => endNumeral .number after

def isOctal (c : Char) : Bool := '0' ≤ c && c ≤ '7'

/-- A numeral. Octal digits behind a zero make one that has no fraction. -/
def scanNumber (c : Cursor) : Lexeme × Cursor :=
  let letter := (c.rest.drop 1).head?
  if c.next? == some '0' && (letter == some 'x' || letter == some 'X') then
    scanBased (fun d => (hexDigit? d).isSome) c
  else if c.next? == some '0' && (letter == some 'o' || letter == some 'O') then
    scanBased isOctal c
  else if c.next? == some '0' && (letter == some 'b' || letter == some 'B') then
    scanBased (fun d => d == '0' || d == '1') c
  else
    let digits := c.takeWhile isDecimal
    let whole := c.drop digits.length
    if c.next? == some '0' && 1 < digits.length && digits.all isOctal then
      endNumeral .number whole
    else match whole.next? with
      | some 'n' => endNumeral .bigint (whole.drop 1)
      | some '.' => scanExponent ((whole.drop 1).dropWhile isDecimal)
      | _ => scanExponent whole

/-- Joins surrogates to characters; fails on one without its partner. -/
def joinSurrogates : List Nat → Option (List Char)
  | [] => some []
  | high :: low :: rest =>
      if 0xd800 ≤ high ∧ high < 0xdc00 ∧ 0xdc00 ≤ low ∧ low < 0xe000 then
        (joinSurrogates rest).map
          (Char.ofNat (0x10000 + (high - 0xd800) * 0x400 + (low - 0xdc00)) :: ·)
      else if 0xd800 ≤ high ∧ high < 0xe000 then none
      else (joinSurrogates (low :: rest)).map (Char.ofNat high :: ·)
  | [unit] => if 0xd800 ≤ unit ∧ unit < 0xe000 then none else some [Char.ofNat unit]

/-- An octal escape has at most three digits and a value below 256. -/
def octalEscape (c : Cursor) : Nat × Cursor :=
  let width := if (c.next?.map (fun d => decide (d ≤ '3'))).getD false then 3 else 2
  let digits := (c.rest.take width).takeWhile isOctal
  (digits.foldl (fun value d => value * 8 + (d.toNat - '0'.toNat)) 0, c.drop digits.length)

/-- The value of the escape behind a backslash; a line end gives none. -/
def stringEscape? (c : Cursor) : Option (List Nat × Cursor) :=
  match c.rest with
  | [] => none
  | '\r' :: '\n' :: _ => some ([], c.drop 2)
  | 'n' :: _ => some ([10], c.drop 1)
  | 't' :: _ => some ([9], c.drop 1)
  | 'r' :: _ => some ([13], c.drop 1)
  | 'b' :: _ => some ([8], c.drop 1)
  | 'v' :: _ => some ([11], c.drop 1)
  | 'f' :: _ => some ([12], c.drop 1)
  | 'x' :: _ => (fixedHex? 2 (c.drop 1)).map (fun (value, after) => ([value], after))
  | 'u' :: _ => (unicodeEscape? (c.drop 1)).map (fun (value, after) => ([value], after))
  | d :: _ =>
      if isLineEnd d then some ([], c.drop 1)
      else if isOctal d then
        let (value, after) := octalEscape c
        some ([value], after)
      else some ([d.toNat], c.drop 1)

/-- The rest of a string literal. The end of the text closes it; a line end spoils it. -/
def stringRest? : Nat → Char → List Nat → Cursor → Option (List Nat × Cursor)
  | 0, _, _, _ => none
  | n + 1, quote, read, c =>
      match c.rest with
      | [] => some (read, c)
      | '\\' :: _ =>
          match stringEscape? (c.drop 1) with
          | some (value, after) => stringRest? n quote (value.reverse ++ read) after
          | none => none
      | d :: _ =>
          if d == quote then some (read, c.drop 1)
          else if d == '\n' || d == '\r' then none
          else stringRest? n quote (d.toNat :: read) (c.drop 1)

def scanString (quote : Char) (c : Cursor) : Lexeme × Cursor :=
  match stringRest? (c.rest.length + 1) quote [] (c.drop 1) with
  | some (units, last) => (.string ((joinSurrogates units.reverse).map String.ofList), last)
  | none => (.invalid, c)

/-- Punctuation, each before those it begins with. -/
def marks : List (List Char × Mark) :=
  [("...", .ellipsis), ("=>", .arrow), ("===", .operator 6), ("==", .operator 6), ("=", .equals),
   ("!==", .operator 6), ("!=", .operator 6), ("!", .bang),
   ("\x7b", .lbrace), ("\x7d", .rbrace), ("(", .lparen), (")", .rparen), ("[", .lbracket),
   ("]", .rbracket), (".", .dot), (";", .semicolon), (",", .comma), (":", .colon),
   ("??=", .assignOp), ("??", .operator 1), ("?.", .questionDot), ("?", .question),
   ("<", .langle), (">", .rangle),
   ("++", .increment), ("+=", .assignOp), ("+", .plus),
   ("--", .decrement), ("-=", .assignOp), ("-", .minus),
   ("**=", .assignOp), ("**", .power), ("*=", .assignOp), ("*", .star),
   ("/=", .assignOp), ("/", .slash), ("%=", .assignOp), ("%", .operator 10),
   ("&&=", .assignOp), ("&&", .operator 2), ("&=", .assignOp), ("&", .ampersand),
   ("||=", .assignOp), ("||", .operator 1), ("|=", .assignOp), ("|", .bar),
   ("^=", .assignOp), ("^", .caret), ("~", .tilde), ("`", .backquote), ("#", .hash)].map
    (fun (text, mark) => (text.toList, mark))

/-- Operators that begin with an angle bracket, each before those it begins with. -/
def angleOperators : List (List Char × Mark) :=
  [("<<=", .assignOp), ("<<", .operator 8), ("<=", .operator 7), ("<", .operator 7),
   (">>>=", .assignOp), (">>>", .operator 8), (">>=", .assignOp), (">>", .operator 8),
   (">=", .operator 7), (">", .operator 7)].map
    (fun (text, mark) => (text.toList, mark))

def scanMark (table : List (List Char × Mark)) (c : Cursor) : Lexeme × Cursor :=
  match table.find? (fun (text, _) => text.isPrefixOf c.rest) with
  | some (text, mark) => (.mark mark, c.drop text.length)
  | none => (.invalid, c)

def scanLexeme (c : Cursor) : Lexeme × Cursor :=
  match c.rest with
  | [] => (.endOfText, c)
  | d :: rest =>
      let digitNext := (rest.head?.map Char.isDigit).getD false
      if isIdentifierStart d || d == '\\' then scanWord c
      else if d.isDigit || (d == '.' && digitNext) then scanNumber c
      else if d == '"' || d == '\'' then scanString d c
      else if d == '?' && ((rest.drop 1).head?.map Char.isDigit).getD false
          && rest.head? == some '.' then (.mark .question, c.drop 1)
      else scanMark marks c

/-- The next token from a place on. -/
def Token.scan (c : Cursor) : Token :=
  let (onNewLine, first) := skipTrivia .space false c.offset c.rest
  let (lexeme, last) := scanLexeme first
  ⟨lexeme, first, last, onNewLine⟩

/-- The token as an operand's neighbour sees it: an angle bracket is put together with what
follows it to the longest operator. -/
def Token.asOperator (t : Token) : Token :=
  if t.isMark .langle || t.isMark .rangle then
    let (lexeme, last) := scanMark angleOperators t.first
    { t with lexeme, last }
  else t

/-- The first token of a file; a first line that begins with `#!` is no part of it. -/
def Token.firstOf (text : List Char) : Token :=
  match text with
  | '#' :: '!' :: _ => Token.scan ((Cursor.ofText text).dropWhile (!isLineEnd ·))
  | _ => Token.scan (Cursor.ofText text)

/-- How a piece of template text ends. -/
inductive TemplateEnd where
  | close
  | substitution
deriving DecidableEq

/-- Whether what follows a backslash in a template has a value. Octal escapes have none there. -/
def isTemplateEscape (rest : List Char) : Bool :=
  match rest with
  | '0' :: d :: _ => !isOctal d
  | d :: _ =>
      if '1' ≤ d && d ≤ '7' then false else (stringEscape? (Cursor.ofText rest)).isSome
  | [] => false

/-- The template text from a place on, to its closing quote or to the next substitution; tells
whether all escapes in it have a value. -/
def templateText? : Bool → Nat → List Char → Option (Bool × TemplateEnd × Cursor)
  | _, _, [] => none
  | valid, offset, '`' :: rest => some (valid, .close, ⟨offset + 1, rest⟩)
  | valid, offset, '$' :: '\x7b' :: rest => some (valid, .substitution, ⟨offset + 2, rest⟩)
  | valid, offset, '\\' :: c :: rest =>
      templateText? (valid && isTemplateEscape (c :: rest)) (offset + 2) rest
  | valid, offset, _ :: rest => templateText? valid (offset + 1) rest

/-- The place behind the closing slash of a regular expression. -/
def regexBody? : Bool → Nat → List Char → Option Cursor
  | _, _, [] => none
  | inClass, offset, '\\' :: c :: rest =>
      if isLineEnd c then none else regexBody? inClass (offset + 2) rest
  | inClass, offset, c :: rest =>
      if isLineEnd c then none
      else if c == '[' then regexBody? true (offset + 1) rest
      else if c == ']' then regexBody? false (offset + 1) rest
      else if c == '/' && !inClass then some ⟨offset + 1, rest⟩
      else regexBody? inClass (offset + 1) rest

/-- The place behind a regular expression that starts at a slash. -/
def regexEnd? (c : Cursor) : Option Cursor :=
  (regexBody? false (c.offset + 1) (c.rest.drop 1)).map (·.dropWhile isIdentifierPart)

/-- The place behind a JSX name that starts here; it may hold hyphens. -/
def jsxNameEnd (c : Cursor) : Cursor :=
  c.dropWhile (fun d => isIdentifierPart d || d == '-')

/-- The place behind a quoted JSX attribute value, which knows no escapes. -/
def jsxStringEnd? (c : Cursor) : Option Cursor :=
  match c.rest with
  | quote :: rest =>
      let body := rest.takeWhile (· != quote)
      let last := c.drop (body.length + 1)
      if last.rest.isEmpty then none else some (last.drop 1)
  | [] => none

/-- The place where JSX text ends. -/
def jsxTextEnd (c : Cursor) : Cursor :=
  c.dropWhile (fun d => d != '<' && d != '\x7b')

end TypeClosure.Syntax
