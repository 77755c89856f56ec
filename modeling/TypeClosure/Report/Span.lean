/-!
Lines of text with styles. Without colours a line is the text of its spans; with colours a span
with a style stands between two escape sequences.
-/

namespace TypeClosure.Report

inductive Style where
  | bold
  | dimmed
  | red
  | green
  | yellow
  | blue
  | cyan
  | boldYellow
deriving Repr, DecidableEq, Inhabited

/-- The numbers that select a style. -/
def Style.codes : Style → String
  | .bold => "1"
  | .dimmed => "2"
  | .red => "31"
  | .green => "32"
  | .yellow => "33"
  | .blue => "34"
  | .cyan => "36"
  | .boldYellow => "1;33"

/-- The escape sequence with some numbers. -/
def escapeSequence (codes : String) : List Char := '\x1b' :: '[' :: codes.toList ++ ['m']

/-- The sequence that ends all styles. -/
def resetSequence : List Char := escapeSequence "0"

/-- A text with a style taken up again where the text itself ends all styles. -/
def restyled (style : List Char) : List Char → List Char
  | '\x1b' :: '[' :: '0' :: 'm' :: rest => resetSequence ++ style ++ restyled style rest
  | c :: rest => c :: restyled style rest
  | [] => []

/-- A piece of a line. -/
structure Span where
  style : Option Style := none
  text : String
deriving Repr, DecidableEq, Inhabited

namespace Span

def plain (text : String) : Span := { text }

def styled (style : Style) (text : String) : Span := { style := some style, text }

def render (colours : Bool) (s : Span) : List Char :=
  match s.style with
  | some style =>
      if colours then
        let start := escapeSequence style.codes
        start ++ restyled start s.text.toList ++ resetSequence
      else s.text.toList
  | none => s.text.toList

end Span

abbrev Line := List Span

/-- The text of a line with the line feed behind it. -/
def Line.render (colours : Bool) (line : Line) : List Char :=
  line.flatMap (·.render colours) ++ ['\n']

/-- The text of lines. -/
def render (colours : Bool) (lines : List Line) : String :=
  String.ofList (lines.flatMap (Line.render colours))

/-- A number with blanks in front, at least four characters long. -/
def padded (n : Nat) : String :=
  let digits := (toString n).toList
  String.ofList (List.replicate (4 - digits.length) ' ' ++ digits)

def commaSeparated (names : List String) : String := String.intercalate ", " names

/-- The word for `count` things. -/
def plural (count : Nat) (one many : String) : String := if count = 1 then one else many

def successMark : String := "\u2713"

def failureMark : String := "\u2718"

end TypeClosure.Report
