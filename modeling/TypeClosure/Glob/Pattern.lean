/-!
Glob patterns. `?` stands for a character, `*` for any text, brackets for one of some characters,
and a component `**` for any number of components. Nothing is escaped, and no character of a text
is special.
-/

namespace TypeClosure.Glob

inductive Token where
  | literal (c : Char)
  | anyChar
  | anyText
  /-- A component `**` with the slash behind it. -/
  | anyPath
  /-- A character that lies in one of the ranges. -/
  | within (ranges : List (Char × Char))
  | except (ranges : List (Char × Char))
deriving Repr, DecidableEq

inductive FaultKind where
  | wildcards
  | recursiveWildcards
  | range
deriving Repr, DecidableEq

/-- Why a text is no pattern, and at which character. -/
structure Fault where
  position : Nat
  kind : FaultKind
deriving Repr, DecidableEq

def FaultKind.message : FaultKind → String
  | .wildcards => "wildcards are either regular `*` or recursive `**`"
  | .recursiveWildcards => "recursive wildcards must form a single path component"
  | .range => "invalid range pattern"

def Fault.message (f : Fault) : String :=
  "Pattern syntax error near position " ++ toString f.position ++ ": " ++ f.kind.message

structure Pattern where
  text : String
  tokens : List Token
deriving Repr, DecidableEq

/-! ### Reading -/

/-- The ranges between brackets; a hyphen between two characters makes a range of them. -/
def ranges : List Char → List (Char × Char)
  | first :: '-' :: last :: rest => (first, last) :: ranges rest
  | c :: rest => (c, c) :: ranges rest
  | [] => []

/-- What stands in front of the first `c`, and what behind it. -/
def splitAt? (c : Char) : List Char → Option (List Char × List Char)
  | [] => none
  | d :: rest => if d = c then some ([], rest) else (splitAt? c rest).map fun (b, a) => (d :: b, a)

theorem length_of_splitAt? {c : Char} {cs before after : List Char}
    (h : splitAt? c cs = some (before, after)) : cs.length = before.length + after.length + 1 := by
  induction cs generalizing before with
  | nil => simp [splitAt?] at h
  | cons d rest ih =>
      unfold splitAt? at h
      split at h
      · simp_all
      · obtain ⟨⟨b, a⟩, hsplit, heq⟩ := Option.map_eq_some_iff.1 h
        simp only [Prod.mk.injEq] at heq
        obtain ⟨rfl, rfl⟩ := heq
        simp only [List.length_cons, ih hsplit]
        omega

/-- What stands between brackets, of which the first character is never the closing one, and what
follows. -/
def bracketed? : List Char → Option (List Char × List Char)
  | [] => none
  | first :: rest => (splitAt? ']' rest).map fun (body, after) => (first :: body, after)

theorem length_of_bracketed? {cs body after : List Char} (h : bracketed? cs = some (body, after)) :
    after.length < cs.length := by
  cases cs with
  | nil => simp [bracketed?] at h
  | cons first rest =>
      obtain ⟨⟨b, a⟩, hsplit, heq⟩ := Option.map_eq_some_iff.1 h
      simp only [Prod.mk.injEq] at heq
      obtain ⟨rfl, rfl⟩ := heq
      have := length_of_splitAt? hsplit
      simp only [List.length_cons]
      omega

/-- The tokens of a text that stands at `position` behind the character `previous`. -/
def tokens (previous : Option Char) (position : Nat) (chars : List Char) :
    Except Fault (List Token) :=
  match chars with
  | [] => .ok []
  | '?' :: rest => (Token.anyChar :: ·) <$> tokens (some '?') (position + 1) rest
  | '*' :: '*' :: '*' :: _ => .error ⟨position + 2, .wildcards⟩
  | '*' :: '*' :: rest =>
      if previous = none ∨ previous = some '/' then
        match rest with
        | [] => .ok [.anyPath]
        | '/' :: after => (Token.anyPath :: ·) <$> tokens (some '/') (position + 3) after
        | _ :: _ => .error ⟨position + 2, .recursiveWildcards⟩
      else .error ⟨position - 1, .recursiveWildcards⟩
  | '*' :: rest => (Token.anyText :: ·) <$> tokens (some '*') (position + 1) rest
  | '[' :: '!' :: rest =>
      match h : bracketed? rest with
      | some (body, after) =>
          (Token.except (ranges body) :: ·) <$> tokens (some ']') (position + body.length + 3) after
      | none => .error ⟨position, .range⟩
  | '[' :: rest =>
      match h : bracketed? rest with
      | some (body, after) =>
          (Token.within (ranges body) :: ·) <$> tokens (some ']') (position + body.length + 2) after
      | none => .error ⟨position, .range⟩
  | c :: rest => (Token.literal c :: ·) <$> tokens (some c) (position + 1) rest
termination_by chars.length
decreasing_by
  all_goals simp only [List.length_cons]
  all_goals try have hshorter := length_of_bracketed? h
  all_goals omega

/-- Reads a pattern. -/
def Pattern.read (text : String) : Except Fault Pattern :=
  (Pattern.mk text ·) <$> Glob.tokens none 0 text.toList

/-! ### Matching -/

def inRanges (ranges : List (Char × Char)) (c : Char) : Bool :=
  ranges.any fun (first, last) => first ≤ c && c ≤ last

/-- The texts that are left behind a text of any length. -/
def suffixes : List Char → List (List Char)
  | [] => [[]]
  | c :: cs => (c :: cs) :: suffixes cs

/-- The texts that are left behind each slash, and at the end. -/
def behindSlashes : List Char → List (List Char)
  | [] => [[]]
  | c :: cs => if c = '/' then cs :: behindSlashes cs else behindSlashes cs

/-- Whether tokens match a whole text. -/
def matchesChars : List Token → List Char → Bool
  | [], cs => cs.isEmpty
  | .anyText :: ts, cs => (suffixes cs).any (matchesChars ts)
  | .anyPath :: ts, cs => (cs :: behindSlashes cs).any (matchesChars ts)
  | _ :: _, [] => false
  | .literal d :: ts, c :: cs => c == d && matchesChars ts cs
  | .anyChar :: ts, _ :: cs => matchesChars ts cs
  | .within ranges :: ts, c :: cs => inRanges ranges c && matchesChars ts cs
  | .except ranges :: ts, c :: cs => !inRanges ranges c && matchesChars ts cs

namespace Pattern

/-- Whether a pattern matches a whole text. -/
def «matches» (p : Pattern) (text : String) : Bool := matchesChars p.tokens text.toList

/-- Whether a pattern is the component `**`. -/
def isRecursive (p : Pattern) : Bool := p.tokens.contains .anyPath

/-- Whether a pattern matches only the text that it is. -/
def isLiteral (p : Pattern) : Bool :=
  p.tokens.all fun
    | .literal _ => true
    | _ => false

end Pattern

end TypeClosure.Glob
