import XBase.Text.Class

/-!
# Patterns of source text

A pattern says how many characters it takes at the start of a text, if it matches there.
-/

namespace XBase

/-- The length of the match at the start of a text. -/
abbrev Pattern := List Char → Option Nat

namespace Pattern

def backtick : Char := Char.ofNat 0x60

def apostrophe : Char := Char.ofNat 0x27

/-- Blanks that separate tokens within a line. -/
def isSpace (c : Char) : Bool :=
  c == ' ' || c == '\t' || c == '\r' || c.toNat == 0x0C

/-- How many characters at the start of a text satisfy `p`. -/
def span (p : Char → Bool) (cs : List Char) : Nat :=
  (cs.takeWhile p).length

def one (p : Char → Bool) : Pattern
  | [] => none
  | c :: _ => if p c then some 1 else none

/-- All characters at the start that satisfy `p`, of which there is at least one. -/
def many (p : Char → Bool) : Pattern := fun cs =>
  match span p cs with
  | 0 => none
  | n + 1 => some (n + 1)

/-- A character that satisfies `p` and then an equals sign. -/
def withEquals (p : Char → Bool) : Pattern
  | c :: '=' :: _ => if p c then some 2 else none
  | _ => none

def either (p q : Pattern) : Pattern := fun cs =>
  (p cs).or (q cs)

def lineComment : Pattern
  | '/' :: '/' :: cs => some (2 + span (· != '\n') cs)
  | _ => none

/-- The length up to and with the first end of a block comment. -/
def commentEnd : List Char → Option Nat
  | [] => none
  | '*' :: '/' :: _ => some 2
  | _ :: cs => (commentEnd cs).map (· + 1)

def blockComment : Pattern
  | '/' :: '*' :: cs => (commentEnd cs).map (· + 2)
  | _ => none

/-- A semicolon that ends its line, with the empty lines after it. -/
def semicolonBreak : Pattern
  | ';' :: cs =>
    let blanks := span isSpace cs
    match span (· == '\n') (cs.drop blanks) with
    | 0 => none
    | n + 1 => some (1 + blanks + (n + 1))
  | _ => none

/-- Digits, then digits, points and underscores. Not every match spells a number. -/
def number : Pattern
  | [] => none
  | c :: cs =>
    if c.isDigit then some (1 + span (fun d => d.isDigit || d == '.' || d == '_') cs) else none

/-- The length up to and with the closing quote; a backslash hides the character after it. -/
def closingQuote (quote : Char) : List Char → Option Nat
  | [] => none
  | '\\' :: _ :: cs => (closingQuote quote cs).map (· + 2)
  | c :: cs => if c = quote then some 1 else (closingQuote quote cs).map (· + 1)

/-- A text between quotes, in which a backslash hides the character after it. -/
def quoted (quote : Char) : Pattern
  | [] => none
  | c :: cs => if c = quote then (closingQuote quote cs).map (· + 1) else none

/-- A text between backticks, in which nothing is hidden. -/
def raw : Pattern
  | [] => none
  | c :: cs =>
    if c = backtick then
      let inner := span (· != backtick) cs
      if inner < cs.length then some (inner + 2) else none
    else none

def comparison : Pattern
  | [] => none
  | c :: cs =>
    if c == '<' || c == '>' then some (if cs.head? = some '=' then 2 else 1) else none

/-- Whether `c` is the lowercase letter `letter` up to case. The long s and the Kelvin sign are
forms of their letters too. -/
def folds (letter c : Char) : Bool :=
  c.toLower == letter || (letter == 's' && c.toNat == 0x17F) ||
    (letter == 'k' && c.toNat == 0x212A)

/-- Whether a text starts with `letters` up to case. -/
def spells : List Char → List Char → Bool
  | [], _ => true
  | _, [] => false
  | letter :: letters, c :: cs => folds letter c && spells letters cs

/-- A spelling up to case, whatever follows. -/
def spelling (letters : String) : Pattern := fun cs =>
  if spells letters.toList cs then some letters.toList.length else none

/-- A whole word up to case: no word character follows. -/
def word (letters : String) : Pattern := fun cs =>
  let n := letters.toList.length
  if spells letters.toList cs && !((cs.drop n).head?.any Text.isWord) then some n else none

end Pattern

end XBase
