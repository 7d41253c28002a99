import SolidGeometry.Grammar.Symbol
import SolidGeometry.Number.Literal

namespace SolidGeometry.Grammar
open Number

inductive Pattern where
  /-- One of a few spellings, none of which begins another. -/
  | spellings (texts : List String)
  /-- The longest run of one or more lower-case letters. -/
  | letters
  /-- The longest number literal. -/
  | literal

def Terminal.pattern : Terminal → Pattern
  | .vectorFunction => .spellings ["length", "normalize"]
  | .pairFunction => .spellings ["dotp", "cross", "area", "between"]
  | .planeFunction => .spellings ["param", "three-points", "normal"]
  | .generic => .spellings ["angle", "parallel?", "perpendicular?", "distance", "on?",
      "intersection", "projection", "skewed?"]
  | .number => .literal
  | .word => .letters
  | .opening => .spellings ["(", "[", "<"]
  | .closing => .spellings [")", "]", ">"]
  | .lwith => .spellings ["lwith"]
  | .pwith => .spellings ["pwith"]
  | .line => .spellings ["line"]
  | .plane => .spellings ["plane"]
  | .openNested => .spellings ["("]
  | .closeNested => .spellings [")"]
  | .plus => .spellings ["+"]
  | .star => .spellings ["*"]
  | .x => .spellings ["x"]
  | .y => .spellings ["y"]
  | .z => .spellings ["z"]
  | .equals => .spellings ["="]
  | .zero => .spellings ["0"]

def isLetter (c : Char) : Bool := 'a' ≤ c && c ≤ 'z'

/-- How many characters at the front of a text a pattern takes. -/
def Pattern.match? (text : List Char) : Pattern → Option Nat
  | .spellings texts =>
    (texts.find? fun spelling => spelling.toList.isPrefixOf text).map String.length
  | .letters =>
    match (text.takeWhile isLetter).length with
    | 0 => none
    | n + 1 => some (n + 1)
  | .literal => (Literal.scan? text).map fun scanned => text.length - scanned.2.length

/-- How many characters the token at the front of a text takes. -/
def Terminal.match? (t : Terminal) (text : List Char) : Option Nat :=
  t.pattern.match? text

/-- Separators may stand between all tokens and mean nothing. -/
def isSeparator (c : Char) : Bool := c == ' ' || c == '\t' || c == ','

/-- How many characters the separators at the front of a text take. -/
def separators? (text : List Char) : Option Nat :=
  match (text.takeWhile isSeparator).length with
  | 0 => none
  | n + 1 => some (n + 1)

/-- The tokens that a syntax tree keeps. -/
def Terminal.isKept : Terminal → Bool
  | .vectorFunction | .pairFunction | .planeFunction | .generic | .number => true
  | _ => false

structure Token where
  terminal : Terminal
  text : List Char
  deriving DecidableEq, Repr

end SolidGeometry.Grammar
