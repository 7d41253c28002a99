import SolidGeometry.Grammar.Tree
import SolidGeometry.Text.Blank

namespace SolidGeometry.Grammar

inductive SyntaxError where
  /-- More would have to follow the text. -/
  | unexpectedEnd (text : List Char)
  /-- Nothing that can follow stands at this offset of the text. -/
  | unexpected (text : List Char) (offset : Nat)
  deriving DecidableEq, Repr

/-- The width of a text on a line whose tab stops are eight columns apart. -/
def lineWidth (text : List Char) : Nat :=
  text.foldl (fun width c => if c = '\t' then (width / 8 + 1) * 8 else width + 1) 0

/-- How many characters are shown on each side of an error. -/
def contextSpan : Nat := 40

/-- The line around an offset, and a caret under the offset. -/
def context (text : List Char) (offset : Nat) : List Char :=
  let ahead := (text.take offset).drop (offset - contextSpan)
  let before := (ahead.reverse.takeWhile (· != '\n')).reverse
  let after := ((text.drop offset).take contextSpan).takeWhile (· != '\n')
  before ++ after ++ '\n' :: List.replicate (lineWidth before) ' ' ++ ['^']

def lineNumber (text : List Char) (offset : Nat) : Nat :=
  (text.take offset).count '\n' + 1

def columnNumber (text : List Char) (offset : Nat) : Nat :=
  ((text.take offset).reverse.takeWhile (· != '\n')).length + 1

def SyntaxError.message : SyntaxError → String
  | .unexpectedEnd text => "Unexpected end of input: " ++ Text.quoted (String.ofList text)
  | .unexpected text offset =>
    let line := lineNumber text offset
    let column := columnNumber text offset
    s!"Syntax error at line {line}, column {column}:\n" ++ String.ofList (context text offset)

/-- The syntax tree of a text without blanks at its ends. -/
def readTrimmed (text : List Char) : Except SyntaxError Tree :=
  match Chart.initial.advance text with
  | .error offset => .error (.unexpected text offset)
  | .ok chart =>
    match chart.reading? with
    | some [tree] => .ok tree
    | _ => .error (.unexpectedEnd text)

/-- The syntax tree of a text. -/
def read (text : String) : Except SyntaxError Tree :=
  readTrimmed (Text.trim text.toList)

end SolidGeometry.Grammar
