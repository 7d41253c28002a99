namespace SolidGeometry.Yaml

def isBreak (c : Char) : Bool :=
  c == '\n' || c == '\r' || c == '\x85' || c == '\u2028' || c == '\u2029'

def isSpace (c : Char) : Bool := c == ' ' || c == '\t'

/-- Whether a text is at its end or begins with a blank or a line break. -/
def endsWord (text : List Char) : Bool :=
  match text with
  | [] => true
  | c :: _ => isSpace c || isBreak c

/-- The text ahead of a place, and the line and column of the place, counted from zero. -/
structure Cursor where
  ahead : List Char
  index : Nat
  line : Nat
  column : Nat

namespace Cursor

def start (text : List Char) : Cursor := ⟨text, 0, 0, 0⟩

/-- The place behind the next character. Lines are counted by line feeds and carriage returns alone,
a pair of both being one; a byte order mark takes no column. -/
def next (c : Cursor) : Cursor :=
  match c.ahead with
  | [] => c
  | '\n' :: rest => ⟨rest, c.index + 1, c.line + 1, 0⟩
  | '\r' :: '\n' :: rest => ⟨'\n' :: rest, c.index + 1, c.line, c.column + 1⟩
  | '\r' :: rest => ⟨rest, c.index + 1, c.line + 1, 0⟩
  | '\ufeff' :: rest => ⟨rest, c.index + 1, c.line, c.column⟩
  | _ :: rest => ⟨rest, c.index + 1, c.line, c.column + 1⟩

def skip (c : Cursor) (count : Nat) : Cursor := count.repeat next c

def skipWhile (c : Cursor) (accepts : Char → Bool) : Cursor :=
  c.skip (c.ahead.takeWhile accepts).length

def skipBreak (c : Cursor) : Cursor :=
  match c.ahead with
  | '\r' :: '\n' :: _ => c.skip 2
  | _ => c.next

def atBreak (c : Cursor) : Bool := c.ahead.head?.any isBreak

def atEnd (c : Cursor) : Bool := c.ahead.isEmpty

def isAt (c : Cursor) (character : Char) : Bool := c.ahead.head? == some character

def atSpace (c : Cursor) : Bool := c.ahead.head?.any isSpace

/-- What a line break ahead stands for: the separators of lines and paragraphs for themselves, all
others for a line feed. -/
def breakMeaning (c : Cursor) : Char :=
  if c.isAt '\u2028' then '\u2028' else if c.isAt '\u2029' then '\u2029' else '\n'

/-- Whether a mark of three equal characters stands alone ahead. -/
def atMark (c : Cursor) (mark : Char) : Bool :=
  c.ahead.take 3 == [mark, mark, mark] && endsWord (c.ahead.drop 3)

/-- Whether one of the marks between documents is ahead. -/
def atDivider (c : Cursor) : Bool := c.atMark '-' || c.atMark '.'

end Cursor

/-- Line breaks between blanks: what they stand for, the place behind them, and whether a mark
between documents follows directly behind a break. -/
structure Breaks where
  text : List Char
  stop : Cursor
  divided : Bool

/-- The line breaks ahead, between any number of blanks that a test accepts. -/
def Breaks.ahead (blank : Cursor → Bool) : Nat → Cursor → Breaks
  | 0, c => ⟨[], c, false⟩
  | bound + 1, c =>
    if blank c then Breaks.ahead blank bound c.next
    else if c.atBreak then
      let below := c.skipBreak
      if below.atDivider then ⟨[c.breakMeaning], below, true⟩
      else
        let more := Breaks.ahead blank bound below
        { more with text := c.breakMeaning :: more.text }
    else ⟨[], c, false⟩

end SolidGeometry.Yaml
