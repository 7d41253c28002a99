import SolidGeometry.Number.Digits
import SolidGeometry.Yaml.Cursor
import SolidGeometry.Yaml.Failure

namespace SolidGeometry.Yaml

/-- What line breaks inside a scalar stand for. A break of another kind than a line feed is kept. -/
def fold : List Char → List Char
  | [] => []
  | ['\n'] => [' ']
  | '\n' :: more => more
  | breaks => breaks

/-- Characters that end a plain scalar inside brackets. -/
def isFlowMark (c : Char) : Bool := [',', '[', ']', '{', '}'].contains c

/-- Where a plain scalar stands: whether inside brackets, and the least column of its further lines
outside them. Version 1.1 ends a plain scalar inside brackets at a question mark. -/
structure PlainContext where
  minor : Nat
  inFlow : Bool
  indent : Int

/-- The characters of a plain scalar up to a blank, a break, or a colon at the end of a word. -/
def PlainContext.run (context : PlainContext) : List Char → List Char
  | [] => []
  | c :: rest =>
    let marked := isFlowMark c || (context.minor == 1 && c == '?')
    if isSpace c || isBreak c || (c == ':' && endsWord rest) || (context.inFlow && marked) then []
    else c :: context.run rest

/-- A plain scalar, the place behind it, and whether it is followed by a line break. -/
def PlainContext.scan (context : PlainContext) : Nat → Cursor → List Char × Cursor × Bool
  | 0, c => ([], c, false)
  | bound + 1, c =>
    let run := if c.isAt '#' then [] else context.run c.ahead
    if run = [] then ([], c, false)
    else
      let c := c.skip run.length
      let spaced := c.skipWhile (· == ' ')
      if spaced.atBreak then
        let breaks := Breaks.ahead (·.isAt ' ') spaced.ahead.length spaced
        let below := breaks.stop
        if breaks.divided || below.isAt '#' ||
            (!context.inFlow && decide ((below.column : Int) < context.indent)) then
          (run, below, true)
        else
          let (more, stop, broken) := context.scan bound below
          if more = [] then (run, stop, true) else (run ++ fold breaks.text ++ more, stop, broken)
      else if spaced.isAt '#' then (run, spaced, false)
      else
        let (more, stop, broken) := context.scan bound spaced
        if more = [] then (run, stop, broken)
        else (run ++ List.replicate (spaced.index - c.index) ' ' ++ more, stop, broken)

/-- The line breaks ahead inside a quoted scalar. No mark between documents may follow them. -/
def quotedBreaks (c : Cursor) : Except Failure (List Char × Cursor) :=
  let breaks := Breaks.ahead Cursor.atSpace c.ahead.length c
  if breaks.divided then .error .malformed else .ok (breaks.text, breaks.stop)

/-- What the blanks and breaks ahead inside a quoted scalar stand for, and the place behind them. -/
def quotedGap (c : Cursor) : Except Failure (List Char × Cursor) := do
  let spaced := c.skipWhile isSpace
  if spaced.atBreak then
    let (breaks, stop) ← quotedBreaks spaced
    return (fold breaks, stop)
  else return (c.ahead.take (spaced.index - c.index), spaced)

def singleQuoted : Nat → Cursor → Except Failure (List Char × Cursor)
  | 0, _ => .error .malformed
  | bound + 1, c =>
    match c.ahead with
    | [] => .error .malformed
    | '\'' :: '\'' :: _ => do
      let (more, stop) ← singleQuoted bound (c.skip 2)
      return ('\'' :: more, stop)
    | '\'' :: _ => .ok ([], c.next)
    | ch :: _ =>
      if isSpace ch || isBreak ch then do
        let (gap, stop) ← quotedGap c
        let (more, stop) ← singleQuoted bound stop
        return (gap ++ more, stop)
      else do
        let (more, stop) ← singleQuoted bound c.next
        return (ch :: more, stop)

/-- The character that an escape of one letter stands for. -/
def simpleEscape? : Char → Option Char
  | '0' => some '\x00'
  | 'a' => some '\x07'
  | 'b' => some '\x08'
  | 't' => some '\t'
  | '\t' => some '\t'
  | 'n' => some '\n'
  | 'v' => some '\x0b'
  | 'f' => some '\x0c'
  | 'r' => some '\r'
  | 'e' => some '\x1b'
  | ' ' => some ' '
  | '"' => some '"'
  | '/' => some '/'
  | '\\' => some '\\'
  | 'N' => some '\u0085'
  | '_' => some '\u00a0'
  | 'L' => some '\u2028'
  | 'P' => some '\u2029'
  | _ => none

def escapeWidth? : Char → Option Nat
  | 'x' => some 2
  | 'u' => some 4
  | 'U' => some 8
  | _ => none

/-- The code point that an escape behind a backslash stands for, and the length of the escape. -/
def escapedCode (text : List Char) : Except Failure (Nat × Nat) :=
  match text with
  | [] => .error .malformed
  | letter :: rest =>
    match simpleEscape? letter, escapeWidth? letter with
    | some c, _ => .ok (c.toNat, 1)
    | none, none => .error .malformed
    | none, some width =>
      let digits := rest.take width
      match Number.ofDigitsIn? 16 digits with
      | some code =>
        if digits.length < width then .error .malformed
        else if 0x110000 ≤ code then .error (.character code)
        else .ok (code, width + 1)
      | none => .error .malformed

/-- The character beyond the first plane that two surrogates stand for. -/
def ofSurrogates? (high low : Nat) : Option Char :=
  if 0xd800 ≤ high ∧ high < 0xdc00 ∧ 0xdc00 ≤ low ∧ low < 0xe000 then
    some (Char.ofNat (0x10000 + (high - 0xd800) * 0x400 + (low - 0xdc00)))
  else none

/-- The character that an escape behind a backslash stands for, and the length of the escape. Two
escapes of surrogates stand for one character; a surrogate by itself is none. -/
def escaped (text : List Char) : Except Failure (Char × Nat) := do
  let (code, length) ← escapedCode text
  if code.isValidChar then return (Char.ofNat code, length)
  else
    match text.drop length with
    | '\\' :: rest => do
      let (low, further) ← escapedCode rest
      match ofSurrogates? code low with
      | some c => return (c, length + 1 + further)
      | none => .error .malformed
    | _ => .error .malformed

def doubleQuoted : Nat → Cursor → Except Failure (List Char × Cursor)
  | 0, _ => .error .malformed
  | bound + 1, c =>
    match c.ahead with
    | [] => .error .malformed
    | '"' :: _ => .ok ([], c.next)
    | '\\' :: rest =>
      if c.next.atBreak then do
        let (breaks, stop) ← quotedBreaks c.next
        let (more, stop) ← doubleQuoted bound stop
        return (breaks.tail ++ more, stop)
      else do
        let (ch, length) ← escaped rest
        let (more, stop) ← doubleQuoted bound (c.skip (1 + length))
        return (ch :: more, stop)
    | ch :: _ =>
      if isSpace ch || isBreak ch then do
        let (gap, stop) ← quotedGap c
        let (more, stop) ← doubleQuoted bound stop
        return (gap ++ more, stop)
      else do
        let (more, stop) ← doubleQuoted bound c.next
        return (ch :: more, stop)

/-- What is done with the line breaks at the end of a block. -/
inductive Chomping where
  | strip
  | clip
  | keep
  deriving DecidableEq, Repr

/-- The indicators behind the mark of a block: what is done with its last breaks, and its depth. -/
def blockIndicators (text : List Char) : Option (Chomping × Option Nat × Nat) :=
  let chomping? (c : Char) : Option Chomping :=
    if c = '-' then some .strip else if c = '+' then some .keep else none
  let depth? (c : Char) : Option Nat :=
    if '0' ≤ c ∧ c ≤ '9' then some (c.toNat - '0'.toNat) else none
  let checked (found : Chomping × Option Nat × Nat) : Option (Chomping × Option Nat × Nat) :=
    if found.2.1 = some 0 then none else some found
  match text with
  | a :: b :: _ =>
    match chomping? a, depth? a, chomping? b, depth? b with
    | some h, _, _, some d => checked (h, some d, 2)
    | _, some d, some h, _ => checked (h, some d, 2)
    | some h, _, _, _ => checked (h, none, 1)
    | _, some d, _, _ => checked (.clip, some d, 1)
    | _, _, _, _ => some (.clip, none, 0)
  | [a] =>
    match chomping? a, depth? a with
    | some h, _ => checked (h, none, 1)
    | _, some d => checked (.clip, some d, 1)
    | _, _ => some (.clip, none, 0)
  | [] => some (.clip, none, 0)

/-- The empty lines in front of a block: their breaks, the greatest column reached over blanks, the
column of the first break, and the place behind them. -/
structure Lead where
  breaks : List Char
  deepest : Nat
  first? : Option Nat
  stop : Cursor

def Lead.ahead : Nat → Cursor → Lead
  | 0, c => ⟨[], 0, none, c⟩
  | bound + 1, c =>
    if c.isAt ' ' then
      let more := Lead.ahead bound c.next
      { more with deepest := max c.next.column more.deepest }
    else if c.atBreak then
      let more := Lead.ahead bound c.skipBreak
      { more with breaks := c.breakMeaning :: more.breaks, first? := some c.column }
    else ⟨[], 0, none, c⟩

/-- Whether a later line is indented deeper than the first one, which is blank and indented. -/
def Lead.isRagged (lead : Lead) : Bool :=
  lead.first?.any fun first => 0 < first && first < lead.deepest

/-- Where a block stands: whether its lines are joined, their column, and whether a mark between
documents ends it, which goes for a block outside all others. -/
structure BlockContext where
  folded : Bool
  depth : Nat
  outermost : Bool

/-- The breaks ahead between blanks outside the block. -/
def BlockContext.breaks (context : BlockContext) (c : Cursor) : Breaks :=
  Breaks.ahead (fun d => d.isAt ' ' && d.column < context.depth) c.ahead.length c

/-- The lines of a block, its last line break, the empty lines behind it, and the place behind
all. -/
structure BlockText where
  text : List Char
  last : List Char
  empty : List Char
  stop : Cursor

/-- The lines of a block from a place on, behind empty lines. A folded text is not joined beside
lines that begin with a blank. -/
def BlockContext.lines (context : BlockContext) : Nat → List Char → Cursor → BlockText
  | 0, empty, c => ⟨[], [], empty, c⟩
  | bound + 1, empty, c =>
    if c.column = context.depth ∧ !c.atEnd then
      let line := c.ahead.takeWhile (!isBreak ·)
      let stop := c.skip line.length
      let last := if stop.atBreak then [stop.breakMeaning] else []
      let breaks := context.breaks stop.skipBreak
      let front := empty ++ line
      let next := breaks.stop
      if next.column = context.depth ∧ !next.atEnd ∧
          !(context.outermost && next.column == 0 && next.atDivider) then
        let joined := context.folded && last == ['\n'] && !c.atSpace && !next.atSpace
        let between := if !joined then last else if breaks.text = [] then [' '] else []
        let more := context.lines bound breaks.text next
        { more with text := front ++ between ++ more.text }
      else ⟨front, last, breaks.text, next⟩
    else ⟨[], [], empty, c⟩

/-- The text of a block with what is left of its last breaks. -/
def BlockText.chomp (block : BlockText) : Chomping → List Char
  | .strip => block.text
  | .clip => block.text ++ block.last
  | .keep => block.text ++ block.last ++ block.empty

/-- The place behind the rest of a block's first line, which may hold a comment. -/
def blockHead? (c : Cursor) : Option Cursor :=
  let spaced := c.skipWhile (· == ' ')
  let stop :=
    if spaced.isAt '#' && c.index < spaced.index then spaced.skipWhile (!isBreak ·) else spaced
  if stop.atBreak then some stop.skipBreak else if stop.atEnd then some stop else none

/-- A block scalar, from its mark on, inside a block of the given indentation. -/
def blockScalar (folded : Bool) (indent : Int) (c : Cursor) :
    Except Failure (List Char × Cursor) := do
  let c := c.next
  let some (chomping, depth?, width) := blockIndicators c.ahead | .error .malformed
  let some first := blockHead? (c.skip width) | .error .malformed
  match depth? with
  | some depth =>
    let context : BlockContext := ⟨folded, (max (indent + 1) 1).toNat + depth - 1, false⟩
    let breaks := context.breaks first
    let block := context.lines (breaks.stop.ahead.length + 1) breaks.text breaks.stop
    return (block.chomp chomping, block.stop)
  | none =>
    let lead := Lead.ahead (first.ahead.length + 1) first
    let least := (indent + 1).toNat
    let context : BlockContext := ⟨folded, max least lead.deepest, least == 0⟩
    let block := context.lines (lead.stop.ahead.length + 1) lead.breaks lead.stop
    if lead.isRagged then .error .malformed else return (block.chomp chomping, block.stop)

end SolidGeometry.Yaml
