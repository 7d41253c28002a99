import SolidGeometry.Yaml.Scalar
import SolidGeometry.Yaml.Uri

namespace SolidGeometry.Yaml

inductive Lexeme where
  | directive (content : Directive)
  | documentStart
  | documentEnd
  | sequenceStart
  | mappingStart
  | blockEnd
  | openList
  | closeList
  | openTable
  | closeTable
  | comma
  | entry
  | key
  | value
  | alias (name : String)
  | anchor (name : String)
  | tag (name : TagName)
  | scalar (text : String) (plain : Bool)
  /-- The text cannot be read on. -/
  | broken (cause : Failure)
  deriving DecidableEq, Repr

/-- Where the key of an entry may have begun: the lexeme in front of which it would stand. In a
block, what begins at the indentation must be a key. -/
structure KeyCandidate where
  position : Nat
  required : Bool
  index : Nat
  line : Nat
  column : Nat

/-- The greatest number of characters between the front of a key and its colon. -/
def keySpan : Nat := 1024

/-- The state of reading: the place, the lexemes so far, the open brackets with the innermost first,
and the columns of the open blocks with the innermost first. A version that a directive tells holds
from the start of the document on. -/
structure Lexer where
  cursor : Cursor
  lexemes : Array Lexeme
  brackets : List Char
  indents : List Int
  keyAllowed : Bool
  candidates : List (Nat × KeyCandidate)
  minor : Nat
  declared? : Option Nat

namespace Lexer

def start (text : List Char) : Lexer := ⟨.start text, #[], [], [], true, [], defaultMinor, none⟩

/-- The column of the innermost open block, `-1` outside all blocks. -/
def indent (l : Lexer) : Int := l.indents.head?.getD (-1)

def inFlow (l : Lexer) : Bool := !l.brackets.isEmpty

def depth (l : Lexer) : Nat := l.brackets.length

def column (l : Lexer) : Int := l.cursor.column

def push (l : Lexer) (lexeme : Lexeme) : Lexer := { l with lexemes := l.lexemes.push lexeme }

def insert (l : Lexer) (position : Nat) (lexeme : Lexeme) : Lexer :=
  { l with
    lexemes := l.lexemes.extract 0 position ++ #[lexeme] ++
      l.lexemes.extract position l.lexemes.size }

/-- Closes the blocks that are indented deeper than a column. -/
def closeBlocks (column : Int) : List Int → Lexer → Lexer
  | [], l => l
  | i :: outer, l =>
    if column < i then closeBlocks column outer ({ l with indents := outer }.push .blockEnd) else l

/-- Closes blocks by the indentation, which counts outside brackets only. -/
def unwind (l : Lexer) (column : Int) : Lexer :=
  if l.inFlow then l else closeBlocks column l.indents l

/-- Drops the candidate at the present depth of brackets. One that must be a key is missed. -/
def dropCandidate (l : Lexer) : Except Failure Lexer :=
  match l.candidates.lookup l.depth with
  | some candidate =>
    if candidate.required then .error .malformed
    else .ok { l with candidates := l.candidates.filter (·.1 != l.depth) }
  | none => .ok l

/-- Drops the candidates whose colon can no longer follow. -/
def dropStale (l : Lexer) : Except Failure Lexer :=
  let stale (candidate : KeyCandidate) : Bool :=
    candidate.line != l.cursor.line || decide (keySpan < l.cursor.index - candidate.index)
  if l.candidates.any fun c => stale c.2 && c.2.required then .error .malformed
  else .ok { l with candidates := l.candidates.filter fun c => !stale c.2 }

/-- Notes that a key may begin here. -/
def saveCandidate (l : Lexer) : Except Failure Lexer := do
  if l.keyAllowed then
    let l ← l.dropCandidate
    let candidate : KeyCandidate := ⟨l.lexemes.size, !l.inFlow && l.indent == l.column,
      l.cursor.index, l.cursor.line, l.cursor.column⟩
    return { l with candidates := (l.depth, candidate) :: l.candidates }
  else return l

/-- Skips blanks, comments and line breaks. Behind a line break a key may begin. -/
def skipFiller : Nat → Lexer → Lexer
  | 0, l => l
  | bound + 1, l =>
    let spaced := l.cursor.skipWhile fun c => c == ' ' || (l.inFlow && c == '\t')
    let stop := if spaced.isAt '#' then spaced.skipWhile (!isBreak ·) else spaced
    if stop.atBreak then
      skipFiller bound { l with cursor := stop.skipBreak, keyAllowed := l.keyAllowed || !l.inFlow }
    else { l with cursor := stop }

def take (l : Lexer) (width : Nat) (lexeme : Lexeme) : Lexer :=
  { l with cursor := l.cursor.skip width }.push lexeme

/-- Moves on to where a rest of the text begins and leaves a lexeme. -/
def moveTo (l : Lexer) (rest : List Char) (lexeme : Lexeme) : Lexer :=
  l.take (l.cursor.ahead.length - rest.length) lexeme

/-- The mark at the boundary of a document. -/
def boundary (l : Lexer) (lexeme : Lexeme) : Except Failure Lexer := do
  let l ← (l.unwind (-1)).dropCandidate
  return { l with keyAllowed := false }.take 3 lexeme

/-- The mark at the start of a document, with the version told in front of it. -/
def documentStart (l : Lexer) : Except Failure Lexer := do
  let l ← l.boundary .documentStart
  return { l with minor := l.declared?.getD defaultMinor, declared? := none }

def directive (l : Lexer) : Except Failure Lexer := do
  let l ← (l.unwind (-1)).dropCandidate
  let (content, rest) ← Directive.scan l.minor (l.cursor.ahead.drop 1)
  let rest ← directiveEnd rest
  let declared? := match content with
    | .version _ minor => some minor
    | _ => l.declared?
  return { l with keyAllowed := false, declared? := declared? }.moveTo rest (.directive content)

def openBracket (l : Lexer) (bracket : Char) (lexeme : Lexeme) : Except Failure Lexer := do
  let l ← l.saveCandidate
  return { l with brackets := bracket :: l.brackets, keyAllowed := true }.take 1 lexeme

def closeBracket (l : Lexer) (lexeme : Lexeme) : Except Failure Lexer := do
  let l ← l.dropCandidate
  return { l with brackets := l.brackets.tail, keyAllowed := false }.take 1 lexeme

def comma (l : Lexer) : Except Failure Lexer := do
  let l ← { l with keyAllowed := true }.dropCandidate
  return l.take 1 .comma

/-- Opens a block at a column that is deeper than the innermost block. -/
def openBlock (l : Lexer) (lexeme : Lexeme) : Lexer :=
  if l.indent < l.column then { l with indents := l.column :: l.indents }.push lexeme else l

def entry (l : Lexer) : Except Failure Lexer := do
  if !l.inFlow && !l.keyAllowed then .error .malformed
  else
    let l := if l.inFlow then l else l.openBlock .sequenceStart
    let l ← { l with keyAllowed := true }.dropCandidate
    return l.take 1 .entry

def explicitKey (l : Lexer) : Except Failure Lexer := do
  if !l.inFlow && !l.keyAllowed then .error .malformed
  else
    let l := if l.inFlow then l else l.openBlock .mappingStart
    let l ← { l with keyAllowed := !l.inFlow }.dropCandidate
    return l.take 1 .key

def value (l : Lexer) : Except Failure Lexer := do
  match l.candidates.lookup l.depth with
  | some candidate =>
    let l := { l with candidates := l.candidates.filter (·.1 != l.depth), keyAllowed := false }
    let l := l.insert candidate.position .key
    let l :=
      if !l.inFlow && l.indent < (candidate.column : Int) then
        { l with indents := (candidate.column : Int) :: l.indents }.insert candidate.position
          .mappingStart
      else l
    return l.take 1 .value
  | none =>
    if !l.inFlow && !l.keyAllowed then .error .malformed
    else
      let l := if l.inFlow then l else l.openBlock .mappingStart
      let l ← { l with keyAllowed := !l.inFlow }.dropCandidate
      return l.take 1 .value

def isNameChar (c : Char) : Bool :=
  let n := c.toNat
  !isFlowMark c && c != '\ufeff' &&
    ((0x21 ≤ n && n ≤ 0x7e) || (0xa0 ≤ n && n ≤ 0xfffd) || 0x10000 ≤ n)

/-- Whether the name of an anchor may end in front of a text. -/
def endsAnchor (text : List Char) : Bool := endsWord text || text.head?.any isFlowMark

/-- An anchor or an alias with its name. -/
def named (l : Lexer) (lexeme : String → Lexeme) : Except Failure Lexer := do
  let l ← l.saveCandidate
  let name := (l.cursor.ahead.drop 1).takeWhile isNameChar
  let width := name.length + 1
  if name = [] ∨ !endsAnchor (l.cursor.ahead.drop width) then .error .malformed
  else return { l with keyAllowed := false }.take width (lexeme (String.ofList name))

def tag (l : Lexer) : Except Failure Lexer := do
  let l ← l.saveCandidate
  let (name, rest) ← TagName.scan l.minor l.cursor.ahead
  return { l with keyAllowed := false }.moveTo rest (.tag name)

def block (l : Lexer) (folded : Bool) : Except Failure Lexer := do
  let l ← { l with keyAllowed := true }.dropCandidate
  let (text, cursor) ← blockScalar folded l.indent l.cursor
  return { l with cursor := cursor }.push (.scalar (String.ofList text) false)

def quoted (l : Lexer) (scan : Nat → Cursor → Except Failure (List Char × Cursor)) :
    Except Failure Lexer := do
  let l ← l.saveCandidate
  let (text, cursor) ← scan (l.cursor.ahead.length + 1) l.cursor.next
  return { l with cursor := cursor, keyAllowed := false }.push (.scalar (String.ofList text) false)

def plain (l : Lexer) : Except Failure Lexer := do
  let l ← l.saveCandidate
  let (text, cursor, broken) :=
    PlainContext.scan ⟨l.minor, l.inFlow, l.indent + 1⟩ (l.cursor.ahead.length + 1) l.cursor
  return { l with cursor := cursor, keyAllowed := broken }.push
    (.scalar (String.ofList text) true)

/-- Characters with which a plain scalar does not begin, unless its next character allows it. -/
def isIndicator (c : Char) : Bool :=
  ['-', '?', ':', ',', '[', ']', '{', '}', '#', '&', '*', '!', '|', '>', '\'', '"', '%', '@',
    '\x60'].contains c

/-- Whether a question mark here is the mark of a key. -/
def atKey (l : Lexer) (rest : List Char) : Bool := l.inFlow || endsWord rest

/-- Whether a colon here is the mark of a value. Inside braces it needs no blank behind it, except
as the first character behind the colon of a value; that lexeme is still in view only while the text
may turn out to be a key. -/
def atValue (l : Lexer) (inView : Bool) (rest : List Char) : Bool :=
  match l.brackets with
  | [] => endsWord rest
  | bracket :: _ =>
    if l.minor = 1 then true
    else if bracket = '[' ∨ (inView ∧ l.lexemes.back? = some .value) then endsWord rest
    else true

/-- Reads one lexeme, and what goes with it, from a character that is no filler. -/
def read (l : Lexer) (inView : Bool) (c : Char) (rest : List Char) : Except Failure Lexer :=
  if c = '%' ∧ l.cursor.column = 0 then l.directive
  else if l.cursor.column = 0 ∧ l.cursor.atMark '-' then l.documentStart
  else if l.cursor.column = 0 ∧ l.cursor.atMark '.' then l.boundary .documentEnd
  else if c = '[' then l.openBracket '[' .openList
  else if c = '{' then l.openBracket '{' .openTable
  else if c = ']' then l.closeBracket .closeList
  else if c = '}' then l.closeBracket .closeTable
  else if c = ',' then l.comma
  else if c = '-' ∧ endsWord rest then l.entry
  else if c = '?' ∧ l.atKey rest then l.explicitKey
  else if c = ':' ∧ l.atValue inView rest then l.value
  else if c = '*' then l.named .alias
  else if c = '&' then l.named .anchor
  else if c = '!' then l.tag
  else if c = '|' ∧ !l.inFlow then l.block false
  else if c = '>' ∧ !l.inFlow then l.block true
  else if c = '\'' then l.quoted singleQuoted
  else if c = '"' then l.quoted doubleQuoted
  else if !isIndicator c && !isSpace c then l.plain
  else if (c = '-' ∨ c = '?' ∨ c = ':') ∧ !endsWord rest then l.plain
  else .error .malformed

/-- The lexemes in front of the first that may still turn out to be a key. -/
def settled (l : Lexer) : List Lexeme :=
  (l.lexemes.extract 0 (l.candidates.foldl (fun n c => min n c.2.position) l.lexemes.size)).toList

/-- Reads one lexeme behind fillers, and tells whether the text ends there. -/
def step (l : Lexer) : Except Failure (Lexer × Bool) := do
  let next ← (l.skipFiller (l.cursor.ahead.length + 1)).dropStale
  let next := next.unwind next.column
  match next.cursor.ahead with
  | [] => return (← (next.unwind (-1)).dropCandidate, true)
  | c :: rest => return (← (← next.read (!l.candidates.isEmpty) c rest).dropStale, false)

/-- Reads lexemes up to the end of the text. Where that is not possible, what is settled remains. -/
def run : Nat → Lexer → List Lexeme
  | 0, l => l.settled ++ [.broken .malformed]
  | bound + 1, l =>
    match l.step with
    | .error cause => l.settled ++ [.broken cause]
    | .ok (last, true) => last.lexemes.toList
    | .ok (next, false) => run bound next

end Lexer

/-- Characters that a YAML text may hold. -/
def isAccepted (c : Char) : Bool :=
  let n := c.toNat
  n == 9 || n == 10 || n == 13 || (0x20 ≤ n && n ≤ 0x7e) || n == 0x85 || (0xa0 ≤ n && n ≤ 0xfffd) ||
    0x10000 ≤ n

/-- The lexemes of a text, without a byte order mark at its front. -/
def lexemes (text : List Char) : List Lexeme :=
  let text := match text with
    | '\ufeff' :: rest => rest
    | _ => text
  if text.all isAccepted then (Lexer.start text).run (2 * text.length + 2)
  else [.broken .malformed]

end SolidGeometry.Yaml
