import SolidGeometry.Number.Digits
import SolidGeometry.Yaml.Cursor
import SolidGeometry.Yaml.Failure

namespace SolidGeometry.Yaml

def isAsciiLetter (c : Char) : Bool := ('a' ≤ c && c ≤ 'z') || ('A' ≤ c && c ≤ 'Z')

def isAsciiWord (c : Char) : Bool := isAsciiLetter c || Number.isDigit c

/-- Characters of a URI. The number sign is one from version 1.2 on. -/
def isUriChar (minor : Nat) (c : Char) : Bool :=
  isAsciiWord c || "-;/?:@&=+$,_.!~*'()[]".toList.contains c || (1 < minor && c == '#')

/-- The byte that an escape at the front of a text stands for, and the rest. -/
def uriEscape? : List Char → Option (UInt8 × List Char)
  | '%' :: a :: b :: rest => (Number.ofDigitsIn? 16 [a, b]).map fun n => (UInt8.ofNat n, rest)
  | _ => none

/-- The bytes of the escapes at the front of a text. -/
def uriEscapes : Nat → List Char → List UInt8
  | 0, _ => []
  | bound + 1, text =>
    match uriEscape? text with
    | some (byte, rest) => byte :: uriEscapes bound rest
    | none => []

/-- The URI at the front of a text as it is written, and the rest. Escapes that stand side by side
must be a text in UTF-8. -/
def uri (minor : Nat) : Nat → List Char → Except Failure (List Char × List Char)
  | 0, _ => .error .malformed
  | bound + 1, text =>
    match text with
    | '%' :: _ => do
      let bytes := uriEscapes text.length text
      let length := 3 * bytes.length
      if bytes = [] ∨ (text.drop length).head? = some '%' then .error .malformed
      else if (String.fromUTF8? ⟨bytes.toArray⟩).isNone then .error .malformed
      else
        let (more, rest) ← uri minor bound (text.drop length)
        return (text.take length ++ more, rest)
    | c :: rest =>
      if isUriChar minor c then do
        let (more, rest) ← uri minor bound rest
        return (c :: more, rest)
      else .ok ([], text)
    | [] => .ok ([], [])

def someUri (minor : Nat) (text : List Char) : Except Failure (List Char × List Char) := do
  let (name, rest) ← uri minor (text.length + 1) text
  if name = [] then .error .malformed else return (name, rest)

/-- A URI without its escapes, every byte of which is a character. -/
def unescaped : Nat → List Char → List Char
  | 0, text => text
  | bound + 1, text =>
    match uriEscape? text, text with
    | some (byte, rest), _ => Char.ofNat byte.toNat :: unescaped bound rest
    | none, c :: rest => c :: unescaped bound rest
    | none, [] => []

/-- Whether a text is at its end or begins with a space or a line break. -/
def endsName (text : List Char) : Bool :=
  match text with
  | [] => true
  | c :: _ => c == ' ' || isBreak c

/-- The handle at the front of a text, between exclamation marks, and the rest. -/
def tagHandle (text : List Char) : Except Failure (String × List Char) :=
  match text with
  | '!' :: rest =>
    if rest.head? = some ' ' then .ok ("!", rest)
    else
      let word := rest.takeWhile fun c => isAsciiWord c || c == '-' || c == '_'
      match rest.drop word.length with
      | '!' :: rest => .ok (String.ofList ('!' :: word ++ ['!']), rest)
      | _ => .error .malformed
  | _ => .error .malformed

/-- The name of a tag: what its handle stands for, and the rest of the name. A tag without a handle
is written in full. -/
structure TagName where
  handle? : Option String
  suffix : String
  deriving DecidableEq, Repr

/-- The mark of a node whose type follows from its text. -/
def TagName.unspecific : TagName := ⟨none, "!"⟩

/-- The name of the tag at the front of a text, which begins with an exclamation mark, and the
rest. -/
def TagName.scan (minor : Nat) (text : List Char) : Except Failure (TagName × List Char) := do
  let (short, marked) := match text with
    | '!' :: '!' :: rest => ("!!", '!' :: rest)
    | _ => ("!", text)
  let named (handle? : Option String) (text : List Char) :
      Except Failure (TagName × List Char) := do
    let (name, rest) ← someUri minor text
    return (⟨handle?, String.ofList (unescaped name.length name)⟩, rest)
  let rest := marked.tail
  let (name, rest) ←
    if rest.head? = some '<' then do
      let (name, rest) ← named none rest.tail
      if rest.head? = some '>' then pure (name, rest.tail) else .error .malformed
    else if endsWord rest then pure (TagName.unspecific, rest)
    else if (rest.takeWhile fun c => c != ' ' && !isBreak c).contains '!' then do
      let (handle, rest) ← tagHandle marked
      named (some handle) rest
    else named (some short) rest
  if endsName rest then return (name, rest) else .error .malformed

/-- The version of the format that a text has if it tells none is `1.2`. -/
def defaultMinor : Nat := 2

inductive Directive where
  | version (major minor : Nat)
  | handle (name uri : String)
  /-- A directive without a meaning. -/
  | reserved
  deriving DecidableEq, Repr

def number (text : List Char) : Except Failure (Nat × List Char) :=
  let digits := text.takeWhile Number.isDigit
  if digits = [] then .error .malformed
  else if digitLimit < digits.length then .error (.digits (.reading digits.length))
  else .ok (Number.ofDigits digits, text.drop digits.length)

/-- Passes a text by in which a name has ended. -/
def ended (text : List Char) : Except Failure (List Char) :=
  if endsName text then .ok text else .error .malformed

def dropSpaces (text : List Char) : List Char := text.dropWhile (· == ' ')

/-- The directive behind the percent sign at the front of a text, and the rest. -/
def Directive.scan (minor : Nat) (text : List Char) : Except Failure (Directive × List Char) := do
  let name := text.takeWhile fun c => isAsciiWord c || ['-', '_', ':', '.'].contains c
  let rest ← ended (text.drop name.length)
  match String.ofList name with
  | "" => .error .malformed
  | "YAML" =>
    let (major, rest) ← number (dropSpaces rest)
    if rest.head? = some '.' then
      let (minor, rest) ← number rest.tail
      return (.version major minor, ← ended rest)
    else .error .malformed
  | "TAG" =>
    let (name, rest) ← tagHandle (dropSpaces rest)
    if rest.head? = some ' ' then
      let (uri, rest) ← someUri minor (dropSpaces rest)
      return (.handle name (String.ofList uri), ← ended rest)
    else .error .malformed
  | _ => return (.reserved, rest.dropWhile (!isBreak ·))

/-- The rest of a text behind a directive and a comment, with the end of the line ahead. -/
def directiveEnd (text : List Char) : Except Failure (List Char) :=
  let rest := dropSpaces text
  let rest := if rest.head? = some '#' then rest.dropWhile (!isBreak ·) else rest
  match rest with
  | [] => .ok rest
  | c :: _ => if isBreak c then .ok rest else .error .malformed

end SolidGeometry.Yaml
