import SolidGeometry.Yaml.Lexeme
import SolidGeometry.Yaml.Tag

namespace SolidGeometry.Yaml

inductive Node where
  | scalar (tag : Tag) (text : String)
  | list (tag : Tag) (items : List Node)
  | table (tag : Tag) (entries : List (Node × Node))
  /-- An alias inside the list or table that it names. -/
  | loop (tag : Tag) (ofTable : Bool)

def Node.tag : Node → Tag
  | .scalar tag _ => tag
  | .list tag _ => tag
  | .table tag _ => tag
  | .loop tag _ => tag

/-- What holds for all nodes of a document: the version, and what the handles of tags stand for. -/
structure Scope where
  minor : Nat
  handles : List (String × String)

def standardHandles : List (String × String) := [("!", "!"), ("!!", tagPrefix)]

/-- The full name of a tag. The handle must stand for something. -/
def Scope.fullName (scope : Scope) (name : TagName) : Except Failure String :=
  match name.handle? with
  | none => .ok name.suffix
  | some handle =>
    match scope.handles.lookup handle with
    | some front => .ok (front ++ name.suffix)
    | none => .error .malformed

/-- The nodes that anchors name, the latest first. -/
abbrev Anchors := List (String × Node)

def Anchors.record (anchors : Anchors) (anchor? : Option String) (node : Node) : Anchors :=
  match anchor? with
  | some name => (name, node) :: anchors
  | none => anchors

/-- Lets the anchor of a list or table, which was recorded when so many others were, name the whole
of it. -/
def Anchors.complete (anchors : Anchors) (count : Nat) (anchor? : Option String) (node : Node) :
    Anchors :=
  match anchor? with
  | some name => anchors.set (anchors.length - 1 - count) (name, node)
  | none => anchors

/-- What is left of a document, and the anchors so far. -/
structure Remainder where
  lexemes : List Lexeme
  anchors : Anchors

def failureAt : List Lexeme → Failure
  | .broken cause :: _ => cause
  | _ => .malformed

/-- What names a node and tells its type: the full name of the tag is absent where no type is
told. -/
structure Properties where
  anchor? : Option String
  tag? : Option String
  deriving DecidableEq, Repr

def Properties.absent : Properties := ⟨none, none⟩

def Scope.properties (scope : Scope) : List Lexeme → Except Failure (Properties × List Lexeme)
  | .anchor name :: .tag tag :: rest | .tag tag :: .anchor name :: rest => do
    return (⟨some name, some (← scope.fullName tag)⟩, rest)
  | .anchor name :: rest => return (⟨some name, none⟩, rest)
  | .tag tag :: rest => do return (⟨none, some (← scope.fullName tag)⟩, rest)
  | rest => return (.absent, rest)

/-- The type of a scalar. A quoted one is a text unless it has the bare exclamation mark. -/
def Scope.scalarTag (scope : Scope) (p : Properties) (text : String) (plain : Bool) :
    Except Failure Tag :=
  match p.tag? with
  | some "!" => Tag.ofPlain scope.minor text
  | some name => .ok (.ofName name)
  | none => if plain then Tag.ofPlain scope.minor text else .ok .text

/-- The type of a node with parts, which has a usual one. -/
def Properties.tagOr (p : Properties) (usual : Tag) : Tag :=
  match p.tag? with
  | some name => if name = "!" then usual else .ofName name
  | none => usual

def Scope.scalar (scope : Scope) (anchors : Anchors) (p : Properties) (text : String) (plain : Bool)
    (rest : List Lexeme) : Except Failure (Node × Remainder) := do
  let node := Node.scalar (← scope.scalarTag p text plain) text
  return (node, ⟨rest, anchors.record p.anchor? node⟩)

/-- A value that is left out in front of a rest, which must go on. -/
def Scope.omitted (scope : Scope) (r : Remainder) : Except Failure (Node × Remainder) :=
  match r.lexemes with
  | .broken cause :: _ => .error cause
  | _ => scope.scalar r.anchors .absent "" true r.lexemes

/-- Whether the lexemes ahead begin no node: a value is left out. -/
def leavesOut (ends : List Lexeme) (ahead : List Lexeme) : Bool :=
  match ahead with
  | [] => true
  | l :: _ => ends.contains l

mutual

/-- The node at the front of the lexemes, and the rest. In the value of a block entry a list may
stand at the indentation of its key. The number bounds the lexemes that are read. -/
def Scope.node (scope : Scope) (block flush : Bool) :
    Nat → Remainder → Except Failure (Node × Remainder)
  | 0, _ => .error .malformed
  | bound + 1, ⟨lexemes, anchors⟩ => do
    match lexemes with
    | .alias name :: rest =>
      match anchors.lookup name with
      | some node => .ok (node, ⟨rest, anchors⟩)
      | none => .error .malformed
    | _ =>
      let (p, ahead) ← scope.properties lexemes
      let listTag := p.tagOr .list
      let tableTag := p.tagOr .table
      let inList : Anchors := anchors.record p.anchor? (.loop listTag false)
      let inTable : Anchors := anchors.record p.anchor? (.loop tableTag true)
      let listNode (found : List Node × Remainder) : Node × Remainder :=
        let node := Node.list listTag found.1
        (node, { found.2 with
          anchors := found.2.anchors.complete anchors.length p.anchor? node })
      let tableNode (found : List (Node × Node) × Remainder) : Node × Remainder :=
        let node := Node.table tableTag found.1
        (node, { found.2 with
          anchors := found.2.anchors.complete anchors.length p.anchor? node })
      match ahead, block, flush with
      | .entry :: _, _, true => listNode <$> scope.flushItems bound ⟨ahead, inList⟩
      | .scalar text plain :: rest, _, _ => scope.scalar anchors p text plain rest
      | .openList :: rest, _, _ => listNode <$> scope.listItems true bound ⟨rest, inList⟩
      | .openTable :: rest, _, _ => tableNode <$> scope.tableEntries true bound ⟨rest, inTable⟩
      | .sequenceStart :: rest, true, _ => listNode <$> scope.blockItems bound ⟨rest, inList⟩
      | .mappingStart :: rest, true, _ => tableNode <$> scope.blockEntries bound ⟨rest, inTable⟩
      | .broken cause :: _, _, _ => .error cause
      | _, _, _ =>
        if p = .absent then .error .malformed else scope.scalar anchors p "" true ahead

/-- The items of a block list up to its end. -/
def Scope.blockItems (scope : Scope) : Nat → Remainder → Except Failure (List Node × Remainder)
  | 0, _ => .error .malformed
  | bound + 1, ⟨lexemes, anchors⟩ =>
    match lexemes with
    | .entry :: rest => do
      let (item, r) ←
        if leavesOut [.entry, .blockEnd] rest then scope.omitted ⟨rest, anchors⟩
        else scope.node true false bound ⟨rest, anchors⟩
      let (items, r) ← scope.blockItems bound r
      return (item :: items, r)
    | .blockEnd :: rest => .ok ([], ⟨rest, anchors⟩)
    | _ => .error (failureAt lexemes)

/-- The items of a list at the indentation of its key. -/
def Scope.flushItems (scope : Scope) : Nat → Remainder → Except Failure (List Node × Remainder)
  | 0, _ => .error .malformed
  | bound + 1, ⟨lexemes, anchors⟩ =>
    match lexemes with
    | .entry :: rest => do
      let (item, r) ←
        if leavesOut [.entry, .key, .value, .blockEnd] rest then scope.omitted ⟨rest, anchors⟩
        else scope.node true false bound ⟨rest, anchors⟩
      let (items, r) ← scope.flushItems bound r
      return (item :: items, r)
    | _ => .ok ([], ⟨lexemes, anchors⟩)

/-- The entries of a block table up to its end. From version 1.2 on a key may be left out. -/
def Scope.blockEntries (scope : Scope) :
    Nat → Remainder → Except Failure (List (Node × Node) × Remainder)
  | 0, _ => .error .malformed
  | bound + 1, ⟨lexemes, anchors⟩ =>
    match lexemes with
    | .blockEnd :: rest => .ok ([], ⟨rest, anchors⟩)
    | .key :: rest => do
      let (k, r) ←
        if leavesOut [.key, .value, .blockEnd] rest then scope.omitted ⟨rest, anchors⟩
        else scope.node true true bound ⟨rest, anchors⟩
      scope.blockValue bound k r
    | .value :: _ =>
      if 1 < scope.minor then do
        let (k, r) ← scope.omitted ⟨lexemes, anchors⟩
        scope.blockValue bound k r
      else .error .malformed
    | _ => .error (failureAt lexemes)

/-- The value of a key in a block table, and the further entries. -/
def Scope.blockValue (scope : Scope) :
    Nat → Node → Remainder → Except Failure (List (Node × Node) × Remainder)
  | 0, _, _ => .error .malformed
  | bound + 1, k, ⟨lexemes, anchors⟩ => do
    let (v, r) ←
      match lexemes with
      | .value :: rest =>
        if leavesOut [.key, .value, .blockEnd] rest then scope.omitted ⟨rest, anchors⟩
        else scope.node true true bound ⟨rest, anchors⟩
      | _ => scope.omitted ⟨lexemes, anchors⟩
    let (entries, r) ← scope.blockEntries bound r
    return ((k, v) :: entries, r)

/-- The items of a bracketed list up to its end. A single entry may stand without braces. -/
def Scope.listItems (scope : Scope) (first : Bool) :
    Nat → Remainder → Except Failure (List Node × Remainder)
  | 0, _ => .error .malformed
  | bound + 1, ⟨lexemes, anchors⟩ =>
    match lexemes, first with
    | .closeList :: rest, _ => .ok ([], ⟨rest, anchors⟩)
    | .comma :: rest, false => scope.listItem bound ⟨rest, anchors⟩
    | _, true => scope.listItem bound ⟨lexemes, anchors⟩
    | _, false => .error (failureAt lexemes)

def Scope.listItem (scope : Scope) : Nat → Remainder → Except Failure (List Node × Remainder)
  | 0, _ => .error .malformed
  | bound + 1, ⟨lexemes, anchors⟩ =>
    match lexemes with
    | .closeList :: rest => .ok ([], ⟨rest, anchors⟩)
    | .key :: rest => do
      let (k, r) ←
        if leavesOut [.value, .comma, .closeList] rest then scope.omitted ⟨rest, anchors⟩
        else scope.node false false bound ⟨rest, anchors⟩
      let (v, r) ← scope.flowValue .closeList bound r
      let (items, r) ← scope.listItems false bound r
      return (.table .table [(k, v)] :: items, r)
    | _ => do
      let (item, r) ← scope.node false false bound ⟨lexemes, anchors⟩
      let (items, r) ← scope.listItems false bound r
      return (item :: items, r)

/-- The entries of a bracketed table up to its end. -/
def Scope.tableEntries (scope : Scope) (first : Bool) :
    Nat → Remainder → Except Failure (List (Node × Node) × Remainder)
  | 0, _ => .error .malformed
  | bound + 1, ⟨lexemes, anchors⟩ =>
    match lexemes, first with
    | .closeTable :: rest, _ => .ok ([], ⟨rest, anchors⟩)
    | .comma :: rest, false => scope.tableEntry bound ⟨rest, anchors⟩
    | _, true => scope.tableEntry bound ⟨lexemes, anchors⟩
    | _, false => .error (failureAt lexemes)

/-- An entry of a bracketed table and the further ones. A node that is marked as no key has no
value. -/
def Scope.tableEntry (scope : Scope) :
    Nat → Remainder → Except Failure (List (Node × Node) × Remainder)
  | 0, _ => .error .malformed
  | bound + 1, ⟨lexemes, anchors⟩ => do
    match lexemes with
    | .closeTable :: rest => .ok ([], ⟨rest, anchors⟩)
    | _ =>
      let (k, v, r) ← do
        match lexemes, decide (1 < scope.minor) with
        | .key :: rest, _ =>
          let (k, r) ←
            if leavesOut [.value, .comma, .closeTable] rest then scope.omitted ⟨rest, anchors⟩
            else scope.node false false bound ⟨rest, anchors⟩
          let (v, r) ← scope.flowValue .closeTable bound r
          pure (k, v, r)
        | .value :: _, true =>
          let (k, r) ← scope.omitted ⟨lexemes, anchors⟩
          let (v, r) ← scope.flowValue .closeTable bound r
          pure (k, v, r)
        | _, _ =>
          let (k, r) ← scope.node false false bound ⟨lexemes, anchors⟩
          let (v, r) ← scope.omitted r
          pure (k, v, r)
      let (entries, r) ← scope.tableEntries false bound r
      return ((k, v) :: entries, r)

/-- The value behind a key inside brackets. -/
def Scope.flowValue (scope : Scope) (close : Lexeme) :
    Nat → Remainder → Except Failure (Node × Remainder)
  | 0, _ => .error .malformed
  | bound + 1, ⟨lexemes, anchors⟩ =>
    match lexemes with
    | .value :: rest =>
      if leavesOut [.comma, close] rest then scope.omitted ⟨rest, anchors⟩
      else scope.node false false bound ⟨rest, anchors⟩
    | _ => scope.omitted ⟨lexemes, anchors⟩

end

/-- The version and the handles that directives tell, each no more than once, and the rest. -/
def directives : Option Nat → List (String × String) → List Lexeme →
    Except Failure (Scope × List Lexeme)
  | minor?, handles, .directive content :: rest =>
    match content with
    | .version major minor =>
      if minor?.isSome ∨ major ≠ 1 then .error .malformed
      else directives (some minor) handles rest
    | .handle name front =>
      if (handles.lookup name).isSome then .error .malformed
      else directives minor? (handles ++ [(name, front)]) rest
    | .reserved => directives minor? handles rest
  | minor?, handles, rest => .ok (⟨minor?.getD defaultMinor, handles ++ standardHandles⟩, rest)

/-- Whether a lexeme stands at the boundary of a document. -/
def Lexeme.isBoundary : Lexeme → Bool
  | .documentStart | .documentEnd | .directive _ => true
  | _ => false

/-- The root of the document behind its start, and the rest. -/
def Scope.root (scope : Scope) (lexemes : List Lexeme) : Except Failure (Node × Remainder) :=
  let omitted := lexemes.head?.all Lexeme.isBoundary
  if omitted then scope.omitted ⟨lexemes, []⟩
  else scope.node true false (4 * lexemes.length + 4) ⟨lexemes, []⟩

/-- Passes by what may stand behind a document: nothing but its end, which version 1.1 may mark more
than once. -/
def Scope.finish (scope : Scope) (lexemes : List Lexeme) : Except Failure Unit :=
  match lexemes with
  | [] => .ok ()
  | .documentEnd :: rest =>
    let rest := if scope.minor = 1 then rest.dropWhile (· == .documentEnd) else rest
    if rest = [] then .ok () else .error (failureAt rest)
  | _ => .error (failureAt lexemes)

/-- The root of the document that a text consists of, and its version; an empty text has none. A
text with several documents is refused. -/
def rootOf (text : List Char) : Except Failure (Option (Node × Nat)) := do
  let lexemes := lexemes text
  match lexemes with
  | [] => return none
  | first :: _ =>
    let (scope, root, rest) ←
      match first with
      | .directive _ | .documentStart => do
        let (scope, rest) ← directives none [] lexemes
        match rest with
        | .documentStart :: body =>
          let (root, rest) ← scope.root body
          pure (scope, root, rest.lexemes)
        | _ => .error (failureAt rest)
      | _ => do
        let scope : Scope := ⟨defaultMinor, standardHandles⟩
        let (root, rest) ←
          scope.node true false (4 * lexemes.length + 4) ⟨lexemes, []⟩
        pure (scope, root, rest.lexemes)
    scope.finish rest
    return some (root, scope.minor)

end SolidGeometry.Yaml
