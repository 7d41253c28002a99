import SolidGeometry.Grammar.Token

/-! The chart of a text: for every offset the rules that may be in progress there, found from left
to right. Nodes share what several readings have in common; the edges of a node are the ways in
which it was found, in the order of their discovery, and a syntax tree takes one edge of each. -/
namespace SolidGeometry.Grammar

/-- A rule of which the symbols before the dot have been found from `start` on. -/
structure Item where
  start : Nat
  dot : Nat
  rule : Rule
  deriving DecidableEq, Repr

def Item.next? (i : Item) : Option Symbol := i.rule.symbols[i.dot]?

def Item.advance (i : Item) : Item := { i with dot := i.dot + 1 }

/-- What a node stands for: a part of a rule, or a whole nonterminal by whichever rule. -/
inductive Label where
  | part (rule : Rule) (dot : Nat)
  | whole (origin : Nonterminal)
  deriving DecidableEq, Repr

/-- What has been found between two offsets. -/
structure Node where
  start : Nat
  stop : Nat
  label : Label
  deriving DecidableEq, Repr

def Item.label (i : Item) : Label :=
  match i.next? with
  | some _ => .part i.rule i.dot
  | none => .whole i.rule.origin

/-- The last symbol before the dot, as it was found. -/
inductive Child where
  | token (t : Token)
  | node (n : Node)
  deriving DecidableEq, Repr

/-- One way in which a node was found: the symbols before the last one, and the last one. -/
structure Edge where
  node : Node
  rule : Rule
  left? : Option Node
  right? : Option Child
  deriving DecidableEq, Repr

/-- An item with its node, which a rule has once one of its symbols has been found. -/
structure Entry where
  item : Item
  node? : Option Node
  deriving DecidableEq, Repr

/-- An entry that goes on at a later offset: behind a token, or unchanged behind separators. -/
structure Pending where
  stop : Nat
  entry : Entry
  token? : Option Token

/-- Adds an entry behind the others unless its item is there already. -/
def addEntry (entries : List Entry) (e : Entry) : List Entry :=
  if entries.any (·.item == e.item) then entries else entries ++ [e]

/-- Adds an edge behind the others unless the node was found in the same way before. -/
def addEdge (edges : List Edge) (e : Edge) : List Edge :=
  if edges.any fun d => d.node == e.node && d.left? == e.left? && d.right? == e.right? then edges
  else edges ++ [e]

def Entry.expectsToken (e : Entry) : Bool :=
  match e.item.next? with
  | some (.terminal _) => true
  | _ => false

/-- An entry moved over its next symbol, with the edge that records it. -/
def Entry.over (e : Entry) (right : Child) (stop : Nat) : Entry × Edge :=
  let item := e.item.advance
  let node : Node := ⟨item.start, stop, item.label⟩
  (⟨item, some node⟩, ⟨node, item.rule, e.node?, some right⟩)

/-- The work at one offset. The entries that expect a token are apart from the others; of the others
those still to be looked at are on the agenda, the latest first. -/
structure Work where
  column : List Entry
  scan : List Entry
  edges : List Edge
  agenda : List Entry
  /-- Nonterminals found without any character at this offset. -/
  held : List (Nonterminal × Node)

/-- Takes note of an entry at this offset. -/
def Work.add (w : Work) (e : Entry) : Work :=
  if e.expectsToken then { w with scan := addEntry w.scan e }
  else if w.column.any (·.item == e.item) then w
  else { w with column := w.column ++ [e], agenda := e :: w.agenda }

/-- Takes note of an entry that was moved over a nonterminal. -/
def Work.addOver (w : Work) (e : Entry) (found : Node) (offset : Nat) : Work :=
  let (entry, edge) := e.over (.node found) offset
  { w with edges := addEdge w.edges edge }.add entry

/-- The entries of a column that expect a nonterminal. -/
def expecting (column : List Entry) (n : Nonterminal) : List Entry :=
  column.filter fun e => e.item.next? == some (.nonterminal n)

/-- A nonterminal is found: every entry that expected it where it begins moves on. A rule without
symbols has no node yet and gets one. -/
def Work.complete (earlier : Array (List Entry)) (offset : Nat) (w : Work) (e : Entry) : Work :=
  let origin := e.item.rule.origin
  let node := e.node?.getD ⟨e.item.start, offset, .whole origin⟩
  let w := if e.node?.isSome then w
    else { w with edges := addEdge w.edges ⟨node, e.item.rule, none, none⟩ }
  let w := if e.item.start = offset then { w with held := (origin, node) :: w.held } else w
  let column := if e.item.start = offset then w.column else earlier[e.item.start]?.getD []
  (expecting column origin).foldl (fun w o => w.addOver o node offset) w

/-- A nonterminal is expected: its rules begin here, and if it was found without any character the
entry moves on. -/
def Work.predict (offset : Nat) (w : Work) (e : Entry) (n : Nonterminal) : Work :=
  let w := n.predictions.foldl (fun w rule => w.add ⟨⟨offset, 0, rule⟩, none⟩) w
  match w.held.lookup n with
  | some node => w.addOver e node offset
  | none => w

/-- Looks at the latest entry of the agenda. -/
def Work.step (earlier : Array (List Entry)) (offset : Nat) (w : Work) (e : Entry) : Work :=
  match e.item.next? with
  | none => w.complete earlier offset e
  | some (.nonterminal n) => w.predict offset e n
  | some (.terminal _) => w

/-- Looks at entries until the agenda is empty, at most as many as the bound says. -/
def Work.run (earlier : Array (List Entry)) (offset : Nat) : Nat → Work → Work
  | 0, w => w
  | bound + 1, w =>
    match w.agenda with
    | [] => w
    | e :: agenda => run earlier offset bound (step earlier offset { w with agenda := agenda } e)

/-- The number of places for a dot in all rules. -/
def dotCount : Nat :=
  (Nonterminal.all.flatMap Nonterminal.rules).foldl (fun n rule => n + rule.symbols.length + 1) 0

/-- A chart up to an offset: the columns and edges of all offsets before it, the entries and edges
that are known at it, and the entries that go on later. -/
structure Chart where
  columns : Array (List Entry)
  edges : Array (List Edge)
  column : List Entry
  scan : List Entry
  fresh : List Edge
  pending : List Pending

def Chart.initial : Chart :=
  let entries := Nonterminal.start.predictions.map fun rule => (⟨⟨0, 0, rule⟩, none⟩ : Entry)
  { columns := #[]
    edges := #[]
    column := entries.filter (!·.expectsToken)
    scan := entries.filter (·.expectsToken)
    fresh := []
    pending := [] }

def Chart.offset (c : Chart) : Nat := c.columns.size

/-- Finds all that begins or ends at the offset. -/
def Chart.close (c : Chart) : Chart :=
  let work : Work := ⟨c.column, c.scan, c.fresh, c.column.reverse, []⟩
  let work := work.run c.columns c.offset (dotCount * (c.offset + 1) + c.column.length)
  { c with column := work.column, scan := work.scan, fresh := work.edges }

/-- The entries of the offset that go on behind a token of theirs. -/
def Chart.tokens (c : Chart) (text : List Char) : List Pending :=
  c.scan.filterMap fun e =>
    match e.item.next? with
    | some (.terminal t) =>
      (t.match? text).map fun n => ⟨c.offset + n, e, some ⟨t, text.take n⟩⟩
    | _ => none

/-- Whether an entry is a whole reading from the first character on. -/
def Entry.isReading (e : Entry) : Bool :=
  e.item.rule.origin == .start && e.item.start == 0 && e.item.next? == none

/-- The entries of the offset that go on behind separators: all that expect a token, and whole
readings. -/
def Chart.skips (c : Chart) (text : List Char) : List Pending :=
  match separators? text with
  | none => []
  | some n =>
    (c.scan ++ c.column.filter fun e => e.item.rule.origin == .start && e.item.next? == none).map
      fun e => ⟨c.offset + n, e, none⟩

/-- An entry that arrives at an offset. -/
def Chart.arrive (stop : Nat) (c : Chart) (p : Pending) : Chart :=
  let (entry, fresh) := match p.token? with
    | none => (p.entry, c.fresh)
    | some token =>
      let (entry, edge) := p.entry.over (.token token) stop
      (entry, addEdge c.fresh edge)
  if entry.expectsToken then { c with scan := addEntry c.scan entry, fresh := fresh }
  else { c with column := addEntry c.column entry, fresh := fresh }

/-- Moves a closed chart over one character, `text` being all that lies ahead. -/
def Chart.move (c : Chart) (text : List Char) : Chart :=
  let pending := c.pending ++ c.tokens text ++ c.skips text
  let stop := c.offset + 1
  let next : Chart :=
    { columns := c.columns.push c.column
      edges := c.edges.push c.fresh
      column := []
      scan := []
      fresh := []
      pending := pending.filter (·.stop != stop) }
  (pending.filter (·.stop == stop)).foldl (Chart.arrive stop) next

/-- Whether no reading goes on. -/
def Chart.isStuck (c : Chart) : Bool :=
  c.column.isEmpty && c.scan.isEmpty && c.pending.isEmpty

/-- The closed chart of a text, or the offset at which no reading goes on. -/
def Chart.advance (c : Chart) : List Char → Except Nat Chart
  | [] => .ok c.close
  | text@(_ :: rest) =>
    let closed := c.close
    let next := closed.move text
    if next.isStuck then .error closed.offset else next.advance rest

end SolidGeometry.Grammar
