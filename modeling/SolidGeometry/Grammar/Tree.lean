import SolidGeometry.Grammar.Chart
import SolidGeometry.Text.Quoted

/-! Syntax trees. Of the edges of a node that stands for a nonterminal the one with the earliest
rule is taken, of the edges of a part of a rule the first one found. -/
namespace SolidGeometry.Grammar

/-- A syntax tree without brackets, links and marks. -/
inductive Tree where
  | token (t : Token)
  | node (construct : Construct) (children : List Tree)
  deriving Repr

mutual

/-- Equality is decided by hand, since a tree holds its parts in a list. -/
def Tree.decEq : (a b : Tree) → Decidable (a = b)
  | .token s, .token t => decidable_of_iff (s = t) (by rw [Tree.token.injEq])
  | .node c xs, .node d ys =>
    have := Tree.decEqAll xs ys
    decidable_of_iff (c = d ∧ xs = ys) (by rw [Tree.node.injEq])
  | .token _, .node _ _ | .node _ _, .token _ => .isFalse nofun

def Tree.decEqAll : (xs ys : List Tree) → Decidable (xs = ys)
  | [], [] => .isTrue rfl
  | x :: xs, y :: ys =>
    have := Tree.decEq x y
    have := Tree.decEqAll xs ys
    decidable_of_iff (x = y ∧ xs = ys) (by rw [List.cons.injEq])
  | [], _ :: _ | _ :: _, [] => .isFalse nofun

end

instance : DecidableEq Tree := Tree.decEq

def Construct.label : Construct → String
  | .vectorFunction => "vector_function"
  | .pointOnLine => "lwith"
  | .planeFunction => "plane_function"
  | .pointOnPlane => "pwith"
  | .lineThroughPoints => "line_from_points"
  | .planeThroughPoints => "plane_from_points"
  | .generic => "generic_function"
  | .vector => "vector"
  | .line => "line"
  | .span => "pplane"
  | .plane => "plane"
  | .number => "number"

/-- Whether a construct is a literal or a part of one, and so named by its rule. -/
def Construct.isLiteral : Construct → Bool
  | .vector | .line | .span | .plane | .number => true
  | _ => false

def Terminal.label : Terminal → String
  | .vectorFunction => "VECTOR_FN1"
  | .pairFunction => "VECTOR_FN2"
  | .planeFunction => "PLANE_FN"
  | .generic => "GENERIC_FN"
  | .number => "NUMBER"
  | .word => "_WORD"
  | .opening => "_OPEN"
  | .closing => "_CLOSE"
  | .lwith => "LWITH"
  | .pwith => "PWITH"
  | .line => "LINE"
  | .plane => "PLANE"
  | .openNested => "LPAR"
  | .closeNested => "RPAR"
  | .plus => "PLUS"
  | .star => "STAR"
  | .x => "X"
  | .y => "Y"
  | .z => "Z"
  | .equals => "EQUAL"
  | .zero => "0"

/-- The name of a construct in a log record, with its provenance. -/
def Construct.tag (c : Construct) : String :=
  let name := Text.quoted c.label
  if c.isLiteral then s!"Token('RULE', {name})" else name

def Token.describe (t : Token) : String :=
  let name := Text.quoted t.terminal.label
  let text := Text.quoted (String.ofList t.text)
  s!"Token({name}, {text})"

mutual

/-- A tree on one line, as log records show it. -/
def Tree.describe : Tree → String
  | .token t => t.describe
  | .node c children =>
    "Tree(" ++ c.tag ++ ", [" ++ ", ".intercalate (Tree.describeAll children) ++ "])"

def Tree.describeAll : List Tree → List String
  | [] => []
  | t :: ts => t.describe :: Tree.describeAll ts

end

/-- The edge of a node that a syntax tree takes. -/
def pickEdge? (edges : Array (List Edge)) (n : Node) : Option Edge :=
  let found := (edges[n.stop]?.getD []).filter (·.node == n)
  match n.label with
  | .part _ _ => found.head?
  | .whole _ =>
    found.foldl (fun best e =>
      match best with
      | none => some e
      | some b => if e.rule.order < b.rule.order then some e else some b) none

/-- The trees of what a node stands for, from left to right. The first number bounds the depth. -/
def Node.trees (edges : Array (List Edge)) : Nat → Node → List Tree
  | 0, _ => []
  | bound + 1, n =>
    match pickEdge? edges n with
    | none => []
    | some e =>
      let left := e.left?.elim [] (trees edges bound)
      let right := match e.right? with
        | none => []
        | some (.token t) => if t.terminal.isKept then [.token t] else []
        | some (.node m) => trees edges bound m
      match n.label, e.rule.construct? with
      | .whole _, some construct => [.node construct (left ++ right)]
      | _, _ => left ++ right

/-- The trees of the first whole reading in a closed chart. -/
def Chart.reading? (c : Chart) : Option (List Tree) := do
  let entry ← c.column.find? Entry.isReading
  let node ← entry.node?
  let edges := c.edges.push c.fresh
  return node.trees edges (edges.foldl (fun n column => n + column.length) 1)

end SolidGeometry.Grammar
