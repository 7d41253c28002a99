import SolidGeometry.Text.Base64
import SolidGeometry.Yaml.Attempt
import SolidGeometry.Yaml.Key
import SolidGeometry.Yaml.Node
import SolidGeometry.Yaml.Numeral

namespace SolidGeometry.Yaml

def trueWords : List String := ["yes", "y", "true", "on"]

def falseWords : List String := ["no", "n", "false", "off"]

/-- The truth value that a word stands for. -/
def flagOf (text : String) : Except Failure Bool :=
  let word := Text.lowercase text
  if word ∈ trueWords then .ok true
  else if word ∈ falseWords then .ok false
  else .error (.flag word)

/-- What a scalar of a type stands for. -/
def Tag.datum (tag : Tag) (minor : Nat) (text : String) : Except Failure Datum :=
  match tag with
  | .null => .ok .null
  | .flag => (flagOf text).map .flag
  | .int => (integerOf minor text).map .int
  | .float => (floatOf minor text).map .float
  | .bytes => (Text.ofBase64? text.toList).elim (.error .malformed) fun bytes => .ok (.bytes bytes)
  | .moment => (momentOf text.toList).map .moment
  | .text => .ok (.text text)
  | _ => .error .malformed

mutual

/-- The scalar that a node stands for, which for a table is the one under its default key. -/
def Node.scalarText? : Node → Option String
  | .scalar _ text => some text
  | .table _ entries => Node.defaultText? entries
  | _ => none

def Node.defaultText? : List (Node × Node) → Option String
  | [] => none
  | (k, v) :: rest => if k.tag = .default then v.scalarText? else Node.defaultText? rest

end

/-- The text of a key that is not looked up but taken as it is. -/
def Node.plainKey (k : Node) : Attempt Datum :=
  match k.scalarText? with
  | some text => pure (.text text)
  | none => .fail .malformed .null

def Tag.isScalar : Tag → Bool
  | .null | .flag | .int | .float | .bytes | .text => true
  | _ => false

/-- Whether nodes of a type are filled after they are made. -/
def Tag.isCollection : Tag → Bool
  | .list | .table | .ordered | .pairs | .set => true
  | _ => false

abbrev Entries := List (Datum × Datum)

def hasKey (entries : Entries) (key : Datum) : Bool := entries.any fun entry => entry.1.sameKey key

/-- The entries with one more, which replaces the one with the same key. -/
def putEntry (entries : Entries) (entry : Datum × Datum) : Entries :=
  if hasKey entries entry.1 then
    entries.map fun old => if old.1.sameKey entry.1 then (old.1, entry.2) else old
  else entries ++ [entry]

/-- The entries of a table: those that are merged into it and its own. -/
structure Body where
  merged : List (Attempt (Datum × Datum))
  own : List (Attempt (Datum × Datum))

def Body.all (body : Body) : List (Attempt (Datum × Datum)) := body.merged ++ body.own

/-- The entries of a table, in the order in which they are met. A table into which others are merged
may hold a key twice, and keeps the last entry; in any other table that is refused. -/
def Body.entries (body : Body) : Attempt Entries :=
  body.all.foldlM
    (fun entries attempt => do
      let entry ← attempt
      if body.merged.isEmpty && hasKey entries entry.1 then .fail .malformed entries
      else return putEntry entries entry)
    []

/-- An entry from its key and its value. A list or table with changing parts is no key. -/
def entryOf (key value : Attempt Datum) : Attempt (Datum × Datum) := do
  let key := (← key).fixed
  Attempt.check (match key with
    | .table _ | .set _ => some .malformed
    | _ => none)
  let value ← value
  Attempt.check (key.changingPart?.map .key)
  return (key, value)

/-- An ordered table with a key that it does not hold yet. -/
def newKey (entries : Entries) (key : Datum) : Attempt Unit :=
  match key.changingPart? with
  | some part => Attempt.check (some (.key part))
  | none => Attempt.check (if hasKey entries key then some .repeated else none)

/-- What a node stands for before it is filled. -/
def Tag.shell (tag : Tag) (ofTable : Bool) : Datum :=
  match tag, ofTable with
  | .set, _ => .set []
  | .ordered, _ => .table []
  | .pairs, _ => .list []
  | _, true => .table []
  | _, false => .list []

mutual

/-- What a node stands for, in a document of a version. The keys of tables are made at once. -/
def Node.datum (minor : Nat) (atOnce : Bool) : Node → Attempt Datum
  | .loop tag ofTable => pure (if atOnce then .null else tag.shell ofTable)
  | .scalar tag text =>
    Attempt.inside (atOnce || !tag.isCollection) (.ofExcept (tag.datum minor text))
  | .list tag items =>
    match tag with
    | .list => Attempt.inside atOnce (.list <$> Node.items minor atOnce items)
    | .pairs => Attempt.inside atOnce (.list <$> Node.pairs minor atOnce items)
    | .ordered => Attempt.inside atOnce (.table <$> Node.ordered minor atOnce [] items)
    | _ => Attempt.inside (atOnce || !tag.isCollection) (.fail .malformed .null)
  | .table tag entries =>
    match tag with
    | .table => Attempt.inside atOnce do
      let some body := Node.body minor atOnce ⟨[], []⟩ entries | .fail .malformed .null
      return .table (← body.entries)
    | .set => Attempt.inside atOnce do
      let some body := Node.body minor atOnce ⟨[], []⟩ entries | .fail .malformed .null
      return .set ((← body.entries).map (·.1))
    | _ =>
      match (Node.table tag entries).scalarText?, tag.isScalar with
      | some text, true => .ofExcept (tag.datum minor text)
      | _, _ => Attempt.inside (atOnce || !tag.isCollection) (.fail .malformed .null)

def Node.items (minor : Nat) (atOnce : Bool) : List Node → Attempt (List Datum)
  | [] => pure []
  | item :: rest => do
    let datum ← item.datum minor atOnce
    return datum :: (← Node.items minor atOnce rest)

/-- Items that are tables with one entry each, as tuples of a key and a value. -/
def Node.pairs (minor : Nat) (atOnce : Bool) : List Node → Attempt (List Datum)
  | [] => pure []
  | .table _ [(k, v)] :: rest => do
    let key ← k.datum minor atOnce
    let value ← v.datum minor atOnce
    return .tuple [key, value] :: (← Node.pairs minor atOnce rest)
  | _ => .fail .malformed []

/-- Items that are tables with one entry each, as the further entries of a table. -/
def Node.ordered (minor : Nat) (atOnce : Bool) (entries : Entries) : List Node → Attempt Entries
  | [] => pure entries
  | .table _ [(k, v)] :: rest => do
    let key ← k.datum minor atOnce
    newKey entries key
    let value ← v.datum minor atOnce
    Node.ordered minor atOnce (entries ++ [(key, value)]) rest
  | _ => .fail .malformed []

/-- The entries of a table behind those already found. Nothing is merged twice. -/
def Node.body (minor : Nat) (atOnce : Bool) (found : Body) : List (Node × Node) → Option Body
  | [] => some found
  | (k, v) :: rest =>
    if k.tag = .merge then
      if found.merged.isEmpty then
        match v.merging minor atOnce with
        | some merged => Node.body minor atOnce { found with merged := merged } rest
        | none => none
      else none
    else
      let key := if k.tag = .default then k.plainKey else k.datum minor true
      let entry := entryOf key (v.datum minor atOnce)
      Node.body minor atOnce { found with own := found.own ++ [entry] } rest

/-- The entries of a table to be merged, or of all tables of a list, the first ones last. -/
def Node.merging (minor : Nat) (atOnce : Bool) : Node → Option (List (Attempt (Datum × Datum)))
  | .table _ entries => (Node.body minor atOnce ⟨[], []⟩ entries).map Body.all
  | .list _ items => Node.mergingAll minor atOnce items
  | .loop _ _ => some []
  | .scalar _ _ => none

def Node.mergingAll (minor : Nat) (atOnce : Bool) :
    List Node → Option (List (Attempt (Datum × Datum)))
  | [] => some []
  | .table _ entries :: rest => do
    let body ← Node.body minor atOnce ⟨[], []⟩ entries
    let further ← Node.mergingAll minor atOnce rest
    return further ++ body.all
  | .loop _ true :: rest => Node.mergingAll minor atOnce rest
  | _ => none

end

/-- What a YAML text stands for, null if it is empty. -/
def datumOfText (text : String) : Except Failure Datum := do
  match ← rootOf text.toList with
  | some (root, minor) => (root.datum minor false).toExcept
  | none => return .null

end SolidGeometry.Yaml
