namespace SolidGeometry.Text

def commonFront : List Char → List Char → Nat
  | a :: as, b :: bs => if a = b then commonFront as bs + 1 else 0
  | _, _ => 0

/-- A block of characters that two texts share: where it begins in each of them, and its length. -/
structure Block where
  first : Nat
  second : Nat
  length : Nat
  deriving DecidableEq, Repr

/-- The longest common block, the foremost one of several. -/
def longestBlock (a b : List Char) : Block :=
  let blocks := (List.range a.length).flatMap fun i =>
    (List.range b.length).map fun j => (⟨i, j, commonFront (a.drop i) (b.drop j)⟩ : Block)
  blocks.foldl (fun best block => if best.length < block.length then block else best) ⟨0, 0, 0⟩

/-- The number of characters in common blocks, at most as many of them as the bound says. -/
def commonCount : Nat → List Char → List Char → Nat
  | 0, _, _ => 0
  | bound + 1, a, b =>
    let block := longestBlock a b
    if block.length = 0 then 0
    else
      block.length + commonCount bound (a.take block.first) (b.take block.second) +
        commonCount bound (a.drop (block.first + block.length))
          (b.drop (block.second + block.length))

/-- The share of two words that lies in common blocks. -/
def similarity (a b : String) : Rat :=
  mkRat (2 * commonCount (a.length + 1) a.toList b.toList) (a.length + b.length)

/-- The least similarity of words that may be taken for each other. -/
def similarityLimit : Rat := mkRat 3 5

/-- Whether two words are of such lengths that the shorter one can be similar to the longer one. -/
def isComparable (a b : String) : Bool :=
  decide (similarityLimit ≤ mkRat (2 * min a.length b.length) (a.length + b.length))

/-- The three words most similar to a given one, in alphabetical order. -/
def similarWords (word : String) (candidates : List String) : List String :=
  let scored := (candidates.filter (isComparable word)).map fun c => (similarity c word, c)
  let close := scored.filter fun s => decide (similarityLimit ≤ s.1)
  let ranked := close.mergeSort fun s t =>
    decide (t.1 < s.1) || (s.1 == t.1 && decide (t.2 ≤ s.2))
  ((ranked.take 3).map (·.2)).mergeSort fun s t => decide (s ≤ t)

end SolidGeometry.Text
