namespace SolidGeometry

/-- What stands at a path. -/
inductive Entry where
  | text (content : String)
  | folder
  deriving DecidableEq, Repr

structure Files where
  entries : List (String × Entry)
  deriving DecidableEq, Repr

/-- A path without empty parts and without parts that lead nowhere. Two slashes in front are a root
of their own. -/
def normalPath (path : String) : String :=
  let slashes := (path.toList.takeWhile (· == '/')).length
  let front := if slashes = 2 then "//" else if slashes = 0 then "" else "/"
  let parts := (path.splitOn "/").filter fun part => part ≠ "" ∧ part ≠ "."
  let normal := front ++ "/".intercalate parts
  if normal = "" then "." else normal

namespace Files

def empty : Files := ⟨[]⟩

def find? (files : Files) (path : String) : Option Entry :=
  let normal := normalPath path
  if path = "" then none
  else if normal ∈ [".", "..", "/", "//"] then some .folder
  else
    match files.entries.find? fun entry => normalPath entry.1 == normal with
    | some entry => some entry.2
    | none =>
      if files.entries.any fun entry => (normalPath entry.1).startsWith (normal ++ "/") then
        some .folder
      else none

def text? (files : Files) (path : String) : Option String :=
  match files.find? path with
  | some (.text content) => some content
  | _ => none

def write (files : Files) (path content : String) : Files :=
  let others := files.entries.filter fun entry => normalPath entry.1 != normalPath path
  ⟨(path, .text content) :: others⟩

end Files

end SolidGeometry
