namespace SolidGeometry.Text

/-- The lines of a text behind the characters of a line begun before, the last of them first. -/
def linesBehind (begun : List Char) : List Char → List String
  | [] => if begun = [] then [] else [String.ofList begun.reverse]
  | '\r' :: '\n' :: rest => String.ofList begun.reverse :: linesBehind [] rest
  | c :: rest =>
    if c = '\n' ∨ c = '\r' then String.ofList begun.reverse :: linesBehind [] rest
    else linesBehind (c :: begun) rest

def lines (text : String) : List String := linesBehind [] text.toList

end SolidGeometry.Text
