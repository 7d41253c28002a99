namespace SolidGeometry.Text

/-- The six bits of a character of the alphabet. -/
def sextet? (c : Char) : Option Nat :=
  if 'A' ≤ c ∧ c ≤ 'Z' then some (c.toNat - 'A'.toNat)
  else if 'a' ≤ c ∧ c ≤ 'z' then some (c.toNat - 'a'.toNat + 26)
  else if '0' ≤ c ∧ c ≤ '9' then some (c.toNat - '0'.toNat + 52)
  else if c = '+' then some 62
  else if c = '/' then some 63
  else none

/-- The whole bytes that the sextets of a group hold. -/
def groupBytes : List Nat → List UInt8
  | a :: b :: more =>
    UInt8.ofNat (4 * a + b / 16) ::
      match more with
      | c :: more =>
        UInt8.ofNat (b % 16 * 16 + c / 4) :: more.map fun d => UInt8.ofNat (c % 4 * 64 + d)
      | [] => []
  | _ => []

/-- The bytes of a text behind the sextets of an unfinished group and the equals signs directly
behind them. A group that stays unfinished is refused. -/
def base64From (group : List Nat) (fill : Nat) : List Char → Option (List UInt8)
  | [] => if group = [] then some [] else none
  | c :: rest =>
    if c = '=' then
      if group.length < 2 then base64From group fill rest
      else if group.length + fill + 1 < 4 then base64From group (fill + 1) rest
      else some (groupBytes group)
    else
      match sextet? c with
      | none => base64From group fill rest
      | some bits =>
        if group.length < 3 then base64From (group ++ [bits]) 0 rest
        else (base64From [] 0 rest).map (groupBytes (group ++ [bits]) ++ ·)

def ofBase64? (text : List Char) : Option ByteArray :=
  if text.all fun c => c.toNat < 128 then (base64From [] 0 text).map fun bytes => ⟨bytes.toArray⟩
  else none

end SolidGeometry.Text
