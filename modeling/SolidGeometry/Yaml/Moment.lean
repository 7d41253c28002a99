import SolidGeometry.Number.Digits
import SolidGeometry.Settings.Datum
import SolidGeometry.Yaml.Cursor
import SolidGeometry.Yaml.Failure

namespace SolidGeometry.Yaml
open Number

def dropLastFeed (text : List Char) : List Char :=
  if text.getLast? = some '\n' then text.dropLast else text

/-- The distance of a time zone from world time. -/
structure Offset where
  negative : Bool
  hours : Nat
  minutes : Nat

/-- A time of day: the digits behind the point of the seconds, and the offset if one is told. -/
structure Clock where
  hour : Nat
  minute : Nat
  second : Nat
  places : List Char
  offset? : Option Offset

/-- A moment as it is written, whether or not there is such a one. -/
structure MomentText where
  year : Nat
  month : Nat
  day : Nat
  clock? : Option Clock

/-- The number at the front of a text, if its digits are as many as asked for, and the rest. -/
def digits? (least most : Nat) (text : List Char) : Option (Nat × List Char) :=
  let digits := text.takeWhile isDigit
  if least ≤ digits.length ∧ digits.length ≤ most then
    some (ofDigits digits, text.drop digits.length)
  else none

/-- The text behind a character. -/
def dropMark? (mark : Char) : List Char → Option (List Char)
  | c :: rest => if c = mark then some rest else none
  | [] => none

def Offset.ofText? (text : List Char) : Option (Option Offset) :=
  let signed (negative : Bool) (rest : List Char) : Option (Option Offset) := do
    let (hours, rest) ← digits? 1 2 rest
    if rest = [] then return some ⟨negative, hours, 0⟩
    let (minutes, rest) ← digits? 2 2 (← dropMark? ':' rest)
    if rest = [] then return some ⟨negative, hours, minutes⟩ else none
  match text, text.dropWhile isSpace with
  | [], _ => some none
  | _, ['Z'] => some (some ⟨false, 0, 0⟩)
  | _, '+' :: rest => signed false rest
  | _, '-' :: rest => signed true rest
  | _, _ => none

def Clock.ofText? (text : List Char) : Option Clock := do
  let (hour, rest) ← digits? 1 2 text
  let (minute, rest) ← digits? 2 2 (← dropMark? ':' rest)
  let (second, rest) ← digits? 2 2 (← dropMark? ':' rest)
  let (places, rest) := match rest with
    | '.' :: rest => (rest.takeWhile isDigit, rest.dropWhile isDigit)
    | _ => ([], rest)
  return ⟨hour, minute, second, places, ← Offset.ofText? rest⟩

/-- The moment that a text consists of. Blanks or the letter `T` stand between date and time. -/
def MomentText.ofText? (text : List Char) : Option MomentText := do
  let (year, rest) ← digits? 4 4 text
  let (month, rest) ← digits? 1 2 (← dropMark? '-' rest)
  let (day, rest) ← digits? 1 2 (← dropMark? '-' rest)
  let clock? ← match rest, rest.dropWhile isSpace with
    | [], _ => some none
    | 'T' :: rest, _ | 't' :: rest, _ => (Clock.ofText? rest).map some
    | _, spaced => if spaced.length < rest.length then (Clock.ofText? spaced).map some else none
  return ⟨year, month, day, clock?⟩

/-- Whether a plain scalar is a moment. A date without a time has two digits for month and day. -/
def isMoment (text : List Char) : Bool :=
  (MomentText.ofText? text).any fun m => m.clock?.isSome || text.length == 10

def isLeapYear (year : Nat) : Bool := year % 4 == 0 && (year % 100 != 0 || year % 400 == 0)

def monthLengths (year : Nat) : List Nat :=
  [31, if isLeapYear year then 29 else 28, 31, 30, 31, 30, 31, 31, 30, 31, 30, 31]

/-- The number of days in front of a year, counted from the year one on. -/
def daysBefore (year : Nat) : Nat :=
  let past := year - 1
  365 * past + past / 4 - past / 100 + past / 400

/-- The number of a day, counted from the first of January of the year one on. -/
def dayNumber (year month day : Nat) : Nat :=
  daysBefore year + ((monthLengths year).take (month - 1)).foldl Nat.add 0 + day - 1

/-- The number of the day after the last one of the calendar. -/
def calendarEnd : Nat := daysBefore 10000

def MomentText.dayNumber (m : MomentText) : Except MomentFault Nat :=
  if m.year = 0 then .error (.year m.year)
  else if m.month = 0 ∨ 12 < m.month then .error .month
  else if m.day = 0 ∨ (monthLengths m.year).getD (m.month - 1) 0 < m.day then .error .day
  else .ok (Yaml.dayNumber m.year m.month m.day)

/-- Millionths of a second from decimal places, rounded at the seventh of them. -/
def microseconds (places : List Char) : Nat :=
  let padded := places ++ List.replicate (6 - places.length) '0'
  let carry := if (places.drop 6).head?.any ('5' ≤ ·) then 1 else 0
  ofDigits (padded.take 6) + carry

/-- The minutes of an offset, which is less than a day. -/
def Offset.total (o : Offset) : Except MomentFault Int :=
  let minutes : Int := 60 * o.hours + o.minutes
  let minutes := if o.negative then -minutes else minutes
  if 1440 ≤ minutes.natAbs then .error (.offset minutes) else .ok minutes

/-- The moment of a day at a time. With an offset it is an instant of world time. -/
def Clock.at (c : Clock) (day : Except MomentFault Nat) : Except MomentFault Moment := do
  let offset? ← match c.offset? with
    | some offset => (offset.total).map some
    | none => .ok none
  let day ← day
  if 23 < c.hour then .error .hour
  else if 59 < c.minute then .error .minute
  else if 59 < c.second then .error .second
  else
    let seconds := ((24 * day + c.hour) * 60 + c.minute) * 60 + c.second
    let time := 1000000 * seconds + microseconds c.places
    if 1000000 * 86400 * calendarEnd ≤ time then .error .tooLate
    else
      match offset? with
      | some offset => return .instant ((time : Int) - 60000000 * offset)
      | none => return .clock time

/-- The moment that a text stands for. -/
def MomentText.moment (m : MomentText) : Except MomentFault Moment :=
  match m.clock? with
  | some clock => clock.at m.dayNumber
  | none => m.dayNumber.map .day

def momentOf (text : List Char) : Except Failure Moment :=
  match MomentText.ofText? (dropLastFeed text) with
  | some m => m.moment.mapError .moment
  | none => .error .malformed

end SolidGeometry.Yaml
