import RecordQuery.Calendar.Date

namespace RecordQuery

/-- A point of universal time. A leap second is the second before it with a billion nanoseconds
and more. -/
structure Instant where
  date : Date
  second : Nat
  nano : Nat
  second_lt : second < 86400
  nano_lt : nano < 2000000000
  deriving DecidableEq

structure UtcOffset where
  seconds : Int
  bounded : seconds.natAbs < 86400
  deriving DecidableEq

namespace UtcOffset

def zero : UtcOffset := ⟨0, by decide⟩

instance : Inhabited UtcOffset := ⟨zero⟩

def ofSeconds? (seconds : Int) : Option UtcOffset :=
  if h : seconds.natAbs < 86400 then some ⟨seconds, h⟩ else none

end UtcOffset

namespace Instant

def ofParts? (date : Date) (second nano : Nat) : Option Instant :=
  if h : second < 86400 ∧ nano < 2000000000 then some ⟨date, second, nano, h.1, h.2⟩ else none

def midnight (date : Date) : Instant := ⟨date, 0, 0, by decide, by decide⟩

def least : Instant := midnight .least

def greatest : Instant := ⟨.greatest, 86399, 999999999, by decide, by decide⟩

instance : Inhabited Instant := ⟨least⟩

instance : Ord Instant where
  compare a b :=
    (compare a.date.number b.date.number).then
      ((compare a.second b.second).then (compare a.nano b.nano))

def isMidnight (t : Instant) : Bool :=
  t.second == 0 && t.nano == 0

def ofSecond? (date : Date) (second : Int) (nano : Nat) : Option Instant :=
  (date.addDays? (second / 86400)).bind fun day => ofParts? day (second % 86400).toNat nano

/-- Moves by whole seconds and nanoseconds, the latter less than a second and of the sign of the
former. A leap second is left for the seconds around it unless the move stays inside of it. -/
def shift? (t : Instant) (seconds nanos : Int) : Option Instant :=
  let leap := 1000000000 ≤ t.nano
  let onward := 0 < seconds ∨ (0 < nanos ∧ (2000000000 : Int) ≤ t.nano + nanos)
  if leap ∧ ¬ onward ∧ ¬ seconds < 0 then
    ofParts? t.date t.second (t.nano + nanos).toNat
  else
    let second : Int := if leap ∧ ¬ onward then t.second + 1 else t.second
    let nano : Int := (if leap then (t.nano : Int) - 1000000000 else t.nano) + nanos
    ofSecond? t.date (second + seconds + nano / 1000000000) (nano % 1000000000).toNat

def addSeconds? (t : Instant) (seconds : Int) : Option Instant :=
  t.shift? seconds 0

def subMillisecond? (t : Instant) : Option Instant :=
  t.shift? 0 (-1000000)

def addMonths? (t : Instant) (months : Int) : Option Instant :=
  (t.date.addMonths? months).map fun date => { t with date }

def localDate? (t : Instant) (offset : UtcOffset) : Option Date :=
  t.date.addDays? ((t.second + offset.seconds) / 86400)

def startOfDay (date : Date) (offset : UtcOffset) : Instant :=
  ((midnight date).addSeconds? (-offset.seconds)).getD
    (if 0 < offset.seconds then least else greatest)

def endOfDay (date : Date) (offset : UtcOffset) : Instant :=
  ((date.addDays? 1).bind fun next => (startOfDay next offset).subMillisecond?).getD greatest

def dayWindow (first last : Date) (offset : UtcOffset) : Instant × Instant :=
  (startOfDay first offset, endOfDay last offset)

def fractionChars (nano : Nat) : List Char :=
  if nano = 0 then []
  else if nano % 1000000 = 0 then '.' :: Text.paddedChars 3 (nano / 1000000)
  else if nano % 1000 = 0 then '.' :: Text.paddedChars 6 (nano / 1000)
  else '.' :: Text.paddedChars 9 nano

def localChars (t : Instant) : List Char :=
  let second := t.second % 60 + t.nano / 1000000000
  t.date.toChars ++ 'T' :: Text.paddedChars 2 (t.second / 3600) ++
    ':' :: Text.paddedChars 2 (t.second / 60 % 60) ++
    ':' :: Text.paddedChars 2 second ++ fractionChars (t.nano % 1000000000)

def text (t : Instant) : String :=
  String.ofList (t.localChars ++ ['+', '0', '0', ':', '0', '0'])

def zuluText (t : Instant) : String :=
  String.ofList (t.localChars ++ ['Z'])

instance : ToString Instant := ⟨text⟩

end Instant

end RecordQuery
