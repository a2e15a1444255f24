import RecordQuery.Text.Numeral

namespace RecordQuery

def isLeapYear (year : Int) : Bool :=
  year % 4 == 0 && (year % 100 != 0 || year % 400 == 0)

def monthLength (year : Int) : Nat → Nat
  | 2 => if isLeapYear year then 29 else 28
  | 4 | 6 | 9 | 11 => 30
  | _ => 31

structure Date.Valid (year : Int) (month day : Nat) : Prop where
  first_year : -262143 ≤ year
  last_year : year ≤ 262142
  first_month : 1 ≤ month
  last_month : month ≤ 12
  first_day : 1 ≤ day
  last_day : day ≤ monthLength year month

instance (year : Int) (month day : Nat) : Decidable (Date.Valid year month day) :=
  decidable_of_iff
    ((-262143 ≤ year ∧ year ≤ 262142) ∧ (1 ≤ month ∧ month ≤ 12) ∧
      (1 ≤ day ∧ day ≤ monthLength year month))
    ⟨fun h => ⟨h.1.1, h.1.2, h.2.1.1, h.2.1.2, h.2.2.1, h.2.2.2⟩,
      fun h => ⟨⟨h.1, h.2⟩, ⟨h.3, h.4⟩, ⟨h.5, h.6⟩⟩⟩

structure Date where
  year : Int
  month : Nat
  day : Nat
  valid : Date.Valid year month day
  deriving DecidableEq

namespace Date

def firstYear : Int := -262143

def lastYear : Int := 262142

def ofParts? (year : Int) (month day : Nat) : Option Date :=
  if h : Valid year month day then some ⟨year, month, day, h⟩ else none

def least : Date := ⟨-262143, 1, 1, by decide⟩

def greatest : Date := ⟨262142, 12, 31, by decide⟩

instance : Inhabited Date := ⟨least⟩

def daysBeforeYear (year : Int) : Int :=
  365 * (year - 1) + (year - 1) / 4 - (year - 1) / 100 + (year - 1) / 400

def daysBeforeMonth (year : Int) : Nat → Nat
  | 0 => 0
  | 1 => 0
  | month + 1 => daysBeforeMonth year month + monthLength year month

def number (date : Date) : Int :=
  daysBeforeYear date.year + daysBeforeMonth date.year date.month + date.day

instance : LE Date := ⟨fun a b => a.number ≤ b.number⟩

instance : LT Date := ⟨fun a b => a.number < b.number⟩

instance (a b : Date) : Decidable (a ≤ b) := inferInstanceAs (Decidable (a.number ≤ b.number))

instance (a b : Date) : Decidable (a < b) := inferInstanceAs (Decidable (a.number < b.number))

instance : Ord Date := ⟨fun a b => compare a.number b.number⟩

def yearOfNumber (n : Int) : Int :=
  let guess := (n - 1) * 400 / 146097 + 1
  if n ≤ daysBeforeYear guess then guess - 1
  else if daysBeforeYear (guess + 1) < n then guess + 1
  else guess

def splitDay (year : Int) (month day : Nat) : (months : Nat) → Nat × Nat
  | 0 => (month, day)
  | months + 1 =>
    if day ≤ monthLength year month then (month, day)
    else splitDay year (month + 1) (day - monthLength year month) months

def ofNumber? (n : Int) : Option Date :=
  let year := yearOfNumber n
  let (month, day) := splitDay year 1 (n - daysBeforeYear year).toNat 11
  ofParts? year month day

def addDays? (date : Date) (days : Int) : Option Date :=
  ofNumber? (date.number + days)

def previous (date : Date) : Date :=
  (date.addDays? (-1)).getD date

def addMonths? (date : Date) (months : Int) : Option Date :=
  let index := date.year * 12 + (date.month - 1 : Nat) + months
  let year := index / 12
  let month := (index % 12).toNat + 1
  ofParts? year month (min date.day (monthLength year month))

def addMonths (date : Date) (months : Int) : Date :=
  (date.addMonths? months).getD date

def daysSinceSunday (date : Date) : Int :=
  date.number % 7

def weekStart (date : Date) : Date :=
  (date.addDays? (-date.daysSinceSunday)).getD least

def closedMonthLength (year : Int) (month : Nat) : Nat :=
  if month = 12 ∧ year = lastYear then 28 else monthLength year month

/-- The day of a month, moved into the month; the first day of the calendar for no month of it. -/
def clamped (year : Int) (month day : Nat) : Date :=
  (ofParts? year month (max 1 (min day (closedMonthLength year month)))).getD least

def monthBounds (date : Date) : Date × Date :=
  let first := clamped date.year date.month 1
  (first, (first.addMonths 1).previous)

def yearBounds (date : Date) : Date × Date :=
  (clamped date.year 1 1, clamped date.year 12 31)

def yearChars (year : Int) : List Char :=
  if 0 ≤ year ∧ year ≤ 9999 then Text.paddedChars 4 year.toNat
  else (if year < 0 then '-' else '+') :: Text.paddedChars 4 year.natAbs

def toChars (date : Date) : List Char :=
  yearChars date.year ++ '-' :: Text.paddedChars 2 date.month ++
    '-' :: Text.paddedChars 2 date.day

def text (date : Date) : String := String.ofList date.toChars

instance : ToString Date := ⟨text⟩

end Date

end RecordQuery
