import Casework.Text.Blank

/-!
# Points in time

A point in time is a number of nanoseconds since the start of 1970. `ofText?` reads a date and a
time of day with an offset, and does not mind blanks between their parts; `render` writes one in
universal time with as many groups of three fraction digits as are needed.
-/

namespace Casework

structure Time where
  nanoseconds : Int
deriving DecidableEq, Repr

namespace Time

def ofSeconds (n : Int) : Time := ⟨n * 1000000000⟩

instance : LE Time := ⟨fun a b => a.nanoseconds ≤ b.nanoseconds⟩

instance (a b : Time) : Decidable (a ≤ b) :=
  inferInstanceAs (Decidable (a.nanoseconds ≤ b.nanoseconds))

def isLeapYear (y : Int) : Bool := y % 4 == 0 && (y % 100 != 0 || y % 400 == 0)

def daysIn (year : Int) (month : Nat) : Nat :=
  if month = 2 then if isLeapYear year then 29 else 28
  else if month = 4 ∨ month = 6 ∨ month = 9 ∨ month = 11 then 30 else 31

/-- Days since the start of 1970. The year begins in March here, so that a leap day ends it. -/
def dayNumber (year : Int) (month day : Nat) : Int :=
  let y := if month ≤ 2 then year - 1 else year
  let m := (month + 9) % 12
  365 * y + y / 4 - y / 100 + y / 400 + (153 * m + 2) / 5 + day - 1 - 719468

/-- Year, month and day of a day number. -/
def civil (days : Int) : Int × Nat × Nat :=
  let z := days + 719468
  let era := z / 146097
  let dayOfEra := (z - era * 146097).toNat
  let yearOfEra := (dayOfEra - dayOfEra / 1460 + dayOfEra / 36524 - dayOfEra / 146096) / 365
  let dayOfYear := dayOfEra - (365 * yearOfEra + yearOfEra / 4 - yearOfEra / 100)
  let m := (5 * dayOfYear + 2) / 153
  let month := if m < 10 then m + 3 else m - 9
  (yearOfEra + era * 400 + (if month ≤ 2 then 1 else 0), month,
    dayOfYear - (153 * m + 2) / 5 + 1)

def padded (width n : Nat) : List Char :=
  let ds := Nat.toDigits 10 n
  List.replicate (width - ds.length) '0' ++ ds

def fractionText (n : Nat) : List Char :=
  if n = 0 then []
  else if n % 1000000 = 0 then '.' :: padded 3 (n / 1000000)
  else if n % 1000 = 0 then '.' :: padded 6 (n / 1000)
  else '.' :: padded 9 n

/-- Years of other than four digits have a sign. -/
def yearText (year : Int) : List Char :=
  if 0 ≤ year ∧ year ≤ 9999 then padded 4 year.natAbs
  else (if year < 0 then '-' else '+') :: padded 4 year.natAbs

def render (t : Time) : String :=
  let seconds := t.nanoseconds / 1000000000
  let second := (seconds % 86400).toNat
  let (year, month, day) := civil (seconds / 86400)
  String.ofList (yearText year ++ '-' :: padded 2 month ++ '-' :: padded 2 day ++
    'T' :: padded 2 (second / 3600) ++ ':' :: padded 2 (second / 60 % 60) ++
    ':' :: padded 2 (second % 60) ++ fractionText (t.nanoseconds % 1000000000).toNat ++ ['Z'])

/-- Between one and `most` digits at the front. -/
def digits? (most : Nat) (cs : List Char) : Option (Nat × List Char) :=
  let ds := (cs.takeWhile Char.isDigit).take most
  if ds.isEmpty then none
  else some (ds.foldl (fun n c => n * 10 + (c.toNat - 48)) 0, cs.drop ds.length)

/-- Digits behind blanks. -/
def part? (most : Nat) (cs : List Char) : Option (Nat × List Char) :=
  digits? most (Text.trimStart cs)

/-- Four digits at most, or any number of them behind a sign. -/
def year? (cs : List Char) : Option (Int × List Char) :=
  match Text.trimStart cs with
  | '-' :: cs => (digits? cs.length cs).map fun r => (-(r.1 : Int), r.2)
  | '+' :: cs => (digits? cs.length cs).map fun r => ((r.1 : Int), r.2)
  | cs => (digits? 4 cs).map fun r => ((r.1 : Int), r.2)

/-- What stands behind a sign, before which there may be blanks. -/
def behind? (sign : Char) (cs : List Char) : Option (List Char) :=
  match Text.trimStart cs with
  | c :: cs => if c = sign then some cs else none
  | [] => none

/-- The nanoseconds of a fraction; digits behind the ninth do not count. -/
def fraction? : List Char → Option (Nat × List Char)
  | '.' :: cs => do
    let ds := cs.takeWhile Char.isDigit
    if ds.isEmpty then none
    else
      let nine := (ds ++ List.replicate 9 '0').take 9
      return (nine.foldl (fun n c => n * 10 + (c.toNat - 48)) 0, cs.drop ds.length)
  | cs => some (0, cs)

/-- The minutes of an offset, of which there are two digits or none. -/
def minutes? : List Char → Option (Nat × List Char)
  | [] => some (0, [])
  | a :: b :: cs => do
    let (n, _) ← digits? 2 [a, b]
    if '0' ≤ a ∧ a ≤ '5' ∧ b.isDigit then some (n, cs) else none
  | _ => none

/-- The seconds by which local time is ahead, in hours of two digits and minutes. -/
def distance? : List Char → Option (Nat × List Char)
  | a :: b :: cs => do
    let (hours, _) ← digits? 2 [a, b]
    let (minutes, cs) ← minutes? (cs.dropWhile fun c => c = ':' || Text.isBlank c)
    if a.isDigit && b.isDigit && hours < 24 then some (hours * 3600 + minutes * 60, cs) else none
  | _ => none

def isUniversal (cs : List Char) : Bool := cs.map Char.toUpper == ['U', 'T', 'C']

/-- The seconds by which local time is ahead, and what stands behind the offset. -/
def offset? (cs : List Char) : Option (Int × List Char) :=
  if isUniversal (cs.take 3) then some (0, cs.drop 3)
  else match cs with
    | 'Z' :: cs | 'z' :: cs => some (0, cs)
    | '+' :: cs => (distance? cs).map fun r => ((r.1 : Int), r.2)
    | '-' :: cs | '\u2212' :: cs => (distance? cs).map fun r => (-(r.1 : Int), r.2)
    | _ => none

/-- The first day of the calendar, which has an end, too. -/
def firstDay : Int := dayNumber (-262143) 1 1

def lastDay : Int := dayNumber 262142 12 31

def inCalendar (day : Int) : Bool := firstDay ≤ day && day ≤ lastDay

/-- A date, a `T` or a blank, a time of day and an offset. The day has to be in the calendar both in
local and in universal time. A leap second is one more behind the second before it. -/
def ofText? (s : String) : Option Time := do
  let (year, cs) ← year? s.toList
  let (month, cs) ← part? 2 (← behind? '-' cs)
  let (day, cs) ← part? 2 (← behind? '-' cs)
  let cs ← match cs with
    | c :: cs => if c = 'T' ∨ c = 't' ∨ c = ' ' then some cs else none
    | [] => none
  let (hour, cs) ← part? 2 cs
  let (minute, cs) ← part? 2 (← behind? ':' cs)
  let (second, cs) ← part? 2 (← behind? ':' cs)
  let (fraction, cs) ← fraction? cs
  let (offset, cs) ← offset? (Text.trimStart cs)
  if month = 0 || 12 < month || day = 0 || daysIn year month < day || 24 ≤ hour || 60 ≤ minute ||
      60 < second || !cs.all Text.isBlank then none
  else
    let date := dayNumber year month day
    let seconds := date * 86400 + hour * 3600 + minute * 60 + min second 59 - offset
    if inCalendar date && inCalendar (seconds / 86400) then
      return ⟨(seconds + (second - min second 59)) * 1000000000 + fraction⟩
    else none

end Time

end Casework
