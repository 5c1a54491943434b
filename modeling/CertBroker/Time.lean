import CertBroker.Text.Blank
import CertBroker.Text.Digits

namespace CertBroker

/-- A point in time, in UTC; `day` counts from 1970-01-01. The second 60 of a minute is its second
59 with a further 10^9 nanoseconds. -/
structure Time where
  day : Int
  second : Nat
  nanos : Nat
deriving DecidableEq, Repr, Inhabited

/-- A day of the calendar. -/
structure Date where
  year : Int
  month : Nat
  day : Nat
deriving DecidableEq, Repr

namespace Date

def isLeap (year : Int) : Bool := year % 4 == 0 && (year % 100 != 0 || year % 400 == 0)

def monthLength (year : Int) (month : Nat) : Nat :=
  match month with
  | 2 => if isLeap year then 29 else 28
  | 4 => 30
  | 6 => 30
  | 9 => 30
  | 11 => 30
  | _ => 31

/-- Days from 1970-01-01, counting years from March so that a leap day ends its year. -/
def toDay (d : Date) : Int :=
  let year := if d.month ≤ 2 then d.year - 1 else d.year
  let era := year / 400
  let yearOfEra := year - era * 400
  let month := if d.month > 2 then d.month - 3 else d.month + 9
  let dayOfYear : Int := (153 * month + 2) / 5 + d.day - 1
  era * 146097 + (yearOfEra * 365 + yearOfEra / 4 - yearOfEra / 100 + dayOfYear) - 719468

def ofDay (day : Int) : Date :=
  let z := day + 719468
  let era := z / 146097
  let dayOfEra := z - era * 146097
  let yearOfEra :=
    (dayOfEra - dayOfEra / 1460 + dayOfEra / 36524 - dayOfEra / 146096) / 365
  let dayOfYear := dayOfEra - (365 * yearOfEra + yearOfEra / 4 - yearOfEra / 100)
  let month := (5 * dayOfYear + 2) / 153
  let dayOfMonth := dayOfYear - (153 * month + 2) / 5 + 1
  let monthNumber := if month < 10 then month + 3 else month - 9
  let year := yearOfEra + era * 400
  ⟨if monthNumber ≤ 2 then year + 1 else year, monthNumber.toNat, dayOfMonth.toNat⟩

/-- Years in which dates can be given. -/
def yearInRange (year : Int) : Bool := -262143 ≤ year && year ≤ 262142

def isValid (d : Date) : Bool :=
  yearInRange d.year && 1 ≤ d.month && d.month ≤ 12 && 1 ≤ d.day
    && d.day ≤ monthLength d.year d.month

end Date

namespace Time

/-- The last `width` decimal digits of a number. -/
def digits (width n : Nat) : List Char :=
  match width with
  | 0 => []
  | width + 1 => digits width (n / 10) ++ [Char.ofNat (48 + n % 10)]

/-- Four digits, or a sign and at least four digits outside the years 0 to 9999. -/
def yearText (year : Int) : List Char :=
  if 0 ≤ year && year ≤ 9999 then digits 4 year.toNat
  else
    let n := year.natAbs
    (if year < 0 then '-' else '+') :: (if n < 10000 then digits 4 n else (toString n).toList)

/-- The fewest of 0, 3, 6 or 9 digits that give a fraction exactly. -/
def fractionText (nanos : Nat) : List Char :=
  if nanos = 0 then []
  else if nanos % 1000000 = 0 then '.' :: digits 3 (nanos / 1000000)
  else if nanos % 1000 = 0 then '.' :: digits 6 (nanos / 1000)
  else '.' :: digits 9 nanos

/-- Date and time of day up to the seconds; a leap second is written as second 60. -/
def wholeText (t : Time) : List Char :=
  let d := Date.ofDay t.day
  let second := t.second % 60 + t.nanos / 1000000000
  yearText d.year ++ '-' :: digits 2 d.month ++ '-' :: digits 2 d.day
    ++ 'T' :: digits 2 (t.second / 3600) ++ ':' :: digits 2 (t.second / 60 % 60)
    ++ ':' :: digits 2 second

def text (t : Time) : String :=
  String.ofList (wholeText t ++ fractionText (t.nanos % 1000000000) ++ ['Z'])

/-- Without the fraction, as object metadata is written. -/
def textToSecond (t : Time) : String := String.ofList (wholeText t ++ ['Z'])

open Text (isBlank trimStartChars)

def value (ds : List Char) : Nat := ds.foldl (fun n c => n * 10 + (c.toNat - 48)) 0

/-- At least one and at most `width` digits after blanks. -/
def number? (width : Nat) (cs : List Char) : Option (Nat × List Char) :=
  let cs := trimStartChars cs
  let ds := (cs.takeWhile Text.isDigit).take width
  if ds.isEmpty then none else some (value ds, cs.drop ds.length)

def field? (low high : Nat) (cs : List Char) : Option (Nat × List Char) :=
  match number? 2 cs with
  | some (n, rest) => if low ≤ n && n ≤ high then some (n, rest) else none
  | none => none

/-- A year of at most four digits, or of any number of digits after a sign. -/
def year? (cs : List Char) : Option (Int × List Char) :=
  match trimStartChars cs with
  | '-' :: rest => signed (fun n => -(n : Int)) rest
  | '+' :: rest => signed (fun n => (n : Int)) rest
  | cs => (number? 4 cs).map fun r => ((r.1 : Int), r.2)
where
  signed (sign : Nat → Int) (cs : List Char) : Option (Int × List Char) :=
    let ds := cs.takeWhile Text.isDigit
    if ds.isEmpty then none else some (sign (value ds), cs.drop ds.length)

/-- A separator after blanks. -/
def separator? (c : Char) (cs : List Char) : Option (List Char) :=
  match trimStartChars cs with
  | d :: rest => if c == d then some rest else none
  | [] => none

/-- A fraction of a second; digits past the ninth are dropped. -/
def nanos? (cs : List Char) : Option (Nat × List Char) :=
  match cs with
  | '.' :: rest =>
    let ds := rest.takeWhile Text.isDigit
    if ds.isEmpty then none
    else
      let kept := ds.take 9
      some (value kept * Nat.pow 10 (9 - kept.length), rest.drop ds.length)
  | _ => some (0, cs)

def lower (c : Char) : Char := if 65 ≤ c.toNat && c.toNat ≤ 90 then Char.ofNat (c.toNat + 32) else c

/-- An offset in seconds: the letter Z, the word UTC, or sign, hours and minutes. -/
def offset? (cs : List Char) : Option (Int × List Char) :=
  match cs with
  | a :: b :: c :: rest =>
    if [a, b, c].map lower == ['u', 't', 'c'] then some (0, rest) else signedOffset? cs
  | _ => signedOffset? cs
where
  signedOffset? (cs : List Char) : Option (Int × List Char) :=
    match cs with
    | [] => none
    | c :: rest =>
      if lower c == 'z' then some (0, rest)
      else if c == '+' then hours? 1 rest
      else if c == '-' || c.toNat == 0x2212 then hours? (-1) rest
      else none
  hours? (sign : Int) (cs : List Char) : Option (Int × List Char) :=
    match cs with
    | a :: b :: rest =>
      if Text.isDigit a && Text.isDigit b then
        match rest.dropWhile (fun c => c == ':' || isBlank c) with
        | c :: d :: rest =>
          if Text.isDigit c && Text.isDigit d && value [c] ≤ 5 then
            some (sign * (value [a, b] * 3600 + value [c, d] * 60 : Nat), rest)
          else none
        | _ => none
      else none
    | _ => none

/-- Whether dates can be given in the year of this day. -/
def dayInRange (day : Int) : Bool := Date.yearInRange (Date.ofDay day).year

/-- Joins the parts that were read, where the clock is ahead of UTC by `offset` seconds. The date
has to be in range in UTC, too. -/
def assemble? (date : Date) (hour minute second nanos : Nat) (offset : Int) : Option Time :=
  if date.isValid && -86400 < offset && offset < 86400 then
    let (second, nanos) := if second = 60 then (59, nanos + 1000000000) else (second, nanos)
    let seconds := date.toDay * 86400 + (hour * 3600 + minute * 60 + second : Nat) - offset
    if dayInRange (seconds / 86400) then
      some ⟨seconds / 86400, (seconds % 86400).toNat, nanos⟩
    else none
  else none

/-- Reads a date, one of `T`, `t` or a space, a time of day and an offset. -/
def parse? (s : String) : Option Time := do
  let (year, cs) ← year? s.toList
  let cs ← separator? '-' cs
  let (month, cs) ← field? 1 12 cs
  let cs ← separator? '-' cs
  let (day, cs) ← field? 1 31 cs
  let cs ← match cs with
    | c :: rest => if c == 'T' || c == 't' || c == ' ' then some rest else none
    | [] => none
  let (hour, cs) ← field? 0 23 cs
  let cs ← separator? ':' cs
  let (minute, cs) ← field? 0 59 cs
  let cs ← separator? ':' cs
  let (second, cs) ← field? 0 60 cs
  let (nanos, cs) ← nanos? cs
  let (offset, cs) ← offset? (trimStartChars cs)
  if (trimStartChars cs).isEmpty then assemble? ⟨year, month, day⟩ hour minute second nanos offset
  else none

end Time

end CertBroker
