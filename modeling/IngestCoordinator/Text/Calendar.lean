-- SUMMARY: Dates and times of day: which there are, how they are read and how they are written.
import IngestCoordinator.Text.Reader

/-!
# Calendar

Dates of the Gregorian calendar and times of day, in the form of internet timestamps:
a date, a time, or both and perhaps a distance from universal time. A fraction of a
second is kept to the nanosecond.
-/

namespace IngestCoordinator.Calendar

open Reader

/-! ## Dates and times -/

structure Date where
  year : Nat
  month : Nat
  day : Nat
  deriving DecidableEq, Repr

def isLeapYear (year : Nat) : Bool :=
  year % 4 = 0 && (year % 100 ≠ 0 || year % 400 = 0)

/-- The number of days of a month. -/
def daysIn (year month : Nat) : Nat :=
  match month with
  | 2 => if isLeapYear year then 29 else 28
  | 4 | 6 | 9 | 11 => 30
  | _ => 31

/-- A time of day. -/
structure Time where
  hour : Nat
  minute : Nat
  /-- The seconds; a minute may have one more than sixty. -/
  second : Nat
  /-- The digits of the fraction of a second, without zeros at the end. -/
  fraction : List Char := []
  deriving DecidableEq, Repr

/-- A distance from universal time. -/
inductive Offset where
  | zulu
  | minutes (count : Int)
  deriving DecidableEq, Repr

/-- A date, a time, or both. -/
inductive Moment where
  | dateOnly (date : Date)
  | timeOnly (time : Time)
  | both (date : Date) (time : Time) (offset : Option Offset)
  deriving DecidableEq, Repr

/-! ## Reading -/

/-- A number with so many digits, within the given bounds. -/
def number (width low high : Nat) : Reader Nat := do
  let text ← get
  let digits := text.take width
  if digits.length ≠ width || !digits.all Char.isDigit then failure
  set (text.drop width)
  let n := digits.foldl (fun n c => n * 10 + (c.toNat - 48)) 0
  if n < low || high < n then failure
  return n

/-- A date that there is. -/
def Date.reader : Reader Date := do
  let year ← number 4 0 9999
  expect '-'
  let month ← number 2 1 12
  expect '-'
  let day ← number 2 1 (daysIn year month)
  return { year, month, day }

/-- The digits of a fraction that count, if a point with digits is next. -/
def fractionDigits : Reader (List Char) := do
  match ← get with
  | '.' :: rest =>
    let digits := rest.takeWhile Char.isDigit
    if digits.isEmpty then return []
    set (rest.dropWhile Char.isDigit)
    return ((digits.take 9).reverse.dropWhile (· == '0')).reverse
  | _ => return []

def Time.reader : Reader Time := do
  let hour ← number 2 0 23
  expect ':'
  let minute ← number 2 0 59
  expect ':'
  let second ← number 2 0 60
  return { hour, minute, second, fraction := ← fractionDigits }

def Offset.reader : Reader Offset := do
  let sign ← next
  if sign = 'Z' || sign = 'z' then return .zulu
  if sign ≠ '+' && sign ≠ '-' then failure
  let hours ← number 2 0 23
  expect ':'
  let minutes ← number 2 0 59
  let count : Int := hours * 60 + minutes
  return .minutes (if sign = '-' then -count else count)

/-- The time behind a date, with what stands between them. -/
def timeBehind : Reader Time := do
  let separator ← next
  if separator ≠ 'T' && separator ≠ 't' && separator ≠ ' ' then failure
  Time.reader

def Moment.reader : Reader Moment :=
  (do
    let date ← Date.reader
    (do
      let time ← timeBehind
      let offset ← (some <$> Offset.reader) <|> pure none
      return .both date time offset) <|> return .dateOnly date) <|>
  .timeOnly <$> Time.reader

/-! ## Writing -/

/-- A number with zeros in front up to a width. -/
def padded (width n : Nat) : List Char :=
  let digits := Nat.toDigits 10 n
  List.replicate (width - digits.length) '0' ++ digits

def Date.write (date : Date) : List Char :=
  padded 4 date.year ++ '-' :: padded 2 date.month ++ '-' :: padded 2 date.day

def Time.write (time : Time) : List Char :=
  padded 2 time.hour ++ ':' :: padded 2 time.minute ++ ':' :: padded 2 time.second ++
    if time.fraction.isEmpty then [] else '.' :: time.fraction

def Offset.write : Offset → List Char
  | .zulu => ['Z']
  | .minutes count =>
    let distance := count.natAbs
    (if count < 0 then '-' else '+') :: padded 2 (distance / 60) ++ ':' :: padded 2 (distance % 60)

/-- The text of a moment: the letters are large, and a date and a time have one between them. -/
def Moment.write : Moment → List Char
  | .dateOnly date => date.write
  | .timeOnly time => time.write
  | .both date time offset =>
    date.write ++ 'T' :: time.write ++ ((offset.map Offset.write).getD [])

end IngestCoordinator.Calendar
