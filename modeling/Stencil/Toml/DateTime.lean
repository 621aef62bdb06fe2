import Stencil.Toml.Numbers

/-!
# Dates and times

A date, a time of day, or both with an offset. A date must exist in the calendar; the seconds of a
time go to sixty, for leap seconds.
-/

namespace Stencil.Toml.Parser

/-- A number of exactly `size` digits that lies between `low` and `high`. -/
def boundedNumber (size low high : Nat) : Parser Nat :=
  checked (takeExactly size Char.isDigit) fun s =>
    let n := digitsValue 10 s
    if low ≤ n ∧ n ≤ high then .ok n else .error .outOfRange

def isLeapYear (year : Nat) : Bool := year % 4 = 0 && (year % 100 ≠ 0 || year % 400 = 0)

def daysInMonth (year month : Nat) : Nat :=
  if month = 2 then if isLeapYear year then 29 else 28
  else if month = 4 ∨ month = 6 ∨ month = 9 ∨ month = 11 then 30
  else 31

def date : Parser Unit := do
  let year ← boundedNumber 4 0 9999
  char '-'
  let month ← commit (boundedNumber 2 1 12)
  commit (char '-')
  let _ ← commit (checked (boundedNumber 2 1 31) fun day =>
    if day ≤ daysInMonth year month then .ok day else .error .outOfRange)

def time : Parser Unit := do
  let _ ← boundedNumber 2 0 23
  char ':'
  commit do
    let _ ← boundedNumber 2 0 59
    char ':'
    let _ ← boundedNumber 2 0 60
    let _ ← optional (do char '.'; takeWhile1 Char.isDigit)

def timeOffset : Parser Unit := inside .timeOffset <|
  either
    (do let _ ← satisfy fun c => c = 'Z' || c = 'z')
    (do
      let _ ← satisfy isSign
      commit do
        let _ ← boundedNumber 2 0 23
        char ':'
        let _ ← boundedNumber 2 0 59)

/-- The text of a date, a time or a date with a time. -/
def dateTime : Parser Text := taken <|
  either
    (inside .dateTime do
      date
      let _ ← optional (do
        let _ ← satisfy fun c => c = 'T' || c = 't' || c = ' '
        time
        let _ ← optional timeOffset))
    (inside .time time)

end Stencil.Toml.Parser
