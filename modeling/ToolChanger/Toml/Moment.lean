import ToolChanger.Text.Numeral

/-!
# Dates and times

A moment is a date, a time of day or both, and with both there may be a distance from universal time. A second is
parted into at most nine digits, further ones are cut off.
-/

namespace ToolChanger.Toml

open Text

structure Date where
  year : Nat
  month : Nat
  day : Nat
  deriving DecidableEq, Repr

structure Time where
  hour : Nat
  minute : Nat
  second : Nat
  nanosecond : Nat
  deriving DecidableEq, Repr

/-- How far a clock is from universal time. -/
inductive Distance where
  | zero
  | minutes (count : Int)
  deriving DecidableEq, Repr

inductive Moment where
  | date (date : Date)
  | time (time : Time)
  | full (date : Date) (time : Time) (distance : Option Distance)
  deriving DecidableEq, Repr

/-! ### Writing -/

def padded (width n : Nat) : String := String.ofList ((numeral n).leftpad width '0')

def Date.text (date : Date) : String :=
  padded 4 date.year ++ "-" ++ padded 2 date.month ++ "-" ++ padded 2 date.day

def fractionText (nanosecond : Nat) : String :=
  if nanosecond = 0 then ""
  else
    let digits := (numeral nanosecond).leftpad 9 '0'
    "." ++ String.ofList (digits.reverse.dropWhile (· == '0')).reverse

def Time.text (time : Time) : String :=
  padded 2 time.hour ++ ":" ++ padded 2 time.minute ++ ":" ++ padded 2 time.second ++
    fractionText time.nanosecond

def Distance.text : Distance → String
  | zero => "Z"
  | minutes count =>
    (if count < 0 then "-" else "+") ++ padded 2 (count.natAbs / 60) ++ ":" ++
      padded 2 (count.natAbs % 60)

def Moment.text : Moment → String
  | date d => d.text
  | time t => t.text
  | full d t distance => d.text ++ "T" ++ t.text ++ (distance.map Distance.text).getD ""

/-! ### Reading -/

def readDigits (count : Nat) (text : List Char) : Option (Nat × List Char) := do
  let digits := text.take count
  if digits.length < count then none
  return (← digitsValue digits, text.drop count)

def readTwoDigits (low high : Nat) (text : List Char) : Option (Nat × List Char) := do
  let (n, rest) ← readDigits 2 text
  if low ≤ n ∧ n ≤ high then some (n, rest) else none

def skipChar (c : Char) : List Char → Option (List Char)
  | d :: rest => if d = c then some rest else none
  | [] => none

def isLeapYear (year : Nat) : Bool := year % 4 == 0 && (year % 100 != 0 || year % 400 == 0)

def daysIn (year month : Nat) : Nat :=
  if month = 2 then if isLeapYear year then 29 else 28
  else if [4, 6, 9, 11].contains month then 30
  else 31

def readDate (text : List Char) : Option (Date × List Char) := do
  let (year, rest) ← readDigits 4 text
  let (month, rest) ← readTwoDigits 1 12 (← skipChar '-' rest)
  let (day, rest) ← readTwoDigits 1 (daysIn year month) (← skipChar '-' rest)
  return (⟨year, month, day⟩, rest)

def readFraction : List Char → Nat × List Char
  | '.' :: rest =>
    match rest.takeWhile Char.isDigit with
    | [] => (0, '.' :: rest)
    | digits =>
      (Nat.ofDigitChars 10 ((digits.take 9).rightpad 9 '0') 0, rest.dropWhile Char.isDigit)
  | rest => (0, rest)

/-- A time of day. A second may be a leap second. -/
def readTime (text : List Char) : Option (Time × List Char) := do
  let (hour, rest) ← readTwoDigits 0 23 text
  let (minute, rest) ← readTwoDigits 0 59 (← skipChar ':' rest)
  let (second, rest) ← readTwoDigits 0 60 (← skipChar ':' rest)
  let (nanosecond, rest) := readFraction rest
  return (⟨hour, minute, second, nanosecond⟩, rest)

def readDistance : List Char → Option (Option Distance × List Char)
  | 'Z' :: rest | 'z' :: rest => some (some .zero, rest)
  | '+' :: rest => do
    let (hours, rest) ← readTwoDigits 0 23 rest
    let (minutes, rest) ← readTwoDigits 0 59 (← skipChar ':' rest)
    return (some (.minutes (hours * 60 + minutes)), rest)
  | '-' :: rest => do
    let (hours, rest) ← readTwoDigits 0 23 rest
    let (minutes, rest) ← readTwoDigits 0 59 (← skipChar ':' rest)
    return (some (.minutes (-(hours * 60 + minutes))), rest)
  | rest => some (none, rest)

def startsWithDigits (count : Nat) (mark : Char) (text : List Char) : Bool :=
  (text.take count).all Char.isDigit && (text.drop count).head? == some mark

def isDateStart (text : List Char) : Bool := startsWithDigits 4 '-' text

def isTimeStart (text : List Char) : Bool := startsWithDigits 2 ':' text

/-- A moment that starts with a date. A time may follow after a letter or a blank. -/
def readDateTime (text : List Char) : Option (Moment × List Char) := do
  let (date, rest) ← readDate text
  match rest with
  | mark :: more =>
    if (mark = 'T' ∨ mark = 't' ∨ mark = ' ') ∧ isTimeStart more then
      let (time, rest) ← readTime more
      let (distance, rest) ← readDistance rest
      return (.full date time distance, rest)
    else return (.date date, rest)
  | [] => return (.date date, rest)

end ToolChanger.Toml
