import ToolChanger.Text.Numeral
import ToolChanger.Toml.Value

namespace ToolChanger.Toml

open Decimal Text

def ungroup (text : List Char) : Option (List Char) :=
  let groups := text.splitOn '_'
  if groups.any List.isEmpty then none else some groups.flatten

def readGrouped (text : List Char) : Option Nat := (ungroup text).bind digitsValue

def readPower : List Char → Option Int
  | '+' :: rest => (readGrouped rest).map Int.ofNat
  | '-' :: rest => (readGrouped rest).map fun n => -Int.ofNat n
  | rest => (readGrouped rest).map Int.ofNat

def ofInt? (n : Int) : Option Value :=
  if fits : -0x8000000000000000 ≤ n ∧ n < 0x8000000000000000 then some (.integer n fits) else none

/-- The double nearest to a decimal. Where there is none, a negative number is infinite, and a positive one
is refused. -/
def ofDecimal? (negative : Bool) (digits : Nat) (exponent : Int) : Option Value :=
  match Binary64.ofDecimal negative digits exponent with
  | some x => some (.real x)
  | none => if negative then some .nonfinite else none

def readDecimal (negative : Bool) (text : List Char) : Option Value := do
  let isMark (c : Char) : Bool := c == 'e' || c == 'E'
  let mantissa := text.takeWhile fun c => !isMark c
  let exponent := (text.dropWhile fun c => !isMark c).tail?
  let whole ← ungroup (mantissa.takeWhile (· != '.'))
  let fraction := (mantissa.dropWhile (· != '.')).tail?
  let value ← digitsValue whole
  if whole.length > 1 ∧ whole.head? = some '0' then none
  if fraction.isNone ∧ exponent.isNone then
    ofInt? (if negative then -value else value)
  else
    let power ← (exponent.map readPower).getD (some 0)
    let places ← (fraction.map ungroup).getD (some [])
    if fraction.isSome then
      let _ ← digitsValue places
    let digits := Nat.ofDigitChars 10 places value
    ofDecimal? negative digits (power - places.length)

def readUnsigned (negative : Bool) (text : List Char) : Option Value :=
  if text == "inf".toList || text == "nan".toList then some .nonfinite else readDecimal negative text

def readInBase (base : Nat) (text : List Char) : Option Value := do
  ofInt? (← readBase base (← ungroup text))

def readWord : List Char → Option Value
  | '0' :: 'x' :: digits => readInBase 16 digits
  | '0' :: 'o' :: digits => readInBase 8 digits
  | '0' :: 'b' :: digits => readInBase 2 digits
  | '+' :: rest => readUnsigned false rest
  | '-' :: rest => readUnsigned true rest
  | text =>
    if text == "true".toList then some (.boolean true)
    else if text == "false".toList then some (.boolean false)
    else readUnsigned false text

def isWordChar (c : Char) : Bool := c.isAlphanum || c == '_' || c == '+' || c == '-' || c == '.'

end ToolChanger.Toml
