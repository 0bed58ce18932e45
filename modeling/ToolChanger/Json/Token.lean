import ToolChanger.Json.Basic
import ToolChanger.Decimal.Scaling
import ToolChanger.Text.Numeral

/-!
# JSON tokens

The lexemes of JSON text, read strictly. A number beyond the doubles and a string with half a surrogate pair are
tokens without a value.
-/

namespace ToolChanger.Json

open Decimal Text

inductive Token where
  | openArray
  | closeArray
  | openObject
  | closeObject
  | comma
  | colon
  | null
  | bool (value : Bool)
  | number (value : Option Number)
  | string (value : Option String)

/-! ### Numbers -/

def lexFraction : List Char → Option (Option (List Char) × List Char)
  | '.' :: rest =>
    let digits := rest.takeWhile Char.isDigit
    if digits.isEmpty then none else some (some digits, rest.dropWhile Char.isDigit)
  | rest => some (none, rest)

def lexExponent : List Char → Option (Option Int × List Char)
  | c :: rest =>
    if c = 'e' ∨ c = 'E' then
      let (negative, rest) := match rest with
        | '-' :: more => (true, more)
        | '+' :: more => (false, more)
        | _ => (false, rest)
      match digitsValue (rest.takeWhile Char.isDigit) with
      | none => none
      | some n => some (some (if negative then -n else n), rest.dropWhile Char.isDigit)
    else some (none, c :: rest)
  | [] => some (none, [])

/-- A whole number, if it fits a word. Minus zero is no whole number. -/
def wholeNumber? (negative : Bool) (n : Nat) : Option Number :=
  let value : Int := if negative then -n else n
  if fits : -0x8000000000000000 ≤ value ∧ value < 0x10000000000000000 then
    if negative && n == 0 then none else some (.whole value fits)
  else none

/-- A number after its sign. Without a point and an exponent it is whole if it can be; any other number is
a double, if it is not beyond them. -/
def lexNumber (negative : Bool) (text : List Char) : Option (Option Number × List Char) := do
  let digits := text.takeWhile Char.isDigit
  let whole ← digitsValue digits
  if digits.length > 1 ∧ digits.head? = some '0' then none
  let (fraction, rest) ← lexFraction (text.dropWhile Char.isDigit)
  let (power, rest) ← lexExponent rest
  if fraction.isNone ∧ power.isNone then
    if let some n := wholeNumber? negative whole then return (some n, rest)
  return ((Binary64.ofDigits negative digits (fraction.getD []) (power.getD 0)).map .real, rest)

/-! ### Strings -/

def lexUnit : List Char → Option (Nat × List Char)
  | a :: b :: c :: d :: rest => (readBase 16 [a, b, c, d]).map (·, rest)
  | _ => none

def plainEscape : Char → Option Char
  | '"' => some '"'
  | '\\' => some '\\'
  | '/' => some '/'
  | 'b' => some '\x08'
  | 'f' => some '\x0c'
  | 'n' => some '\n'
  | 'r' => some '\r'
  | 't' => some '\t'
  | _ => none

/-- The character an escape stands for, after its backslash. Half a surrogate pair stands for none. -/
def lexEscape : List Char → Option (Option Char × List Char)
  | 'u' :: rest => do
    let (unit, rest) ← lexUnit rest
    if 0xd800 ≤ unit ∧ unit < 0xdc00 then
      match rest with
      | '\\' :: 'u' :: more =>
        let (low, more) ← lexUnit more
        if 0xdc00 ≤ low ∧ low < 0xe000 then
          return (some (Char.ofNat (0x10000 + (unit - 0xd800) * 0x400 + (low - 0xdc00))), more)
        else return (none, rest)
      | _ => return (none, rest)
    else if 0xdc00 ≤ unit ∧ unit < 0xe000 then return (none, rest)
    else return (some (Char.ofNat unit), rest)
  | c :: rest => (plainEscape c).map fun c => (some c, rest)
  | [] => none

def lexString : Nat → List Char → Option (Option (List Char) × List Char)
  | 0, _ => none
  | _ + 1, [] => none
  | _ + 1, '"' :: rest => some (some [], rest)
  | bound + 1, '\\' :: rest => do
    let (c, rest) ← lexEscape rest
    let (body, rest) ← lexString bound rest
    return (c.bind fun c => body.map (c :: ·), rest)
  | bound + 1, c :: rest => do
    if c.toNat < 0x20 then none
    let (body, rest) ← lexString bound rest
    return (body.map (c :: ·), rest)

/-! ### Texts -/

def isJsonBlank (c : Char) : Bool := c == ' ' || c == '\t' || c == '\n' || c == '\r'

def lexToken (bound : Nat) : List Char → Option (Token × List Char)
  | '[' :: rest => some (.openArray, rest)
  | ']' :: rest => some (.closeArray, rest)
  | '\x7b' :: rest => some (.openObject, rest)
  | '\x7d' :: rest => some (.closeObject, rest)
  | ',' :: rest => some (.comma, rest)
  | ':' :: rest => some (.colon, rest)
  | 'n' :: 'u' :: 'l' :: 'l' :: rest => some (.null, rest)
  | 't' :: 'r' :: 'u' :: 'e' :: rest => some (.bool true, rest)
  | 'f' :: 'a' :: 'l' :: 's' :: 'e' :: rest => some (.bool false, rest)
  | '"' :: rest => (lexString bound rest).map fun (body, rest) =>
      (.string (body.map String.ofList), rest)
  | '-' :: rest => (lexNumber true rest).map fun (n, rest) => (.number n, rest)
  | rest => (lexNumber false rest).map fun (n, rest) => (.number n, rest)

/-- The tokens of a text. Each one takes a character at least, so the length bounds their number. -/
def lexAll : Nat → List Char → Option (List Token)
  | 0, _ => none
  | bound + 1, text =>
    match text.dropWhile isJsonBlank with
    | [] => some []
    | rest => do
      let (token, rest) ← lexToken bound rest
      let tokens ← lexAll bound rest
      return token :: tokens

def tokens (text : List Char) : Option (List Token) := lexAll (text.length + 1) text

end ToolChanger.Json
