import ToolChanger.Decimal.Shortest
import ToolChanger.Json.Token

namespace ToolChanger.Json

open Decimal Text

def hexDigit (n : Nat) : Char := Nat.digitChar n

def escapeChar (c : Char) : List Char :=
  if c = '"' then ['\\', '"']
  else if c = '\\' then ['\\', '\\']
  else if c = '\x08' then ['\\', 'b']
  else if c = '\t' then ['\\', 't']
  else if c = '\n' then ['\\', 'n']
  else if c = '\x0c' then ['\\', 'f']
  else if c = '\r' then ['\\', 'r']
  else if c.toNat < 0x20 then ['\\', 'u', '0', '0', hexDigit (c.toNat / 16), hexDigit (c.toNat % 16)]
  else [c]

def writeString (s : String) : List Char := '"' :: (s.toList.flatMap escapeChar ++ ['"'])

/-- A double is positional from `1e-5` up to, but without, `1e16`, and scientific elsewhere. Of two equally
near decimals the even one is written. -/
def writeReal (x : Binary64) : List Char :=
  let layout := (x.shortest .toEven).layout
  let body :=
    if -5 < layout.point ∧ layout.point ≤ 16 then layout.positional else layout.scientific
  if x.negative then '-' :: body else body

def writeInt (n : Int) : List Char :=
  if n < 0 then '-' :: numeral n.natAbs else numeral n.natAbs

def writeNumber : Number → List Char
  | .whole n _ => writeInt n
  | .real x => writeReal x

mutual

def compact : Json → List Char
  | null => "null".toList
  | bool true => "true".toList
  | bool false => "false".toList
  | number n => writeNumber n
  | string s => writeString s
  | array [] => ['[', ']']
  | array (item :: rest) => '[' :: (compact item ++ compactItems rest)
  | object [] => ['\x7b', '\x7d']
  | object ((name, value) :: rest) =>
    '\x7b' :: (writeString name ++ ':' :: (compact value ++ compactMembers rest))

def compactItems : List Json → List Char
  | [] => [']']
  | item :: rest => ',' :: (compact item ++ compactItems rest)

def compactMembers : List (String × Json) → List Char
  | [] => ['\x7d']
  | (name, value) :: rest =>
    ',' :: (writeString name ++ ':' :: (compact value ++ compactMembers rest))

end

def newLine (level : Nat) : List Char := '\n' :: List.replicate (2 * level) ' '

mutual

def indented (level : Nat) : Json → List Char
  | null => "null".toList
  | bool true => "true".toList
  | bool false => "false".toList
  | number n => writeNumber n
  | string s => writeString s
  | array [] => ['[', ']']
  | array (item :: rest) =>
    '[' :: (newLine (level + 1) ++ indented (level + 1) item ++ indentedItems level rest)
  | object [] => ['\x7b', '\x7d']
  | object ((name, value) :: rest) =>
    '\x7b' :: (newLine (level + 1) ++ writeString name ++ ':' :: ' ' ::
      (indented (level + 1) value ++ indentedMembers level rest))

def indentedItems (level : Nat) : List Json → List Char
  | [] => newLine level ++ [']']
  | item :: rest =>
    ',' :: (newLine (level + 1) ++ indented (level + 1) item ++ indentedItems level rest)

def indentedMembers (level : Nat) : List (String × Json) → List Char
  | [] => newLine level ++ ['\x7d']
  | (name, value) :: rest =>
    ',' :: (newLine (level + 1) ++ writeString name ++ ':' :: ' ' ::
      (indented (level + 1) value ++ indentedMembers level rest))

end

def toCompact (value : Json) : String := String.ofList value.compact

def toPretty (value : Json) : String := String.ofList (value.indented 0)

end ToolChanger.Json
