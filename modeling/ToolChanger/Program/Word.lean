import ToolChanger.Text.Digit
import ToolChanger.Text.Numeral
import ToolChanger.Text.Offset

/-!
# Words

A word is a letter, its address, followed by digits: `T12` calls a tool, `H12` its height offset. Only the first
word of an address counts; it has a value when its digits are ASCII and fit 32 bits.
-/

namespace ToolChanger.Program

open Text

inductive Address where
  | tool
  | height
  deriving DecidableEq, Repr

def Address.matches : Address → Char → Bool
  | tool, c => c == 'T' || c == 't'
  | height, c => c == 'H' || c == 'h'

/-- The letters that keep a following address from starting a word: A to Z in either case, and the two
characters that differ from one of these in case only, the Kelvin sign and the long s. -/
def isLetter (c : Char) : Bool :=
  ('A' ≤ c && c ≤ 'Z') || ('a' ≤ c && c ≤ 'z') || c == '\u212a' || c == '\u017f'

/-- A text cut at a word: `before ++ letter :: digits ++ after`. -/
structure Place where
  before : List Char
  letter : Char
  digits : List Char
  after : List Char
  deriving DecidableEq, Repr

def locateAfter (address : Address) (afterLetter : Bool) : List Char → Option Place
  | [] => none
  | c :: rest =>
    if !afterLetter && address.matches c && rest.head?.any isDecimalDigit then
      some ⟨[], c, rest.takeWhile isDecimalDigit, rest.dropWhile isDecimalDigit⟩
    else
      (locateAfter address (isLetter c) rest).map fun place =>
        { place with before := c :: place.before }

def locate (address : Address) (text : List Char) : Option Place := locateAfter address false text

structure Word where
  letter : Span
  digits : Span
  value : UInt32
  deriving DecidableEq, Repr

def Place.word? (place : Place) : Option Word :=
  let start := byteLength place.before
  let digits := start + place.letter.utf8Size
  (readUInt32 place.digits).map fun value =>
    ⟨⟨start, digits⟩, ⟨digits, digits + byteLength place.digits⟩, value⟩

/-- The first word of an address. Where that has no value, no later one is tried. -/
def firstWord (address : Address) (text : List Char) : Option Word :=
  (locate address text).bind Place.word?

end ToolChanger.Program
