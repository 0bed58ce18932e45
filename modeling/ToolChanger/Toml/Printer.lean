import ToolChanger.Json.Printer
import ToolChanger.Toml.Text

/-!
# Writing TOML

First the plain members of an object, a line each, then a block for each table inside it. Null, and whole numbers
that need more than 64 bits with a sign, cannot be written.
-/

namespace ToolChanger.Toml

open Text

/-! ### What can be written -/

mutual

def isWritable : Json → Bool
  | .null => false
  | .number (.whole n _) => n < 0x8000000000000000
  | .array items => areWritable items
  | .object members => membersAreWritable members
  | _ => true

def areWritable : List Json → Bool
  | [] => true
  | item :: rest => isWritable item && areWritable rest

def membersAreWritable : List (String × Json) → Bool
  | [] => true
  | (_, value) :: rest => isWritable value && membersAreWritable rest

end

/-! ### Strings and keys -/

/-- A control character other than the tab and the line feed: it can only be written escaped. -/
def needsEscape (c : Char) : Bool := !(isPlain c || c == '\n')

def longestRun (c : Char) (text : List Char) : Nat := go 0 text
where
  go (run : Nat) : List Char → Nat
    | [] => run
    | d :: rest => if d = c then go (run + 1) rest else max run (go 0 rest)

def hexUnit (n : Nat) : List Char :=
  [n / 4096 % 16, n / 256 % 16, n / 16 % 16, n % 16].map fun d => (Nat.digitChar d).toUpper

def escapeChar (lines : Bool) (c : Char) : List Char :=
  if c = '\x08' then ['\\', 'b']
  else if c = '\t' then ['\\', 't']
  else if c = '\n' then if lines then [c] else ['\\', 'n']
  else if c = '\x0c' then ['\\', 'f']
  else if c = '\r' then ['\\', 'r']
  else if c = '\\' then ['\\', '\\']
  else if needsEscape c then '\\' :: 'u' :: hexUnit c.toNat
  else [c]

/-- The characters of a string with escapes. Quotes may stand for themselves as long as no more than
`allowed` of them come together; `run` of them came just before. -/
def escapeAll (lines : Bool) (allowed : Nat) (run : Nat) : List Char → List Char
  | [] => []
  | '"' :: rest =>
    if run < allowed then '"' :: escapeAll lines allowed (run + 1) rest
    else '\\' :: '"' :: escapeAll lines allowed 0 rest
  | c :: rest => escapeChar lines c ++ escapeAll lines allowed 0 rest

def writeBasic (text : List Char) : List Char := '"' :: (escapeAll false 0 0 text ++ ['"'])

def writeLiteral (text : List Char) : List Char := '\'' :: (text ++ ['\''])

/-- The line break that is put in front of a string with line breaks. It is not part of the string. -/
def leadingBreak (text : List Char) : List Char := if text.contains '\n' then ['\n'] else []

def writeBasicLines (text : List Char) : List Char :=
  List.replicate 3 '"' ++ leadingBreak text ++ escapeAll true 2 0 text ++ List.replicate 3 '"'

def writeLiteralLines (text : List Char) : List Char :=
  List.replicate 3 '\'' ++ leadingBreak text ++ text ++ List.replicate 3 '\''

/-- A string in the plainest form that needs no escape, if there is one. -/
def writeString (s : String) : List Char :=
  let text := s.toList
  let escape := text.any needsEscape
  let backslash := text.contains '\\'
  let broken := text.contains '\n'
  if !escape && !backslash && !broken && longestRun '"' text = 0 then writeBasic text
  else if !escape && !broken && longestRun '\'' text = 0 then writeLiteral text
  else if !escape && !backslash && longestRun '"' text ≤ 2 then writeBasicLines text
  else if !escape && longestRun '\'' text ≤ 2 then writeLiteralLines text
  else if broken then writeBasicLines text
  else writeBasic text

def writeKey (key : String) : List Char :=
  let text := key.toList
  let escape := !text.all isPlain
  if text.all isKeyChar && !text.isEmpty then text
  else if !escape && !text.contains '\\' && !text.contains '"' then writeBasic text
  else if !escape && !text.contains '\'' then writeLiteral text
  else writeBasic text

/-! ### Values -/

/-- A double is positional, whatever its size. Of two equally near decimals the greater one is written. -/
def writeReal (x : Decimal.Binary64) : List Char :=
  let body := (x.shortest .up).layout.positional
  if x.negative then '-' :: body else body

def newItem : List Char := "\n    ".toList

mutual

/-- A value within a line. An array of two items or more has its items on lines of their own. -/
def writeValue : Json → List Char
  | .null => []
  | .bool true => "true".toList
  | .bool false => "false".toList
  | .number (.whole n _) => Json.writeInt n
  | .number (.real x) => writeReal x
  | .string s => writeString s
  | .array [] => ['[', ']']
  | .array [item] => '[' :: (writeValue item ++ [']'])
  | .array (item :: second :: rest) =>
    '[' :: (newItem ++ writeValue item ++ ',' ::
      (newItem ++ writeValue second ++ ',' :: writeItems rest))
  | .object [] => ['\x7b', '\x7d']
  | .object ((key, value) :: rest) =>
    '\x7b' :: ' ' :: (writeKey key ++ " = ".toList ++ writeValue value ++ writePairs rest)

def writeItems : List Json → List Char
  | [] => ['\n', ']']
  | item :: rest => newItem ++ writeValue item ++ ',' :: writeItems rest

def writePairs : List (String × Json) → List Char
  | [] => [' ', '\x7d']
  | (key, value) :: rest =>
    ", ".toList ++ writeKey key ++ " = ".toList ++ writeValue value ++ writePairs rest

end

/-! ### Documents -/

def isObject : Json → Bool
  | .object _ => true
  | _ => false

/-- Whether a value gets blocks of its own: it is an object, or an array of nothing but objects. -/
def hasBlocks : Json → Bool
  | .object _ => true
  | .array items => !items.isEmpty && items.all isObject
  | _ => false

def writeLines (members : List (String × Json)) : List Char :=
  (members.filter fun member => !hasBlocks member.2).flatMap fun (key, value) =>
    writeKey key ++ " = ".toList ++ writeValue value ++ ['\n']

def writePath (path : List String) : List Char := ['.'].intercalate (path.map writeKey)

mutual

def memberBlocks (path : List String) : List (String × Json) → List (List Char)
  | [] => []
  | (key, value) :: rest => valueBlocks (path ++ [key]) value ++ memberBlocks path rest

/-- The blocks of a value. A table that consists of nothing but tables has no header of its own. -/
def valueBlocks (path : List String) : Json → List (List Char)
  | .object members =>
    let header := '[' :: (writePath path ++ [']', '\n'])
    let own := if members.isEmpty || !(members.all fun member => hasBlocks member.2) then
      [header ++ writeLines members] else []
    own ++ memberBlocks path members
  | .array items => if items.all isObject then elementBlocks path items else []
  | _ => []

def elementBlocks (path : List String) : List Json → List (List Char)
  | [] => []
  | .object members :: rest =>
    let header := '[' :: '[' :: (writePath path ++ [']', ']', '\n'])
    (header ++ writeLines members) :: (memberBlocks path members ++ elementBlocks path rest)
  | _ :: rest => elementBlocks path rest

end

def document (members : List (String × Json)) : List Char :=
  let own := if members.all fun member => hasBlocks member.2 then [] else [writeLines members]
  ['\n'].intercalate (own ++ memberBlocks [] members)

def print? : Json → Option String
  | .object members =>
    if membersAreWritable members then some (String.ofList (document members)) else none
  | _ => none

end ToolChanger.Toml
