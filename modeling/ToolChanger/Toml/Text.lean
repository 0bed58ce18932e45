import ToolChanger.Text.Numeral

namespace ToolChanger.Toml

open Text

def isTomlBlank (c : Char) : Bool := c == ' ' || c == '\t'

def isPlain (c : Char) : Bool := c == '\t' || (0x20 ≤ c.toNat && c.toNat != 0x7f)

def isKeyChar (c : Char) : Bool := c.isAlphanum || c == '-' || c == '_'

def readCodePoint (digits : List Char) : Option Char := do
  let n ← readBase 16 digits
  if n.isValidChar then some (Char.ofNat n) else none

def readEscape : List Char → Option (Char × List Char)
  | 'b' :: rest => some ('\x08', rest)
  | 't' :: rest => some ('\t', rest)
  | 'n' :: rest => some ('\n', rest)
  | 'f' :: rest => some ('\x0c', rest)
  | 'r' :: rest => some ('\r', rest)
  | '"' :: rest => some ('"', rest)
  | '\\' :: rest => some ('\\', rest)
  | 'u' :: a :: b :: c :: d :: rest => (readCodePoint [a, b, c, d]).map (·, rest)
  | 'U' :: a :: b :: c :: d :: e :: f :: g :: h :: rest =>
    (readCodePoint [a, b, c, d, e, f, g, h]).map (·, rest)
  | _ => none

def readBasic : Nat → List Char → Option (List Char × List Char)
  | 0, _ => none
  | _ + 1, [] => none
  | _ + 1, '"' :: rest => some ([], rest)
  | bound + 1, '\\' :: rest => do
    let (c, rest) ← readEscape rest
    let (body, rest) ← readBasic bound rest
    return (c :: body, rest)
  | bound + 1, c :: rest => do
    if !isPlain c then none
    let (body, rest) ← readBasic bound rest
    return (c :: body, rest)

def readLiteral (text : List Char) : Option (List Char × List Char) :=
  let body := text.takeWhile (· != '\'')
  match text.dropWhile (· != '\'') with
  | _ :: rest => if body.all isPlain then some (body, rest) else none
  | [] => none

/-- The text after an escaped line break, with all blanks and line breaks that follow. -/
def afterBreak? (text : List Char) : Option (List Char) :=
  match text.dropWhile isTomlBlank with
  | '\n' :: rest => some (rest.dropWhile fun c => isTomlBlank c || c == '\n')
  | _ => none

/-- A string over several lines, after its opening quotes. Of the quotes before the end up to two belong to
the string. -/
def readBlock (quote : Char) (escapes : Bool) : Nat → List Char → Option (List Char × List Char)
  | 0, _ => none
  | _ + 1, [] => none
  | bound + 1, c :: rest =>
    if c = quote then
      let run := ((c :: rest).takeWhile (· = quote)).length
      if 3 ≤ run then
        let inside := min (run - 3) 2
        some (List.replicate inside quote, (c :: rest).drop (inside + 3))
      else do
        let (body, rest) ← readBlock quote escapes bound rest
        return (c :: body, rest)
    else if escapes && c == '\\' then
      match afterBreak? rest with
      | some rest => readBlock quote escapes bound rest
      | none => do
        let (c, rest) ← readEscape rest
        let (body, rest) ← readBlock quote escapes bound rest
        return (c :: body, rest)
    else do
      if !(c == '\n' || isPlain c) then none
      let (body, rest) ← readBlock quote escapes bound rest
      return (c :: body, rest)

/-- A string over several lines. A line break right at its start does not count. -/
def readLines (quote : Char) (escapes : Bool) (text : List Char) : Option (List Char × List Char) :=
  let text := match text with
    | '\n' :: rest => rest
    | _ => text
  readBlock quote escapes (text.length + 1) text

def readString : List Char → Option (List Char × List Char)
  | '"' :: '"' :: '"' :: rest => readLines '"' true rest
  | '\'' :: '\'' :: '\'' :: rest => readLines '\'' false rest
  | '"' :: rest => readBasic (rest.length + 1) rest
  | '\'' :: rest => readLiteral rest
  | _ => none

def readPart : List Char → Option (String × List Char)
  | '"' :: rest => (readBasic (rest.length + 1) rest).map fun (body, rest) => (String.ofList body, rest)
  | '\'' :: rest => (readLiteral rest).map fun (body, rest) => (String.ofList body, rest)
  | text =>
    let body := text.takeWhile isKeyChar
    if body.isEmpty then none else some (String.ofList body, text.dropWhile isKeyChar)

/-- How many parts a key may have, and how deep arrays and inline tables may lie in each other. -/
def levelLimit : Nat := 79

/-- A key of a limited number of parts: those before the last one, the last one, and the text after the
blanks that follow. -/
def readParts : Nat → List Char → Option (List String × String × List Char)
  | 0, _ => none
  | limit + 1, text => do
    let (part, rest) ← readPart (text.dropWhile isTomlBlank)
    match rest.dropWhile isTomlBlank with
    | '.' :: more =>
      let (path, last, rest) ← readParts limit more
      return (part :: path, last, rest)
    | rest => return ([], part, rest)

def readKey (text : List Char) : Option (List String × String × List Char) := readParts levelLimit text

end ToolChanger.Toml
