import ToolChanger.Toml.Word
import ToolChanger.Toml.Table
import ToolChanger.Toml.Text

/-!
# Reading TOML

A text is a list of statements, one a line: a key with its value, or a header. The statements are read
first and then carried out in order; what they build is a table.
-/

namespace ToolChanger.Toml

/-! ### Values -/

def readPlain (text : List Char) : Option (Value × List Char) := do
  if text.head? = some '"' ∨ text.head? = some '\'' then
    let (body, rest) ← readString text
    return (.string (String.ofList body), rest)
  else if isDateStart text then
    let (moment, rest) ← readDateTime text
    return (.moment moment, rest)
  else if isTimeStart text then
    let (time, rest) ← readTime text
    return (.moment (.time time), rest)
  else return (← readWord (text.takeWhile isWordChar), text.dropWhile isWordChar)

def skipLines (inComment : Bool) : List Char → Option (List Char)
  | [] => some []
  | c :: rest =>
    if c = '\n' then skipLines false rest
    else if inComment then if isPlain c then skipLines true rest else none
    else if c = '#' then skipLines true rest
    else if isTomlBlank c then skipLines false rest
    else some (c :: rest)

mutual

/-- A value at the start of a text. The text that is left bounds the steps; arrays and inline tables may lie
in each other to some depth. -/
def readValue : Nat → Nat → List Char → Option (Value × List Char)
  | 0, _, _ => none
  | bound + 1, depth + 1, '[' :: rest => do
    let (items, rest) ← readItems bound depth rest
    return (.array items, rest)
  | bound + 1, depth + 1, '\x7b' :: rest => do
    match rest.dropWhile isTomlBlank with
    | '\x7d' :: rest => return (.table [], rest)
    | rest =>
      let (pairs, rest) ← readPairs bound depth rest
      return (← inlineTable? pairs, rest)
  | _ + 1, _, text => readPlain text

/-- The items of an array up to its end. There may be a comma after the last one. -/
def readItems : Nat → Nat → List Char → Option (List Value × List Char)
  | 0, _, _ => none
  | bound + 1, depth, text => do
    match ← skipLines false text with
    | ']' :: rest => return ([], rest)
    | rest =>
      let (item, rest) ← readValue bound depth rest
      match ← skipLines false rest with
      | ',' :: rest =>
        let (items, rest) ← readItems bound depth rest
        return (item :: items, rest)
      | ']' :: rest => return ([item], rest)
      | _ => none

def readPairs : Nat → Nat → List Char → Option (List (List String × String × Value) × List Char)
  | 0, _, _ => none
  | bound + 1, depth, text => do
    let (path, key, rest) ← readKey text
    match rest with
    | '=' :: rest =>
      let (value, rest) ← readValue bound depth (rest.dropWhile isTomlBlank)
      match rest.dropWhile isTomlBlank with
      | ',' :: rest =>
        let (pairs, rest) ← readPairs bound depth rest
        return ((path, key, value) :: pairs, rest)
      | '\x7d' :: rest => return ([(path, key, value)], rest)
      | _ => none
    | _ => none

end

/-! ### Statements -/

inductive Statement where
  | assign (path : List String) (key : String) (value : Value)
  | header (path : List String) (key : String)
  /-- a header in double brackets -/
  | element (path : List String) (key : String)

def readStatement (text : List Char) : Option (Statement × List Char) :=
  match text with
  | '[' :: '[' :: rest => do
    let (path, key, rest) ← readKey rest
    match rest with
    | ']' :: ']' :: rest => return (.element path key, rest)
    | _ => none
  | '[' :: rest => do
    let (path, key, rest) ← readKey rest
    match rest with
    | ']' :: rest => return (.header path key, rest)
    | _ => none
  | text => do
    let (path, key, rest) ← readKey text
    match rest with
    | '=' :: rest =>
      let (value, rest) ← readValue (2 * rest.length + 2) levelLimit (rest.dropWhile isTomlBlank)
      return (.assign path key value, rest)
    | _ => none

def atLineEnd (text : List Char) : Bool :=
  match text.head? with
  | none => true
  | some c => c == '\n' || c == '#'

/-- The statements of a text. Each one takes a character at least, so the length bounds their number. -/
def readStatements : Nat → List Char → Option (List Statement)
  | 0, _ => none
  | bound + 1, text => do
    match ← skipLines false text with
    | [] => return []
    | text =>
      let (statement, rest) ← readStatement text
      let rest := rest.dropWhile isTomlBlank
      if !atLineEnd rest then none
      return statement :: (← readStatements bound rest)

/-- Carries out statements, the first ones in the table that was opened last. -/
def run (opened : List String) (members : Members) : List Statement → Option Members
  | [] => some members
  | .assign path key value :: rest => do run opened (← assignIn opened path key value members) rest
  | .header path key :: rest => do run (path ++ [key]) (← openTable path key members) rest
  | .element path key :: rest => do run (path ++ [key]) (← openElement path key members) rest

def unifyBreaks : List Char → List Char
  | '\r' :: '\n' :: rest => '\n' :: unifyBreaks rest
  | c :: rest => c :: unifyBreaks rest
  | [] => []

def withoutMark : List Char → List Char
  | '\ufeff' :: rest => rest
  | text => text

def parse? (text : String) : Option (List (String × Value)) := do
  let chars := unifyBreaks (withoutMark text.toList)
  return Item.values (← run [] [] (← readStatements (chars.length + 1) chars))

end ToolChanger.Toml
