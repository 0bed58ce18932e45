import ToolChanger.Program.Comment
import ToolChanger.Program.Word
import ToolChanger.Library
import ToolChanger.Override

/-!
# Tool changes

A line changes the tool when its code holds the word `M6` or `M06` and its first tool word names a tool.
`references` lists the tools that a program changes to, each where it does so first.
-/

namespace ToolChanger.Program

open Text

/-- The digits and the point, which would make of `M6` another command. -/
def extendsCommand (c : Char) : Bool := c.isDigit || c == '.'

/-- Whether a text goes on with `6` or `06` and then nothing that makes it another command. -/
def isSix : List Char → Bool
  | '6' :: rest => !rest.head?.any extendsCommand
  | '0' :: '6' :: rest => !rest.head?.any extendsCommand
  | _ => false

def commandAfter (afterLetter : Bool) : List Char → Bool
  | [] => false
  | c :: rest =>
    (!afterLetter && (c == 'M' || c == 'm') && isSix rest) || commandAfter (isLetter c) rest

def hasChangeCommand (text : List Char) : Bool := commandAfter false text

def toolChange (line : List Char) : Option ToolId :=
  let code := mask line
  if hasChangeCommand code then
    ((firstWord .tool code).map (·.value)).filter (· ≠ 0)
  else none

def lines (program : List Char) : List (List Char) := program.splitOn '\n'

def ofLines (lines : List (List Char)) : List Char := ['\n'].intercalate lines

structure Reference where
  /-- The line of its first change, counted from one. -/
  line : Nat
  tool : ToolId
  entry : Option Tool
  overridden : Bool
  pocket : Option Pocket
  deriving BEq

def Reference.displayName (reference : Reference) : String :=
  match reference.entry with
  | some tool => tool.displayName
  | none => "Unknown tool"

/-- The tool changes of some lines, the first one having the given number, without the tools seen
before. -/
def changesFrom (number : Nat) (seen : List ToolId) : List (List Char) → List (Nat × ToolId)
  | [] => []
  | line :: rest =>
    match toolChange line with
    | some tool =>
      if seen.contains tool then changesFrom (number + 1) seen rest
      else (number, tool) :: changesFrom (number + 1) (tool :: seen) rest
    | none => changesFrom (number + 1) seen rest

/-- The first change to each tool of a program: line and tool. -/
def changes (program : String) : List (Nat × ToolId) := changesFrom 1 [] (lines program.toList)

def references (program : String) (library : Library) (overrides : Overrides) : List Reference :=
  (changes program).map fun (line, tool) =>
    { line, tool, entry := library.get? tool, overridden := overrides.contains tool, pocket := none }

end ToolChanger.Program
