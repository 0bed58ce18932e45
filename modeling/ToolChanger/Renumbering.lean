import ToolChanger.Program.ToolChange

/-!
# Renumbering a program

The first tool word and the first height word of every code line are exchanged for the pocket's number; a line that
is a comment only gets a note beside its first tool word. Everything else stays as it is, byte by byte.
-/

namespace ToolChanger

open Program Text

structure RenumberedLine where
  text : List Char
  toolNumber : Bool := false
  heightOffset : Bool := false
  comment : Bool := false
  changed : Bool := false
  deriving DecidableEq, Repr

structure Renumbering where
  text : String
  toolNumbers : Nat := 0
  heightOffsets : Nat := 0
  comments : Nat := 0
  linesChanged : Nat := 0
  deriving DecidableEq, Repr

def Renumbering.changed (renumbering : Renumbering) : Bool := 0 < renumbering.linesChanged

namespace Renumbering

def mappedWord (pockets : Table Pocket) (address : Address) (line : List Char) :
    Option (Word × Pocket) := do
  let word ← firstWord address (mask line)
  let pocket ← pockets.get? word.value
  return (word, pocket)

def replaceWord (pockets : Table Pocket) (address : Address) (line : List Char) : Option (List Char) :=
  (mappedWord pockets address line).map fun (word, pocket) =>
    splice line word.digits (numeral pocket.toNat)

/-- The note beside a tool word in a comment: the pocket, and the number that stood there. -/
def note (label : List Char) (pocket : Pocket) (number : List Char) : List Char :=
  numeral pocket.toNat ++ " [".toList ++ label ++ ": tool ".toList ++ number ++ [']']

def annotate (pockets : Table Pocket) (label : List Char) (line : List Char) : Option (List Char) := do
  let word ← firstWord .tool line
  let pocket ← pockets.get? word.value
  return splice line word.digits (note label pocket (slice line word.digits))

/-- One line renumbered. A line that is replaced by itself counts as a replacement, not as a change. -/
def line (pockets : Table Pocket) (label : List Char) (line : List Char) : RenumberedLine :=
  if allBlank line then { text := line }
  else if isCommentOnly line then
    match annotate pockets label line with
    | some text => { text, comment := true, changed := true }
    | none => { text := line }
  else
    let tool := replaceWord pockets .tool line
    let between := tool.getD line
    let height := replaceWord pockets .height between
    let text := height.getD between
    { text
      toolNumber := tool.isSome
      heightOffset := height.isSome
      changed := text ≠ line }

/-- A program renumbered line by line. Without any pocket there is nothing to do. -/
def ofProgram (pockets : Table Pocket) (label : String) (program : String) : Renumbering :=
  if pockets.isEmpty then { text := program }
  else
    let renumbered := (lines program.toList).map (line pockets label.toList)
    { text := String.ofList (ofLines (renumbered.map (·.text)))
      toolNumbers := renumbered.countP (·.toolNumber)
      heightOffsets := renumbered.countP (·.heightOffset)
      comments := renumbered.countP (·.comment)
      linesChanged := renumbered.countP (·.changed) }

end Renumbering

end ToolChanger
