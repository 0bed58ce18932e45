import ToolChanger.Text.Blank

/-!
# Comments

A comment is a group in parentheses, which may hold groups of its own, or what follows a semicolon outside of
every group. A group that is not closed reaches to the end of the line. `mask` keeps every byte offset.
-/

namespace ToolChanger.Program

inductive Zone where
  | code
  /-- in a group, with so many groups around it -/
  | group (outer : Nat)
  | tail
  deriving DecidableEq, Repr

namespace Zone

/-- Whether a character belongs to a comment, delimiters included. -/
def hides : Zone → Char → Bool
  | code, c => c == '(' || c == ';'
  | _, _ => true

def next : Zone → Char → Zone
  | code, c => if c = '(' then group 0 else if c = ';' then tail else code
  | group outer, c =>
    if c = '(' then group (outer + 1)
    else if c = ')' then
      match outer with
      | 0 => code
      | n + 1 => group n
    else group outer
  | tail, _ => tail

end Zone

/-- What the mask shows for a character: a comment's character gives one blank for each of its bytes,
except that a carriage return always stays. -/
def veil (zone : Zone) (c : Char) : List Char :=
  if zone.hides c && c != '\r' then List.replicate c.utf8Size ' ' else [c]

def maskFrom (zone : Zone) : List Char → List Char
  | [] => []
  | c :: rest => veil zone c ++ maskFrom (zone.next c) rest

/-- The line with its comments blanked out. -/
def mask (line : List Char) : List Char := maskFrom .code line

/-- A line with a comment and nothing else but blanks. -/
def isCommentOnly (line : List Char) : Bool := !Text.allBlank line && Text.allBlank (mask line)

end ToolChanger.Program
