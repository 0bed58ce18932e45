import ToolChanger.Text.Offset

/-!
# Patterns

A pattern is matched by trying its alternatives in the order in which they are written, and as long a run as there
is before any shorter one. The match is the first attempt that succeeds at the leftmost place where one does.
-/

namespace ToolChanger.Text

/-- A place in a text that an attempt has come to, with the ranges it has noted, the latest first. -/
structure Attempt where
  before : List Char
  rest : List Char
  noted : List (String × Span) := []
  deriving DecidableEq, Repr

inductive Pattern where
  /-- the start of the text, and nothing of it -/
  | start
  /-- one character of a kind -/
  | one (kind : Char → Bool)
  /-- a run of such characters, at least one -/
  | many (kind : Char → Bool)
  | both (first second : Pattern)
  | either (first second : Pattern)
  /-- what the inner pattern matches, noted under a name -/
  | noted (name : String) (inner : Pattern)

/-- The ends of the runs that begin at a place, the longest first. -/
def runs (kind : Char → Bool) (before : List Char) : List Char → List (List Char × List Char)
  | [] => []
  | c :: rest => if kind c then runs kind (before ++ [c]) rest ++ [(before ++ [c], rest)] else []

namespace Pattern

/-- The places to which a match can lead from a place, in the order in which they are tried. -/
def attempts : Pattern → Attempt → List Attempt
  | start, here => if here.before.isEmpty then [here] else []
  | one kind, here =>
    match here.rest with
    | [] => []
    | c :: rest => if kind c then [{ here with before := here.before ++ [c], rest }] else []
  | many kind, here => (runs kind here.before here.rest).map fun (before, rest) => { here with before, rest }
  | both first second, here => (first.attempts here).flatMap second.attempts
  | either first second, here => first.attempts here ++ second.attempts here
  | noted name inner, here => (inner.attempts here).map fun done =>
      { done with noted := (name, ⟨byteLength here.before, byteLength done.before⟩) :: done.noted }

/-- The preferred attempt at the leftmost place, from a place on. -/
def searchFrom (pattern : Pattern) (before : List Char) : List Char → Option Attempt
  | [] => (pattern.attempts ⟨before, [], []⟩).head?
  | c :: rest =>
    (pattern.attempts ⟨before, c :: rest, []⟩).head?.or (pattern.searchFrom (before ++ [c]) rest)

def search (pattern : Pattern) (text : List Char) : Option Attempt := pattern.searchFrom [] text

end Pattern

theorem head?_runs (kind : Char → Bool) (before rest : List Char) : (runs kind before rest).head? =
    if rest.head?.any kind then some (before ++ rest.takeWhile kind, rest.dropWhile kind) else none := by
  induction rest generalizing before with
  | nil => rfl
  | cons c rest ih =>
    cases fits : kind c with
    | false => simp [runs, fits]
    | true =>
      rw [runs, if_pos fits, List.head?_append, ih]
      cases rest with
      | nil => simp [fits]
      | cons d rest => cases next : kind d <;> simp [fits, next]

end ToolChanger.Text
