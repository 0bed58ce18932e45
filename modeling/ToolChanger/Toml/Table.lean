import ToolChanger.Toml.Value

/-!
# TOML tables

A table comes into being by a header, by a longer header that leads through it, or by a dotted key; which of these
it was decides what may be added later, and nothing is ever defined twice.
-/

namespace ToolChanger.Toml

inductive Origin where
  | header
  /-- a header of a table inside it -/
  | implied
  | dottedKey
  deriving DecidableEq, Repr

/-- What a key stands for while a text is read. -/
inductive Item where
  /-- a value, to which nothing can be added -/
  | value (value : Value)
  | table (origin : Origin) (members : List (String × Item))
  /-- an array of tables, of which the last one is still open -/
  | tables (earlier : List Value) (last : List (String × Item))

abbrev Members := List (String × Item)

def Members.replace (members : Members) (key : String) (item : Item) : Members :=
  members.map fun member => if member.1 = key then (key, item) else member

mutual

def Item.toValue : Item → Value
  | .value plain => plain
  | .table _ members => .table (Item.values members)
  | .tables earlier last => .array (earlier ++ [.table (Item.values last)])

def Item.values : Members → List (String × Value)
  | [] => []
  | (key, item) :: rest => (key, Item.toValue item) :: Item.values rest

end

/-- Changes the table that a path leads to from a table of the given origin. Missing tables on the way are
made; a dotted key must not lead through a table that has a header. -/
def descend (made : Origin) (change : Origin → Members → Option Members) :
    Origin → List String → Members → Option Members
  | here, [], members => change here members
  | _, key :: rest, members =>
    match members.lookup key with
    | none => do return members ++ [(key, .table made (← descend made change made rest []))]
    | some (.table origin inner) =>
      if made = .dottedKey ∧ origin = .header then none
      else do return members.replace key (.table origin (← descend made change origin rest inner))
    | some (.tables earlier last) => do
      return members.replace key (.tables earlier (← descend made change .header rest last))
    | some (.value _) => none

/-- Gives a key a value, unless it has one. A dotted key must end in a table made by dotted keys. -/
def assign (path : List String) (key : String) (value : Value) (members : Members) : Option Members :=
  descend .dottedKey (fun origin members =>
    if (origin = .dottedKey ↔ path = []) ∨ (members.lookup key).isSome then none
    else some (members ++ [(key, .value value)])) .header path members

/-- Opens the table of a header, which must not have been there except as the way to others. -/
def openTable (path : List String) (key : String) (members : Members) : Option Members :=
  descend .implied (fun _ members =>
    match members.lookup key with
    | none => some (members ++ [(key, .table .header [])])
    | some (.table .implied inner) => some (members.replace key (.table .header inner))
    | some _ => none) .header path members

def openElement (path : List String) (key : String) (members : Members) : Option Members :=
  descend .implied (fun _ members =>
    match members.lookup key with
    | none => some (members ++ [(key, .tables [] [])])
    | some (.tables earlier last) =>
      some (members.replace key (.tables (earlier ++ [.table (Item.values last)]) []))
    | some _ => none) .header path members

def assignIn (table path : List String) (key : String) (value : Value) (members : Members) :
    Option Members :=
  descend .implied (fun _ members => assign path key value members) .header table members

def inlineTable? (pairs : List (List String × String × Value)) : Option Value := do
  let members ← pairs.foldlM (fun members (path, key, value) => assign path key value members) []
  return .table (Item.values members)

end ToolChanger.Toml
