import ToolChanger.Json.Basic

/-!
# Raw JSON

A well-formed text may hold numbers and strings without a value, and may be nested deeper than a value may be.
Whoever looks at such a part refuses the text, whoever passes it over does not (`Selection`).
-/

namespace ToolChanger.Json

/-- What a text is built of. A literal or a name may lack a value. -/
inductive Raw where
  | literal (value : Option Json)
  | array (items : List Raw)
  | object (members : List (Option String × Raw))

/-- The parts of a value that are looked at. -/
inductive Selection where
  | whole
  | each (item : Selection)
  /-- the fields of a record, each in its own way, and its other members as a whole or not at all -/
  | record (fields : List (String × Selection)) (others : Bool)

namespace Selection

def fields (names : List String) : Selection := record (names.map fun name => (name, whole)) false

def items : Selection → List Selection × Selection
  | whole => ([], whole)
  | each item => ([], item)
  | record fields _ => (fields.map (·.2), whole)

def member? : Selection → String → Option Selection
  | record fields others, name =>
    match fields.lookup name with
    | some field => some field
    | none => if others then some whole else none
  | _, _ => some whole

end Selection

/-- The most arrays and objects that may lie in each other where a value is looked at. -/
def depthLimit : Nat := 127

namespace Raw

mutual

/-- The selected parts of a value, in which arrays and objects may lie in each other to some depth. -/
def read? (selection : Selection) : Nat → Raw → Option Json
  | _, literal value => value
  | 0, _ => none
  | depth + 1, array items =>
    (readItems selection.items.1 selection.items.2 depth items).map Json.array
  | depth + 1, object members => (readMembers selection depth members).map Json.object

def readItems (first : List Selection) (others : Selection) (depth : Nat) :
    List Raw → Option (List Json)
  | [] => some []
  | item :: rest => do
    let value ← read? (first.headD others) depth item
    return value :: (← readItems first.tail others depth rest)

def readMembers (selection : Selection) (depth : Nat) :
    List (Option String × Raw) → Option (List (String × Json))
  | [] => some []
  | (name, value) :: rest => do
    let name ← name
    match selection.member? name with
    | none => readMembers selection depth rest
    | some inner => do
      let value ← read? inner depth value
      return (name, value) :: (← readMembers selection depth rest)

end

end Raw

end ToolChanger.Json
