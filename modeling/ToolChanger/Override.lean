import ToolChanger.Json.Basic
import ToolChanger.Text.Blank
import ToolChanger.Text.Numeral
import ToolChanger.Magazine
import ToolChanger.Tool.Table

/-!
# Pocket overrides

Not being overruled is a third state, so tools without an override have no entry in `Overrides`. In writing an
override is a number, the pocket or -1; reading is more lenient.
-/

namespace ToolChanger

inductive Override where
  | inPocket (pocket : Pocket)
  | outOfMagazine
  deriving DecidableEq, Repr

abbrev Overrides := Table Override

namespace Override

def pocket? : Override → Option Pocket
  | inPocket pocket => some pocket
  | outOfMagazine => none

def ofPocket? : Option Pocket → Override
  | some pocket => inPocket pocket
  | none => outOfMagazine

def label : Override → String
  | inPocket pocket => "pocket " ++ toString pocket.toNat
  | outOfMagazine => "not in magazine"

def toInt : Override → Int
  | inPocket pocket => pocket.toNat
  | outOfMagazine => -1

def ofInt (n : Int) : Except PocketError Override :=
  if n = -1 then .ok outOfMagazine
  else if 1 ≤ n ∧ n < 0x100000000 then .ok (inPocket n.toNat.toUInt32)
  else .error (.invalid n)

def ofText (text : String) : Except PocketError Override :=
  let trimmed := Text.trim text.toList
  if trimmed.isEmpty || Text.sameIgnoringCase trimmed "none".toList then .ok outOfMagazine
  else match Text.readInt64 trimmed with
    | some n => ofInt n
    | none => .error (.unreadable (String.ofList trimmed))

def ofJson : Json → Except PocketError Override
  | .null => .ok outOfMagazine
  | .string text => ofText text
  | value =>
    match value.asInt64? with
    | some n => ofInt n
    | none => .error (.unreadable "non-numeric value")

def toJson : Override → Json
  | inPocket pocket => Json.ofUInt32 pocket
  | outOfMagazine => .number (.whole (-1) (by decide))

@[simp] theorem pocket?_ofPocket? (pocket : Option Pocket) : (ofPocket? pocket).pocket? = pocket := by
  cases pocket <;> rfl

end Override

namespace Overrides

/-- The tool that a member's name stands for: a positive number, blanks around it ignored. -/
def readId (name : String) : Option ToolId :=
  (Text.readUInt32 (Text.trim name.toList)).filter (· ≠ 0)

/-- Takes over a member that names a tool and a valid override; any other one is passed over. -/
def addMember (overrides : Overrides) (member : String × Json) : Overrides :=
  match readId member.1, Override.ofJson member.2 with
  | some id, .ok value => overrides.insert id value
  | _, _ => overrides

/-- The overrides of an object. Of several names for one tool the greatest, compared byte by byte, wins;
of members with the same name the last. -/
def ofJson? : Json → Option Overrides
  | .object members => some ((Json.sortMembers members).foldl addMember Table.empty)
  | _ => none

/-- An object with decimal names in numeric order. -/
def toJson (overrides : Overrides) : Json :=
  .object (overrides.entries.map fun entry => (toString entry.1.toNat, entry.2.toJson))

def toolsIn (overrides : Overrides) (pocket : Pocket) : List ToolId :=
  (overrides.entries.filter fun entry => entry.2.pocket? = some pocket).map (·.1)

end Overrides

inductive OverrideState where
  | unset
  | outOfMagazine
  | inPocket (pocket : Pocket)
  deriving DecidableEq, Repr

def Overrides.state (overrides : Overrides) (id : ToolId) : OverrideState :=
  match overrides.get? id with
  | none => .unset
  | some .outOfMagazine => .outOfMagazine
  | some (.inPocket pocket) => .inPocket pocket

end ToolChanger
