import ToolChanger.Toml.Printer

namespace ToolChanger

/-- A value is another one or lies in it at some depth. -/
inductive Json.Within (part : Json) : Json → Prop where
  | here : Within part part
  | item {items : List Json} {item : Json} : item ∈ items → Within part item → Within part (.array items)
  | member {members : List (String × Json)} {member : String × Json} :
    member ∈ members → Within part member.2 → Within part (.object members)

namespace Toml

/-- The kinds of values that there are in TOML: null is none of them, and a whole number has 64 bits with a sign. -/
def Admits : Json → Prop
  | .null => False
  | .number (.whole n _) => -0x8000000000000000 ≤ n ∧ n < 0x8000000000000000
  | _ => True

/-- TOML has values for all that lies in a value. -/
def Expressible (value : Json) : Prop := ∀ part, Json.Within part value → Admits part

theorem expressible_array {items : List Json} : Expressible (.array items) ↔ ∀ item ∈ items, Expressible item := by
  constructor
  · exact fun array item listed part within => array part (.item listed within)
  · rintro all part (_ | ⟨listed, within⟩)
    · trivial
    · exact all _ listed part within

theorem expressible_object {members : List (String × Json)} :
    Expressible (.object members) ↔ ∀ member ∈ members, Expressible member.2 := by
  constructor
  · exact fun object member listed part within => object part (.member listed within)
  · rintro all part (_ | _ | ⟨listed, within⟩)
    · trivial
    · exact all _ listed part within

theorem expressible_of_alone {value : Json} (alone : ∀ part, Json.Within part value → part = value) :
    Expressible value ↔ Admits value :=
  ⟨fun all => all value .here, fun admits part within => alone part within ▸ admits⟩

theorem expressible_bool (value : Bool) : Expressible (.bool value) :=
  (expressible_of_alone fun _ within => by cases within; rfl).mpr trivial

theorem expressible_string (value : String) : Expressible (.string value) :=
  (expressible_of_alone fun _ within => by cases within; rfl).mpr trivial

mutual

theorem isWritable_iff : (value : Json) → (isWritable value = true ↔ Expressible value)
  | .null => ⟨nofun, fun null => (null _ .here).elim⟩
  | .bool value => ⟨fun _ => expressible_bool value, fun _ => rfl⟩
  | .number (.whole n fits) => by
    rw [isWritable, decide_eq_true_eq, expressible_of_alone fun _ within => by cases within; rfl]
    exact ⟨fun small => ⟨fits.1, small⟩, And.right⟩
  | .number (.real x) => by
    rw [expressible_of_alone fun _ within => by cases within; rfl]
    exact ⟨fun _ => trivial, fun _ => rfl⟩
  | .string value => ⟨fun _ => expressible_string value, fun _ => rfl⟩
  | .array items => by rw [isWritable, expressible_array, areWritable_iff items]
  | .object members => by rw [isWritable, expressible_object, membersAreWritable_iff members]

theorem areWritable_iff : (items : List Json) → (areWritable items = true ↔ ∀ item ∈ items, Expressible item)
  | [] => ⟨nofun, fun _ => rfl⟩
  | item :: rest => by
    rw [areWritable, Bool.and_eq_true, isWritable_iff item, areWritable_iff rest, List.forall_mem_cons]

theorem membersAreWritable_iff : (members : List (String × Json)) →
    (membersAreWritable members = true ↔ ∀ member ∈ members, Expressible member.2)
  | [] => ⟨nofun, fun _ => rfl⟩
  | (_, value) :: rest => by
    rw [membersAreWritable, Bool.and_eq_true, isWritable_iff value, membersAreWritable_iff rest,
      List.forall_mem_cons]

end

end Toml

end ToolChanger
