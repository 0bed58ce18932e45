import ToolChanger.Decimal.Binary64

/-!
# JSON values

A whole number is kept when it fits a signed or an unsigned 64-bit word, any other number is a finite double.
Members keep the order of the text, repeated names included; `Json.sorted` is the form in which they are stored.
-/

namespace ToolChanger

open Decimal

/-- A JSON number: a 64-bit word, signed or unsigned, or a finite double. -/
inductive Number where
  | whole (n : Int) (fits : -0x8000000000000000 ≤ n ∧ n < 0x10000000000000000)
  | real (x : Binary64)
  deriving DecidableEq

inductive Json where
  | null
  | bool (value : Bool)
  | number (value : Number)
  | string (value : String)
  | array (items : List Json)
  | object (members : List (String × Json))
  deriving BEq

namespace Json

instance : Inhabited Json := ⟨null⟩

def insertMember (name : String) (value : Json) : List (String × Json) → List (String × Json)
  | [] => [(name, value)]
  | (other, old) :: rest =>
    if name < other then (name, value) :: (other, old) :: rest
    else if name = other then (name, value) :: rest
    else (other, old) :: insertMember name value rest

/-- The members sorted by name; of members that share a name the last one stays. -/
def sortMembers (members : List (String × Json)) : List (String × Json) :=
  members.foldl (fun kept (name, value) => insertMember name value kept) []

mutual

def sorted : Json → Json
  | array items => array (sortedItems items)
  | object members => object (sortMembers (sortedValues members))
  | value => value

def sortedItems : List Json → List Json
  | [] => []
  | item :: rest => sorted item :: sortedItems rest

def sortedValues : List (String × Json) → List (String × Json)
  | [] => []
  | (name, value) :: rest => (name, sorted value) :: sortedValues rest

end

def ofInt? (n : Int) : Option Json :=
  if fits : -0x8000000000000000 ≤ n ∧ n < 0x10000000000000000 then some (number (.whole n fits)) else none

def ofUInt32 (n : UInt32) : Json :=
  number (.whole n.toNat ⟨by omega, by have := n.toNat_lt; omega⟩)

/-! ### Reading a value as something else -/

def asInt64? : Json → Option Int
  | number (.whole n _) => if n < 0x8000000000000000 then some n else none
  | _ => none

def asUInt32? : Json → Option UInt32
  | number (.whole n _) => if 0 ≤ n ∧ n < 0x100000000 then some n.toNat.toUInt32 else none
  | _ => none

def asReal? : Json → Option Binary64
  | number (.whole n _) => Binary64.ofDecimal (n < 0) n.natAbs 0
  | number (.real x) => some x
  | _ => none

def asString? : Json → Option String
  | string value => some value
  | _ => none

def asBool? : Json → Option Bool
  | bool value => some value
  | _ => none

/-- The single member under one of the names: `some none` when there is none, `none` when there are
several. -/
def single? (names : List String) (members : List (String × Json)) : Option (Option Json) :=
  match members.filter fun member => names.contains member.1 with
  | [] => some none
  | [member] => some (some member.2)
  | _ => none

/-- The values of the named fields of a record, which is written as an object, other members being
passed over, or as an array that gives the fields in order and may end early. -/
def fields? (names : List String) : Json → Option (List (Option Json))
  | object members => names.mapM fun name => single? [name] members
  | array items =>
    if items.length ≤ names.length then
      some ((List.range names.length).map fun i => items[i]?)
    else none
  | _ => none

theorem asUInt32?_ofUInt32 (n : UInt32) : (ofUInt32 n).asUInt32? = some n := by
  have below := n.toNat_lt
  have fits : (0 : Int) ≤ n.toNat ∧ (n.toNat : Int) < 0x100000000 := ⟨by omega, by omega⟩
  rw [ofUInt32, asUInt32?, if_pos fits]
  simp

end Json

end ToolChanger
