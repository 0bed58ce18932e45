import Mathlib.Data.List.Induction
import ToolChanger.Proofs.Override.Reading
import ToolChanger.Proofs.Text.Bytes

namespace ToolChanger

namespace Table

variable {α : Type}

theorem get?_ofList_eq_some_iff {pairs : List (ToolId × α)} {id : ToolId} {value : α} :
    (ofList pairs).get? id = some value ↔
      ∃ front back, pairs = front ++ (id, value) :: back ∧ ∀ pair ∈ back, pair.1 ≠ id := by
  constructor
  · induction pairs using List.reverseRecOn with
    | nil => exact nofun
    | append_singleton front pair ih =>
      intro found
      rw [ofList, List.foldl_append] at found
      change ((ofList front).insert pair.1 pair.2).get? id = some value at found
      rw [get?_insert] at found
      split at found
      · rename_i same
        obtain rfl := Option.some.inj found
        exact ⟨front, [], by rw [same], nofun⟩
      · rename_i different
        obtain ⟨before, after, rfl, last⟩ := ih found
        refine ⟨before, after ++ [pair], by rw [List.append_assoc, List.cons_append], fun other listed => ?_⟩
        rcases List.mem_append.mp listed with earlier | here
        · exact last other earlier
        · rw [List.mem_singleton.mp here]
          exact Ne.symm different
  · rintro ⟨front, back, rfl, last⟩
    rw [ofList, List.foldl_append, List.foldl_cons]
    cases found : (back.foldl (fun table pair => table.insert pair.1 pair.2)
        ((front.foldl (fun table pair => table.insert pair.1 pair.2) empty).insert id value)).get? id with
    | none =>
      exact absurd found (get?_foldl_insert_ne_none (.inr (by rw [get?_insert, if_pos rfl]; nofun)))
    | some other =>
      rcases mem_or_of_get?_foldl_insert found with later | now
      · exact absurd rfl (last _ later)
      · rwa [get?_insert, if_pos rfl, eq_comm] at now

end Table

namespace Overrides

open Json (member? sortMembers)

/-- A name tells what an object decides on a tool. Of members that share a name the last one counts. -/
def Tells (members : List (String × Json)) (name : String) (tool : ToolId) (decided : Override) : Prop :=
  ∃ value, member? name members = some value ∧ Names name tool ∧ Override.Means value decided

/-- An object decides on a tool as the greatest of the names does that tell something about it, names compared by
their bytes. -/
def Decides (members : List (String × Json)) (tool : ToolId) (decided : Override) : Prop :=
  ∃ name, Tells members name tool decided ∧
    ∀ other unlike, Tells members other tool unlike → Text.bytes other ≤ Text.bytes name

variable {members others : List (String × Json)} {tool : ToolId} {decided : Override}

theorem tells_iff {name : String} : Tells members name tool decided ↔
    ∃ value, (name, value) ∈ sortMembers members ∧ meaning? (name, value) = some (tool, decided) := by
  simp only [Tells, Json.mem_sortMembers_iff, meaning?_eq_some_iff]

/-- The members are taken in ascending order of their names, so the last one for a tool is the greatest. -/
theorem get?_foldl_addMember : ((sortMembers members).foldl addMember Table.empty).get? tool = some decided ↔
    Decides members tool decided := by
  have ascending := Json.ascending_sortMembers members
  simp only [Decides, tells_iff, ← Text.le_iff_bytes]
  rw [foldl_addMember]
  change (Table.ofList _).get? tool = some decided ↔ _
  rw [Table.get?_ofList_eq_some_iff]
  generalize sortMembers members = listed at ascending
  constructor
  · rintro ⟨before, after, split, last⟩
    obtain ⟨front, rest, rfl, rfl, stands⟩ := List.filterMap_eq_append_iff.mp split
    obtain ⟨skipped, ⟨name, value⟩, back, rfl, silent, means, rfl⟩ := List.filterMap_eq_cons_iff.mp stands
    refine ⟨name, ⟨value, by simp, means⟩, ?_⟩
    rintro other unlike ⟨given, inside, stands⟩
    rw [← List.append_assoc] at ascending inside
    obtain ⟨-, above, below⟩ := List.pairwise_append.mp ascending
    rcases List.mem_append.mp inside with earlier | later
    · exact le_of_lt (below _ earlier _ List.mem_cons_self)
    · rcases List.mem_cons.mp later with same | later
      · exact (Prod.mk.inj same).1 ▸ String.le_refl _
      · exact absurd rfl (last _ (List.mem_filterMap.mpr ⟨_, later, stands⟩))
  · rintro ⟨name, ⟨value, inside, means⟩, greatest⟩
    obtain ⟨front, back, rfl⟩ := List.append_of_mem inside
    refine ⟨front.filterMap meaning?, back.filterMap meaning?, ?_, ?_⟩
    · rw [List.filterMap_append, List.filterMap_cons, means]
    · rintro ⟨other, unlike⟩ listed rfl
      obtain ⟨⟨later, given⟩, inside, stands⟩ := List.mem_filterMap.mp listed
      have above := (List.pairwise_cons.mp (List.pairwise_append.mp ascending).2.1).1 _ inside
      have below := greatest later unlike ⟨given, by simp [inside], stands⟩
      exact absurd above (String.not_lt.mpr below)

theorem get?_foldl_addMember_eq_none_iff :
    ((sortMembers members).foldl addMember Table.empty).get? tool = none ↔
      ∀ name decided, ¬ Tells members name tool decided := by
  constructor
  · intro none name decided tells
    obtain ⟨value, listed, means⟩ := tells_iff.mp tells
    rw [foldl_addMember] at none
    have named : tool ∈ ((sortMembers members).filterMap meaning?).map (·.1) :=
      List.mem_map.mpr ⟨(tool, decided), List.mem_filterMap.mpr ⟨(name, value), listed, means⟩, rfl⟩
    exact Table.get?_foldl_insert_ne_none (.inl named) none
  · intro silent
    refine Option.eq_none_iff_forall_ne_some.mpr fun decided found => ?_
    obtain ⟨name, tells, -⟩ := get?_foldl_addMember.mp found
    exact silent name decided tells

theorem ofJson?_congr
    (agree : ∀ name tool decided, Tells members name tool decided ↔ Tells others name tool decided) :
    ofJson? (.object members) = ofJson? (.object others) := by
  refine congrArg some (Table.ext_get? fun tool => Option.ext fun decided => ?_)
  simp only [get?_foldl_addMember, Decides, agree]

/-! ### The stored form -/

theorem means_sorted {value : Json} : Override.Means value.sorted decided ↔ Override.Means value decided := by
  cases value with
  | array items => exact ⟨nofun, nofun⟩
  | object members => exact ⟨nofun, nofun⟩
  | _ => exact Iff.rfl

theorem ofJson?_sorted (value : Json) : ofJson? value.sorted = ofJson? value := by
  cases value with
  | object members =>
    refine ofJson?_congr fun name tool decided => ?_
    rw [Tells, Tells, Json.member?_sortMembers, Json.member?_sortedValues]
    cases member? name members with
    | none => simp
    | some value => simp [means_sorted]
  | _ => rfl

/-! ### Members that do not count -/

/-- The same members, those under one name in the same order. -/
def Reordered (members others : List (String × Json)) : Prop :=
  ∀ name, members.filter (·.1 = name) = others.filter (·.1 = name)

theorem reordered_of_perm (distinct : (members.map (·.1)).Nodup) (same : members.Perm others) :
    Reordered members others := by
  intro name
  have once : ((members.filter (·.1 = name)).map (·.1)).Nodup := distinct.sublist (List.filter_sublist.map _)
  have shared : ∀ member ∈ members.filter (·.1 = name), member.1 = name := fun member listed =>
    of_decide_eq_true (List.mem_filter.mp listed).2
  have kept := same.filter (·.1 = name)
  generalize members.filter (·.1 = name) = front at once shared kept
  match front with
  | [] => exact (List.nil_perm.mp kept).symm
  | [member] => exact List.singleton_perm.mp kept
  | first :: second :: rest =>
    have double := (shared first List.mem_cons_self).trans (shared second (by simp)).symm
    exact absurd (List.mem_cons.mpr (.inl double)) (List.nodup_cons.mp once).1

theorem Reordered.member?_eq (reordered : Reordered members others) (name : String) :
    member? name members = member? name others := by
  have among (members : List (String × Json)) :
      member? name (members.filter (·.1 = name)) = member? name members := by
    rw [Json.member?_filter (fun asked => decide (asked = name)), if_pos (decide_eq_true rfl)]
  rw [← among members, reordered name, among]

theorem ofJson?_omit {front back : List (String × Json)} {name : String} {value : Json}
    (alone : ∀ member ∈ front ++ back, member.1 ≠ name)
    (silent : ∀ tool decided, ¬ (Names name tool ∧ Override.Means value decided)) :
    ofJson? (.object (front ++ back)) = ofJson? (.object (front ++ (name, value) :: back)) := by
  have without : member? name (front ++ back) = none := Json.member?_eq_none_iff.mpr alone
  have told (asked : String) : member? asked (front ++ (name, value) :: back) =
      if asked = name then some value else member? asked (front ++ back) := by
    split
    · rename_i same
      have last : member? name back = none := Json.member?_eq_none_iff.mpr fun member listed =>
        alone member (List.mem_append_right _ listed)
      rw [same, Json.member?_append, Json.member?_cons, last, if_pos rfl]
      rfl
    · rename_i different
      rw [Json.member?_append, Json.member?_cons, if_neg different, Option.or_none, Json.member?_append]
  refine ofJson?_congr fun asked tool decided => ?_
  rw [Tells, Tells, told]
  split
  · rename_i same
    subst same
    rw [without]
    constructor
    · rintro ⟨_, ⟨⟩, -⟩
    · rintro ⟨_, ⟨⟩, tells⟩
      exact absurd tells (silent tool decided)
  · exact Iff.rfl

/-! ### An object of overrides -/

/-- Every object is read as overrides. A tool has the override that the object decides on, and none if nothing is
told about it. Neither the order of members under different names nor a member that means nothing makes a
difference. What can be stored is read as it was written, in the stored form as well. -/
theorem reads_as_decided :
    (∀ members, ∃ overrides, ofJson? (.object members) = some overrides ∧
      (∀ tool decided, overrides.get? tool = some decided ↔ Decides members tool decided) ∧
      (∀ tool, overrides.get? tool = none ↔ ∀ name decided, ¬ Tells members name tool decided) ∧
      (∀ others, Reordered members others → ofJson? (.object others) = some overrides) ∧
      ∀ front name value back, members = front ++ (name, value) :: back →
        (∀ member ∈ front ++ back, member.1 ≠ name) →
        (∀ tool decided, ¬ (Names name tool ∧ Override.Means value decided)) →
        ofJson? (.object (front ++ back)) = some overrides) ∧
    ∀ overrides, Storable overrides →
      ofJson? overrides.toJson = some overrides ∧ ofJson? overrides.toJson.sorted = some overrides := by
  constructor
  · intro members
    refine ⟨_, rfl, fun _ _ => get?_foldl_addMember, fun _ => get?_foldl_addMember_eq_none_iff, ?_, ?_⟩
    · intro others reordered
      refine (ofJson?_congr fun name tool decided => ?_).symm
      rw [Tells, Tells, reordered.member?_eq]
    · rintro front name value back rfl alone silent
      exact ofJson?_omit alone silent
  · intro overrides storable
    rw [ofJson?_sorted]
    exact ⟨ofJson?_toJson storable, ofJson?_toJson storable⟩

def spellings : List (String × Json) :=
  [(" 5 ", Json.ofUInt32 2), ("5", .string " None "), ("05", Json.ofUInt32 3), ("6", .bool true),
    ("+6", .string "4"), ("x", .null)]

/-- The greatest spelling of 5 puts the tool out of the magazine, and the invalid member leaves tool 6 its pocket. -/
theorem reads_as_decided_spellings : ∃ overrides, ofJson? (.object spellings) = some overrides ∧
    Decides spellings 5 .outOfMagazine ∧ Decides spellings 6 (.inPocket 4) ∧ overrides.get? 7 = none ∧
    ofJson? (.object spellings.reverse) = some overrides ∧ ofJson? overrides.toJson = some overrides := by
  obtain ⟨overrides, reads, decides, -, order, -⟩ := reads_as_decided.1 spellings
  have table : ofJson? (.object spellings) =
      some ((Table.empty.insert 5 Override.outOfMagazine).insert 6 (.inPocket 4)) := by
    decide +kernel
  obtain rfl := Option.some.inj (reads.symm.trans table)
  refine ⟨_, reads, (decides 5 _).mp rfl, (decides 6 _).mp rfl, rfl, ?_, ?_⟩
  · exact order _ (reordered_of_perm (by decide) (List.reverse_perm _).symm)
  · exact (reads_as_decided.2 _ (storable_ofJson? reads)).1

end Overrides

end ToolChanger
