import ToolChanger.Proofs.Json.Members
import ToolChanger.Proofs.Remap.Positive

namespace ToolChanger

namespace Override

theorem ofJson_toJson {decided : Override} (positive : decided ≠ .inPocket 0) :
    ofJson decided.toJson = .ok decided := by
  cases decided with
  | outOfMagazine => rfl
  | inPocket pocket =>
    have above : pocket.toNat ≠ 0 := fun zero => positive (congrArg inPocket (UInt32.toNat_inj.mp zero))
    have below := pocket.toNat_lt
    have reads : (Json.ofUInt32 pocket).asInt64? = some (pocket.toNat : Int) := by
      rw [Json.ofUInt32, Json.asInt64?, if_pos (by omega)]
    have back : ((pocket.toNat : Int)).toNat.toUInt32 = pocket := by simp
    rw [toJson, ofJson, reads]
    · change ofInt pocket.toNat = _
      rw [ofInt, if_neg (by omega), if_pos (by omega), back]
    · intro same
      cases same
    · intro text same
      cases same

end Override

namespace Overrides

/-- What can be written and read again: there are no overrides for tool zero and none that name pocket zero. -/
structure Storable (overrides : Overrides) : Prop where
  tool : overrides.get? 0 = none
  pocket : overrides.Positive

theorem storable_empty : Storable Table.empty := ⟨rfl, positive_empty⟩

theorem Storable.insert {overrides : Overrides} (storable : overrides.Storable) {tool : ToolId} {decided : Override}
    (positive : tool ≠ 0) (pocket : decided ≠ .inPocket 0) : Storable (Table.insert overrides tool decided) where
  tool := by rw [Table.get?_insert, if_neg positive.symm, storable.tool]
  pocket := positive_insert storable.pocket tool pocket

theorem readId_toString {tool : ToolId} (positive : tool ≠ 0) : readId (toString tool.toNat) = some tool := by
  have digits : (toString tool.toNat).toList = Text.numeral tool.toNat := by
    rw [Nat.toString_eq_repr, Nat.repr, String.toList_ofList, Text.numeral]
  have solid : Text.trim (Text.numeral tool.toNat) = Text.numeral tool.toNat :=
    Text.trim_of_solid fun c listed =>
      Text.isBlank_of_isDigit (List.all_eq_true.mp (Text.numeral_isDigit tool.toNat) c listed)
  rw [readId, digits, solid, Text.readUInt32_numeral]
  simp [positive]

def meaning? (member : String × Json) : Option (ToolId × Override) :=
  match readId member.1, Override.ofJson member.2 with
  | some id, .ok value => some (id, value)
  | _, _ => none

theorem foldl_addMember (members : List (String × Json)) (overrides : Overrides) :
    members.foldl addMember overrides =
      (members.filterMap meaning?).foldl (fun overrides entry => overrides.insert entry.1 entry.2) overrides := by
  induction members generalizing overrides with
  | nil => rfl
  | cons member rest ih =>
    rw [List.foldl_cons, ih, List.filterMap_cons, addMember, meaning?]
    cases readId member.1 <;> cases Override.ofJson member.2 <;> rfl

def member (entry : ToolId × Override) : String × Json := (toString entry.1.toNat, entry.2.toJson)

theorem meaning?_member {entry : ToolId × Override} (tool : entry.1 ≠ 0) (pocket : entry.2 ≠ .inPocket 0) :
    meaning? (member entry) = some entry := by
  rw [meaning?, member, readId_toString tool, Override.ofJson_toJson pocket]

variable {overrides : Overrides}

theorem Storable.tool_ne_zero (storable : overrides.Storable) {entry : ToolId × Override}
    (listed : entry ∈ overrides.entries) : entry.1 ≠ 0 := by
  intro zero
  have found : overrides.get? entry.1 = some entry.2 := Table.get?_eq_some_iff.mpr listed
  rw [zero, storable.tool] at found
  cases found

theorem Storable.entry (storable : overrides.Storable) {entry : ToolId × Override}
    (listed : entry ∈ overrides.entries) : meaning? (member entry) = some entry := by
  have found : overrides.get? entry.1 = some entry.2 := Table.get?_eq_some_iff.mpr listed
  exact meaning?_member (storable.tool_ne_zero listed) fun zero => storable.pocket entry.1 (zero ▸ found)

theorem Storable.nodup (storable : overrides.Storable) :
    ((overrides.entries.map member).map (·.1)).Nodup := by
  rw [List.map_map]
  refine List.pairwise_map.mpr (overrides.sorted.imp_of_mem fun {a b} inA inB below same => ?_)
  have tools := (readId_toString (storable.tool_ne_zero inA)).symm.trans
    ((congrArg readId same).trans (readId_toString (storable.tool_ne_zero inB)))
  exact UInt32.lt_irrefl _ (Option.some.inj tools ▸ below)

theorem ofJson?_toJson (storable : overrides.Storable) : ofJson? overrides.toJson = some overrides := by
  change some ((Json.sortMembers (overrides.entries.map member)).foldl addMember Table.empty) = some overrides
  rw [foldl_addMember]
  refine congrArg some (Table.ofList_eq fun pair => ?_)
  rw [List.mem_filterMap]
  constructor
  · rintro ⟨named, listed, stands⟩
    obtain ⟨entry, inside, rfl⟩ := List.mem_map.mp ((Json.mem_sortMembers storable.nodup).mp listed)
    rw [storable.entry inside] at stands
    exact Option.some.inj stands ▸ inside
  · intro inside
    exact ⟨member pair, (Json.mem_sortMembers storable.nodup).mpr (List.mem_map_of_mem inside),
      storable.entry inside⟩

theorem storable_ofJson? {value : Json} (reads : ofJson? value = some overrides) : overrides.Storable := by
  refine ⟨?_, positive_ofJson? reads⟩
  cases value with
  | object members =>
    have made : (Json.sortMembers members).foldl addMember Table.empty = overrides := Option.some.inj reads
    rw [foldl_addMember] at made
    rw [← made]
    refine Option.eq_none_iff_forall_ne_some.mpr fun decided found => ?_
    obtain ⟨named, -, stands⟩ := List.mem_filterMap.mp (Table.mem_of_get?_ofList found)
    unfold meaning? at stands
    split at stands
    · rename_i tool given reads _
      obtain ⟨rfl, rfl⟩ := Prod.mk.inj (Option.some.inj stands)
      exact absurd (Option.filter_eq_some_iff.mp reads).2 (by decide)
    · cases stands
  | _ => cases reads

end Overrides

end ToolChanger
