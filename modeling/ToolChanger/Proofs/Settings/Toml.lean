import ToolChanger.Proofs.Settings.Codec
import ToolChanger.Proofs.Toml.Distinct
import ToolChanger.Settings.File

namespace ToolChanger

open Json (member? sorted)

namespace Toml

variable {entries : List (String × Value)} {name : String}

theorem membersToJson_eq_map (members : List (String × Value)) :
    Value.membersToJson members = members.map fun member => (member.1, member.2.toJson) := by
  induction members with
  | nil => rfl
  | cons head rest ih =>
    obtain ⟨name, value⟩ := head
    rw [Value.membersToJson, ih, List.map_cons]

theorem member?_finite (told : member? name (Value.membersToJson entries) ≠ some .null) :
    member? name (Value.membersToJson (entries.filter fun entry => entry.2.isFinite)) =
      member? name (Value.membersToJson entries) := by
  induction entries with
  | nil => rfl
  | cons head rest ih =>
    obtain ⟨other, value⟩ := head
    rw [Value.membersToJson, Json.member?_cons] at told
    have later : member? name (Value.membersToJson rest) ≠ some .null := by
      intro null
      rw [null] at told
      exact told rfl
    rw [Value.membersToJson, Json.member?_cons, ← ih later]
    by_cases kept : value.isFinite = true
    · rw [List.filter_cons_of_pos (by exact kept), Value.membersToJson, Json.member?_cons]
    · rw [List.filter_cons_of_neg (by exact kept)]
      -- the entry is null, so it has another name or there is a later one
      have null : value.toJson = .null := by
        cases value <;> first | rfl | exact absurd rfl kept
      rw [null, ← ih later] at told
      cases found : member? name (Value.membersToJson (rest.filter fun entry => entry.2.isFinite)) with
      | some value => rfl
      | none =>
        rw [found, Option.none_or] at told
        rw [Option.none_or]
        split at told
        · exact absurd rfl told
        · rename_i different
          rw [if_neg different]

theorem sorted_finite (told : ∀ name, member? name (Value.membersToJson entries) ≠ some .null) :
    (Value.table (entries.filter fun entry => entry.2.isFinite)).toJson.sorted =
      (Value.table entries).toJson.sorted := by
  rw [Value.toJson, Value.toJson]
  exact Json.sorted_object_eq_iff.mpr fun name => congrArg (Option.map sorted) (member?_finite (told name))

end Toml

namespace Overrides

variable {overrides : Overrides}

theorem map_member?_entries {name : String} {value : Json}
    (told : (member? name (overrides.entries.map member)).map sorted = some value) : ∃ n, value = .number n := by
  obtain ⟨found, finds, rfl⟩ := Option.map_eq_some_iff.mp told
  obtain ⟨entry, -, same⟩ := List.mem_map.mp (Json.mem_of_member? finds)
  obtain ⟨-, rfl⟩ := Prod.mk.inj same
  cases entry.2 <;> exact ⟨_, rfl⟩

end Overrides

namespace Settings

variable {settings : Settings}

theorem memberOfToml?_overrides {value : Toml.Value} {overrides : Overrides}
    (same : value.toJson.sorted = overrides.toJson.sorted) :
    ∃ json, memberOfToml? ("manualToolMappings", value) = some ("manualToolMappings", json) ∧
      json.sorted = value.toJson.sorted := by
  have written : overrides.toJson = .object (overrides.entries.map Overrides.member) := rfl
  rw [written] at same
  cases value with
  | table entries =>
    refine ⟨_, rfl, Toml.sorted_finite fun name null => ?_⟩
    rw [Toml.Value.toJson, Json.sorted_object_eq_iff] at same
    have told := (same name).symm
    rw [null] at told
    obtain ⟨n, ⟨⟩⟩ := Overrides.map_member?_entries told
  | moment moment =>
    rw [Toml.Value.toJson, Json.sorted_object_eq_iff] at same
    have told := (same Toml.Value.momentName).symm
    rw [Json.member?_cons, if_pos rfl] at told
    obtain ⟨n, ⟨⟩⟩ := Overrides.map_member?_entries told
  | _ => cases same

theorem mapM_memberOfToml? {read : List (String × Toml.Value)}
    (each : ∀ entry ∈ read, ∃ json, memberOfToml? entry = some (entry.1, json) ∧
      json.sorted = entry.2.toJson.sorted) :
    ∃ members, read.mapM memberOfToml? = some members ∧ members.map (·.1) = read.map (·.1) ∧
      Json.sortedValues members = Json.sortedValues (Toml.Value.membersToJson read) := by
  induction read with
  | nil => exact ⟨[], rfl, rfl, rfl⟩
  | cons entry rest ih =>
    obtain ⟨json, first, same⟩ := each entry List.mem_cons_self
    obtain ⟨members, others, names, values⟩ := ih fun entry listed => each entry (List.mem_cons_of_mem _ listed)
    refine ⟨(entry.1, json) :: members, ?_, ?_, ?_⟩
    · rw [List.mapM_cons, first, others]
      rfl
    · rw [List.map_cons, List.map_cons, names]
    · rw [Toml.Value.membersToJson, Json.sortedValues, Json.sortedValues, same, values]

/-- A table that is the settings' own but for the order in which it lists things. -/
theorem ofToml?_eq (storable : settings.Storable) {read : List (String × Toml.Value)} (distinct : Toml.Distinct read)
    (same : (Toml.Value.table read).toJson.sorted = settings.toJson.sorted) : ofToml? read = some settings := by
  have written : settings.toJson = .object (settings.modelled ++ settings.extra) := rfl
  rw [Toml.Value.toJson, written, Json.sorted_object_eq_iff] at same
  have distinctJson : ((Toml.Value.membersToJson read).map (·.1)).Nodup := by
    rw [Toml.membersToJson_eq_map, List.map_map]
    exact distinct
  have each (entry : String × Toml.Value) (listed : entry ∈ read) :
      ∃ json, memberOfToml? entry = some (entry.1, json) ∧ json.sorted = entry.2.toJson.sorted := by
    obtain ⟨name, value⟩ := entry
    by_cases overrides : name = "manualToolMappings"
    · subst overrides
      have inside : ("manualToolMappings", value.toJson) ∈ Toml.Value.membersToJson read := by
        rw [Toml.membersToJson_eq_map]
        exact List.mem_map_of_mem listed
      have told := same "manualToolMappings"
      rw [Json.member?_of_mem distinctJson inside, storable.extra.member?_append settings.names_modelled,
        if_pos (by decide)] at told
      exact memberOfToml?_overrides (Option.some.inj told)
    · exact ⟨_, if_neg overrides, rfl⟩
  obtain ⟨members, reads, names, values⟩ := mapM_memberOfToml? each
  rw [ofToml?, reads]
  refine ofJson?_of_lists ⟨names ▸ distinct, fun name => ?_⟩ storable
  rw [← same, ← Json.member?_sortedValues, values, Json.member?_sortedValues]

end Settings

end ToolChanger
