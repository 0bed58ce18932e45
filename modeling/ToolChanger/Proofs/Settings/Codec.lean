import ToolChanger.Proofs.Override.Members

namespace ToolChanger

open Json (member? sorted)

namespace Settings

variable {settings : Settings}

structure Storable (settings : Settings) : Prop where
  overrides : settings.overrides.Storable
  extra : Json.Extra memberNames settings.extra

def modelled (settings : Settings) : List (String × Json) :=
  [("enableTranslation", .bool settings.enabled), ("annotationLabel", .string settings.label),
    ("manualToolMappings", settings.overrides.toJson)]

theorem names_modelled (settings : Settings) : (settings.modelled.map (·.1)).Sublist memberNames :=
  List.isSublist_iff_sublist.mp rfl

def enabledField : Option Json → Option Bool
  | none => some true
  | some value => value.asBool?

def labelField : Option Json → Option String
  | none => some "Fusion"
  | some value => value.asString?

def overridesField : Option Json → Option Overrides
  | none => some Table.empty
  | some value => Overrides.ofJson? value

theorem ofJson?_object (members : List (String × Json)) : ofJson? (.object members) = (do
    let enabled ← enabledField (← Json.single? ["enableTranslation", "enableToolNumberTranslation"] members)
    let label ← labelField (← Json.single? ["annotationLabel"] members)
    let overrides ← overridesField (← Json.single? ["manualToolMappings"] members)
    return { enabled, label, overrides, extra := Json.others memberNames members }) := by
  dsimp only [ofJson?]
  generalize Json.single? ["enableTranslation", "enableToolNumberTranslation"] members = enabling
  generalize Json.single? ["annotationLabel"] members = labelling
  generalize Json.single? ["manualToolMappings"] members = overruling
  rcases enabling with _ | _ | enabling
  all_goals rcases labelling with _ | _ | labelling
  all_goals rcases overruling with _ | _ | overruling
  all_goals rfl

theorem storable_default : ({} : Settings).Storable where
  overrides := Overrides.storable_empty
  extra := ⟨nofun, .nil, rfl⟩

section

/-- Members that are those of some settings, but for their order. -/
structure Lists (members : List (String × Json)) (settings : Settings) : Prop where
  distinct : (members.map (·.1)).Nodup
  told : ∀ name, (member? name members).map sorted = (member? name (settings.modelled ++ settings.extra)).map sorted

variable {members : List (String × Json)} (lists : Lists members settings) (storable : settings.Storable)
include lists storable

theorem Lists.others : Json.others memberNames members = settings.extra := by
  rw [← storable.extra.others_append settings.names_modelled]
  refine Json.ext_member? (Json.ascending_sortMembers _) (Json.ascending_sortMembers _) fun name => ?_
  rw [Json.member?_others, Json.member?_others, lists.told]

theorem Lists.modelled {name : String} (listed : name ∈ memberNames) :
    (member? name members).map sorted = (member? name settings.modelled).map sorted := by
  rw [lists.told, storable.extra.member?_append settings.names_modelled, if_pos listed]

theorem ofJson?_of_lists : ofJson? (.object members) = some settings := by
  have alone := Json.single?_singleton lists.distinct
  have enabling : Json.single? ["enableTranslation", "enableToolNumberTranslation"] members =
      some (member? "enableTranslation" members) := by
    refine Json.single?_of_nodup lists.distinct List.mem_cons_self fun other listed different => ?_
    obtain rfl : other = "enableToolNumberTranslation" := by simpa [different] using listed
    exact Option.map_eq_none_iff.mp (lists.modelled storable (by decide))
  obtain ⟨enabled, findsEnabled, sameEnabled⟩ : ∃ value, member? "enableTranslation" members = some value ∧
      value.sorted = .bool settings.enabled :=
    Option.map_eq_some_iff.mp (lists.modelled storable (by decide))
  obtain ⟨label, findsLabel, sameLabel⟩ : ∃ value, member? "annotationLabel" members = some value ∧
      value.sorted = .string settings.label :=
    Option.map_eq_some_iff.mp (lists.modelled storable (by decide))
  obtain ⟨overrides, findsOverrides, sameOverrides⟩ : ∃ value, member? "manualToolMappings" members = some value ∧
      value.sorted = settings.overrides.toJson.sorted :=
    Option.map_eq_some_iff.mp (lists.modelled storable (by decide))
  have readsEnabled : enabledField (some enabled) = some settings.enabled := by
    rw [enabledField, ← Json.asBool?_sorted, sameEnabled]
    rfl
  have readsLabel : labelField (some label) = some settings.label := by
    rw [labelField, ← Json.asString?_sorted, sameLabel]
    rfl
  have readsOverrides : overridesField (some overrides) = some settings.overrides := by
    rw [overridesField, ← Overrides.ofJson?_sorted, sameOverrides, Overrides.ofJson?_sorted,
      Overrides.ofJson?_toJson storable.overrides]
  rw [ofJson?_object, enabling, alone, alone, findsEnabled, findsLabel, findsOverrides, lists.others storable]
  change (do
    let enabled ← enabledField (some enabled)
    let label ← labelField (some label)
    let overrides ← overridesField (some overrides)
    return { enabled, label, overrides, extra := settings.extra }) = some settings
  rw [readsEnabled, readsLabel, readsOverrides]
  rfl

end

theorem ofJson?_toJson (storable : settings.Storable) : ofJson? settings.toJson = some settings :=
  ofJson?_of_lists ⟨storable.extra.nodup_append settings.names_modelled (by decide), fun _ => rfl⟩ storable

end Settings

end ToolChanger
