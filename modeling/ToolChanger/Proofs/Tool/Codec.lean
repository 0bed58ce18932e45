import ToolChanger.Proofs.Json.Members
import ToolChanger.Tool.Codec

namespace ToolChanger.Tool

open Json (member?)

variable {members : List (String × Json)}

/-! ### Reading -/

theorem offsets_of_ofJson? {offsets : Offsets}
    (decodes : Offsets.ofJson? (.object members) = some offsets) :
    realField (member? "tlo" members) = some offsets.length ∧
      realField (member? "x" members) = some offsets.x ∧
      realField (member? "y" members) = some offsets.y ∧
      realField (member? "z" members) = some offsets.z := by
  unfold Offsets.ofJson? at decodes
  obtain ⟨found, reads, decodes⟩ := Option.bind_eq_some_iff.mp decodes
  rw [Json.fields?_object reads] at decodes
  simp only [Offsets.memberNames, List.map_cons, List.map_nil, Option.bind_eq_bind, Option.pure_def,
    Option.bind_eq_some_iff, Option.some.injEq] at decodes
  obtain ⟨length, readsLength, x, readsX, y, readsY, z, readsZ, rfl⟩ := decodes
  exact ⟨readsLength, readsX, readsY, readsZ⟩

theorem metadata_of_ofJson? {metadata : Metadata}
    (decodes : Metadata.ofJson? (.object members) = some metadata) :
    textField (member? "notes" members) = some metadata.notes ∧
      textField (member? "image" members) = some metadata.image ∧
      textField (member? "sku" members) = some metadata.sku := by
  unfold Metadata.ofJson? at decodes
  obtain ⟨found, reads, decodes⟩ := Option.bind_eq_some_iff.mp decodes
  rw [Json.fields?_object reads] at decodes
  simp only [Metadata.memberNames, List.map_cons, List.map_nil, Option.bind_eq_bind, Option.pure_def,
    Option.bind_eq_some_iff, Option.some.injEq] at decodes
  obtain ⟨notes, readsNotes, image, readsImage, sku, readsSku, rfl⟩ := decodes
  exact ⟨readsNotes, readsImage, readsSku⟩

def kindField : Option Json → Option Kind
  | none => some .flat
  | some value => Kind.ofJson? value

theorem ofJson?_object (members : List (String × Json)) : ofJson? (.object members) = (do
    let id ← (← Json.single? ["id"] members).bind Json.asUInt32?
    let pocket ← pocketField (← Json.single? ["pocketNumber", "toolNumber"] members)
    let name ← textField (← Json.single? ["name"] members)
    let kind ← kindField (← Json.single? ["type"] members)
    let diameter ← realField (← Json.single? ["diameter"] members)
    let offsets ← sectionField Offsets.ofJson? (← Json.single? ["offsets"] members)
    let metadata ← sectionField Metadata.ofJson? (← Json.single? ["metadata"] members)
    return {
      id, pocket, name, kind, diameter, offsets, metadata
      extra := Json.others memberNames members }) := by
  dsimp only [ofJson?]
  generalize Json.single? ["type"] members = type
  rcases type with _ | _ | value <;> rfl

/-- How a record is read from members. -/
structure Reads (members : List (String × Json)) (tool : Tool) : Prop where
  id : (member? "id" members).bind Json.asUInt32? = some tool.id
  pocket : pocketField ((member? "pocketNumber" members).or (member? "toolNumber" members)) =
    some tool.pocket
  alone : member? "pocketNumber" members = none ∨ member? "toolNumber" members = none
  name : textField (member? "name" members) = some tool.name
  kind : kindField (member? "type" members) = some tool.kind
  diameter : realField (member? "diameter" members) = some tool.diameter
  offsets : sectionField Offsets.ofJson? (member? "offsets" members) = some tool.offsets
  metadata : sectionField Metadata.ofJson? (member? "metadata" members) = some tool.metadata
  extra : tool.extra = Json.others memberNames members

theorem reads_of_ofJson? {tool : Tool} (decodes : ofJson? (.object members) = some tool) :
    Reads members tool := by
  rw [ofJson?_object] at decodes
  simp only [Option.bind_eq_bind, Option.pure_def, Option.bind_eq_some_iff, Option.some.injEq] at decodes
  obtain ⟨_, found, id, ⟨given, rfl, readsId⟩, pocket, either, place, readsPocket, _, single, name, readsName,
    _, singleKind, kind, readsKind, _, singleDiameter, diameter, readsDiameter, _, singleOffsets, offsets,
    readsOffsets, _, singleMetadata, metadata, readsMetadata, rfl⟩ := decodes
  obtain rfl := Json.member?_of_single? single
  obtain rfl := Json.member?_of_single? singleKind
  obtain rfl := Json.member?_of_single? singleDiameter
  obtain rfl := Json.member?_of_single? singleOffsets
  obtain rfl := Json.member?_of_single? singleMetadata
  have places : (member? "pocketNumber" members).or (member? "toolNumber" members) = pocket ∧
      (member? "pocketNumber" members = none ∨ member? "toolNumber" members = none) := by
    rcases Json.single?_eq_some either with ⟨rfl, absent⟩ | ⟨chosen, listed, found, -, others⟩
    · rw [absent _ List.mem_cons_self, absent _ (List.mem_cons_of_mem _ List.mem_cons_self)]
      exact ⟨rfl, .inl rfl⟩
    · rcases List.mem_cons.mp listed with rfl | listed
      · rw [found, others "toolNumber" (by decide) (by decide)]
        exact ⟨Option.or_none, .inr rfl⟩
      · obtain rfl := List.mem_singleton.mp listed
        rw [found, others "pocketNumber" (by decide) (by decide)]
        exact ⟨Option.none_or, .inl rfl⟩
  exact
    { id := by rw [Json.member?_of_single? found]; exact readsId
      pocket := places.1 ▸ readsPocket
      alone := places.2
      name := readsName
      kind := readsKind
      diameter := readsDiameter
      offsets := readsOffsets
      metadata := readsMetadata
      extra := rfl }

theorem ofJson?_of_singles {tool : Tool} {id pocket name kind diameter offsets metadata : Option Json}
    (singleId : Json.single? ["id"] members = some id) (readsId : id.bind Json.asUInt32? = some tool.id)
    (singlePocket : Json.single? ["pocketNumber", "toolNumber"] members = some pocket)
    (readsPocket : pocketField pocket = some tool.pocket)
    (singleName : Json.single? ["name"] members = some name) (readsName : textField name = some tool.name)
    (singleKind : Json.single? ["type"] members = some kind) (readsKind : kindField kind = some tool.kind)
    (singleDiameter : Json.single? ["diameter"] members = some diameter)
    (readsDiameter : realField diameter = some tool.diameter)
    (singleOffsets : Json.single? ["offsets"] members = some offsets)
    (readsOffsets : sectionField Offsets.ofJson? offsets = some tool.offsets)
    (singleMetadata : Json.single? ["metadata"] members = some metadata)
    (readsMetadata : sectionField Metadata.ofJson? metadata = some tool.metadata)
    (extra : Json.others memberNames members = tool.extra) :
    ofJson? (.object members) = some tool := by
  rw [ofJson?_object, singleId, singlePocket, singleName, singleKind, singleDiameter, singleOffsets,
    singleMetadata]
  simp only [Option.bind_eq_bind, Option.bind_some, Option.pure_def, readsId, readsPocket, readsName, readsKind,
    readsDiameter, readsOffsets, readsMetadata, extra]

/-! ### Writing -/

/-- What a record is written with under a name. -/
def written? (tool : Tool) (name : String) : Option Json :=
  match name with
  | "id" => some (Json.ofUInt32 tool.id)
  | "pocketNumber" => some (pocketJson tool.pocket)
  | "toolNumber" => none
  | "name" => some (.string tool.name)
  | "type" => some (.string tool.kind.word)
  | "diameter" => some (realJson tool.diameter)
  | "offsets" => tool.offsets.map Offsets.toJson
  | "metadata" => tool.metadata.map Metadata.toJson
  | name => member? name tool.extra

/-- Members that are not modelled stand apart. That is all that a record needs to be written and read. -/
def Storable (tool : Tool) : Prop := Json.Extra memberNames tool.extra

def modelled (tool : Tool) : List (String × Json) :=
  [("id", Json.ofUInt32 tool.id), ("pocketNumber", pocketJson tool.pocket),
    ("name", .string tool.name), ("type", .string tool.kind.word),
    ("diameter", realJson tool.diameter)] ++
  (tool.offsets.map fun offsets => ("offsets", offsets.toJson)).toList ++
  (tool.metadata.map fun metadata => ("metadata", metadata.toJson)).toList

theorem toJson_eq (tool : Tool) : tool.toJson = .object (tool.modelled ++ tool.extra) := rfl

theorem names_modelled (tool : Tool) : (tool.modelled.map (·.1)).Sublist memberNames := by
  obtain ⟨id, pocket, name, kind, diameter, offsets, metadata, extra⟩ := tool
  cases offsets <;> cases metadata <;> exact List.isSublist_iff_sublist.mp rfl

theorem written?_of_unmodelled (tool : Tool) {name : String} (other : name ∉ memberNames) :
    tool.written? name = member? name tool.extra := by
  unfold written?
  split
  all_goals first | rfl | exact absurd (by decide) other

theorem member?_modelled (tool : Tool) {name : String} (listed : name ∈ memberNames) :
    member? name tool.modelled = tool.written? name := by
  obtain ⟨id, pocket, label, kind, diameter, offsets, metadata, extra⟩ := tool
  simp only [memberNames, List.mem_cons, List.not_mem_nil, or_false] at listed
  rcases listed with rfl | rfl | rfl | rfl | rfl | rfl | rfl | rfl
  all_goals cases offsets <;> cases metadata <;> rfl

theorem nodup_written {tool : Tool} (storable : tool.Storable) :
    ((tool.modelled ++ tool.extra).map (·.1)).Nodup :=
  storable.nodup_append tool.names_modelled (by decide)

theorem member?_written {tool : Tool} (storable : tool.Storable) (name : String) :
    member? name (tool.modelled ++ tool.extra) = tool.written? name := by
  rw [storable.member?_append tool.names_modelled]
  split
  · rename_i listed
    exact member?_modelled tool listed
  · rename_i other
    exact (written?_of_unmodelled tool other).symm

/-! ### Writing and reading -/

theorem Reads.storable {tool : Tool} (reads : Reads members tool) : tool.Storable := by
  rw [Storable, reads.extra]
  exact Json.extra_others memberNames members

theorem Kind.ofWord_word (kind : Kind) : Kind.ofWord kind.word = kind := by
  cases kind <;> decide

theorem Offsets.ofJson?_toJson (offsets : Offsets) : Offsets.ofJson? offsets.toJson = some offsets := rfl

theorem Metadata.ofJson?_toJson (metadata : Metadata) :
    Metadata.ofJson? metadata.toJson = some metadata := rfl

theorem pocketField_pocketJson (pocket : Option Pocket) : pocketField (some (pocketJson pocket)) = some pocket := by
  cases pocket with
  | none => rfl
  | some pocket =>
    rw [pocketJson, pocketField, Json.asUInt32?_ofUInt32]
    · rfl
    · exact nofun

theorem sectionField_map {α : Type} {read : Json → Option α} {write : α → Json}
    (restores : ∀ part, read (write part) = some part) (present : ∀ part, write part ≠ .null)
    (part : Option α) : sectionField read (part.map write) = some part := by
  cases part with
  | none => rfl
  | some part =>
    rw [Option.map_some, sectionField, restores]
    · rfl
    · exact present part

theorem ofJson?_toJson {tool : Tool} (storable : tool.Storable) : ofJson? tool.toJson = some tool := by
  have distinct := nodup_written storable
  have told := member?_written storable
  have alone (name : String) : Json.single? [name] (tool.modelled ++ tool.extra) = some (tool.written? name) := by
    rw [Json.single?_singleton distinct, told]
  have pocket : Json.single? ["pocketNumber", "toolNumber"] (tool.modelled ++ tool.extra) =
      some (some (pocketJson tool.pocket)) := by
    have first : "pocketNumber" ∈ ["pocketNumber", "toolNumber"] := List.mem_cons_self
    rw [Json.single?_of_nodup distinct first ?_, told]
    · rfl
    · intro name listed different
      obtain rfl : name = "toolNumber" := by simpa [different] using listed
      exact told _
  have id : (some (Json.ofUInt32 tool.id)).bind Json.asUInt32? = some tool.id := by
    rw [Option.bind_some, Json.asUInt32?_ofUInt32]
  rw [toJson_eq]
  exact ofJson?_of_singles (alone "id") id pocket (pocketField_pocketJson _) (alone "name") rfl
    (alone "type") (congrArg some (Kind.ofWord_word tool.kind)) (alone "diameter") rfl
    (alone "offsets") (sectionField_map Offsets.ofJson?_toJson (fun _ => nofun) _)
    (alone "metadata") (sectionField_map Metadata.ofJson?_toJson (fun _ => nofun) _)
    (storable.others_append tool.names_modelled)

/-! ### A whole library -/

theorem listOfJson?_listToJson {tools : List Tool} (storable : ∀ tool ∈ tools, tool.Storable) :
    listOfJson? (listToJson tools) = some tools := by
  change (tools.map toJson).mapM ofJson? = some tools
  induction tools with
  | nil => rfl
  | cons tool rest ih =>
    rw [List.map_cons, List.mapM_cons, ofJson?_toJson (storable tool List.mem_cons_self),
      ih fun other listed => storable other (List.mem_cons_of_mem _ listed)]
    rfl

end ToolChanger.Tool
