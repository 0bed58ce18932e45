import ToolChanger.Operator.Decision
import ToolChanger.Proofs.Override.Members

namespace ToolChanger

namespace Json

variable {members : List (String × Json)}

theorem single?_stored {name : String} (distinct : (members.map (·.1)).Nodup) :
    single? [name] (sortMembers (sortedValues members)) = (single? [name] members).map (·.map sorted) := by
  rw [single?_singleton (nodup_of_ascending (ascending_sortMembers _)), single?_singleton distinct,
    member?_sortMembers, member?_sortedValues]
  rfl

end Json

namespace Decision

/-! ### The stored form -/

theorem targetOf?_sorted (value : Option Json) : targetOf? (value.map Json.sorted) = targetOf? value := by
  cases value with
  | none => rfl
  | some value =>
    have same (decided : Override) : (Override.ofJson value.sorted).toOption = some decided ↔
        (Override.ofJson value).toOption = some decided := by
      have reads (value : Json) :
          (Override.ofJson value).toOption = some decided ↔ Override.ofJson value = .ok decided := by
        cases Override.ofJson value <;> simp [Except.toOption]
      rw [reads, reads, Override.ofJson_eq_ok_iff, Override.ofJson_eq_ok_iff, Overrides.means_sorted]
    exact Option.ext same

theorem sessionOf?_sorted (value : Option Json) : sessionOf? (value.map Json.sorted) = sessionOf? value := by
  cases value with
  | none => rfl
  | some value =>
    cases value with
    | object members => exact congrArg (Option.map some) (Overrides.ofJson?_sorted (.object members))
    | _ => rfl

theorem ofMembers?_stored {members : List (String × Json)} (distinct : (members.map (·.1)).Nodup) :
    ofMembers? (Json.sortMembers (Json.sortedValues members)) = ofMembers? members := by
  have word (found : Option Json) : (found.map Json.sorted).bind Json.asString? = found.bind Json.asString? := by
    rw [Option.bind_map, Function.comp_def]
    simp only [Json.asString?_sorted]
  have number (found : Option Json) : (found.map Json.sorted).bind Json.asUInt32? = found.bind Json.asUInt32? := by
    rw [Option.bind_map, Function.comp_def]
    simp only [Json.asUInt32?_sorted]
  unfold ofMembers?
  simp only [Json.single?_stored distinct, Option.bind_eq_bind, Option.bind_map, Function.comp_def, word, number,
    targetOf?_sorted, sessionOf?_sorted]

theorem ofJson?_toJson_sorted (decision : Decision) : ofJson? decision.toJson.sorted = ofJson? decision.toJson := by
  have word : ["action"].Nodup := by decide
  have remapping : ["action", "toolId", "pocket"].Nodup := by decide
  have refreshing : ["action", "sessionMappings"].Nodup := by decide
  cases decision with
  | bypass => exact ofMembers?_stored word
  | cancel => exact ofMembers?_stored word
  | map => exact ofMembers?_stored word
  | remap tool target => exact ofMembers?_stored remapping
  | refresh session => exact ofMembers?_stored refreshing

/-! ### Handing over -/

/-- A decision that names no pocket zero, and no tool zero among its session overrides. -/
def Storable : Decision → Prop
  | remap _ target => target ≠ .inPocket 0
  | refresh (some session) => session.Storable
  | _ => True

theorem ofMembers?_remap {members : List (String × Json)} {tool : Json} {target : Option Json}
    (action : Json.single? ["action"] members = some (some (.string "remap")))
    (numbered : Json.single? ["toolId"] members = some (some tool))
    (aimed : Json.single? ["pocket"] members = some target) :
    ofMembers? members = do return remap (← tool.asUInt32?) (← targetOf? target) := by
  rw [ofMembers?, action]
  change (do
    let tool ← (← Json.single? ["toolId"] members).bind Json.asUInt32?
    return remap tool (← targetOf? (← Json.single? ["pocket"] members))) = _
  rw [numbered, aimed]
  rfl

theorem ofJson?_remap (tool : ToolId) (target : Override) :
    ofJson? (remap tool target).toJson = (targetOf? (some target.toJson)).map (remap tool) := by
  refine (ofMembers?_remap rfl rfl rfl).trans ?_
  rw [Json.asUInt32?_ofUInt32]
  cases targetOf? (some target.toJson) <;> rfl

theorem targetOf?_toJson {target : Override} (positive : target ≠ .inPocket 0) :
    targetOf? (some target.toJson) = some target := by
  rw [targetOf?, Override.ofJson_toJson positive]
  rfl

theorem ofJson?_toJson {decision : Decision} (storable : decision.Storable) :
    ofJson? decision.toJson = some decision := by
  cases decision with
  | bypass => rfl
  | cancel => rfl
  | map => rfl
  | remap tool target => rw [ofJson?_remap, targetOf?_toJson storable, Option.map_some]
  | refresh session =>
    cases session with
    | none => rfl
    | some overrides =>
      change ((Overrides.ofJson? overrides.toJson).map some).bind (fun session => some (refresh session)) = _
      rw [Overrides.ofJson?_toJson storable]
      rfl

/-- Every decision that can be stored is read as it was written, from the members in the order of writing and in
that of storage. To keep the session overrides is told from having none, and out of the magazine from every
pocket. -/
theorem handed_over :
    (∀ decision, Storable decision →
      ofJson? decision.toJson = some decision ∧ ofJson? decision.toJson.sorted = some decision) ∧
    ofJson? (refresh none).toJson.sorted ≠ ofJson? (refresh (some Table.empty)).toJson.sorted ∧
    ∀ tool pocket, ofJson? (remap tool .outOfMagazine).toJson.sorted ≠
      ofJson? (remap tool (.inPocket pocket)).toJson.sorted := by
  simp only [ofJson?_toJson_sorted, and_self]
  have keeping : ofJson? (refresh none).toJson = some (refresh none) := ofJson?_toJson trivial
  have clearing : ofJson? (refresh (some Table.empty)).toJson = some (refresh (some Table.empty)) :=
    ofJson?_toJson Overrides.storable_empty
  refine ⟨fun decision => ofJson?_toJson, ?_, fun tool pocket same => ?_⟩
  · rw [keeping, clearing]
    nofun
  · have out : targetOf? (some Override.outOfMagazine.toJson) = some .outOfMagazine := targetOf?_toJson nofun
    rw [ofJson?_remap, ofJson?_remap, out] at same
    by_cases zero : pocket = 0
    · have refused : targetOf? (some (Override.inPocket 0).toJson) = none := by decide +kernel
      rw [zero, refused] at same
      cases same
    · rw [targetOf?_toJson fun none => zero (Override.inPocket.inj none)] at same
      cases same

/-- Two overrides whose names come in the other order in the stored form. -/
theorem handed_over_session :
    let session := (Table.empty.insert 2 Override.outOfMagazine).insert 10 (.inPocket 4)
    ofJson? (refresh (some session)).toJson.sorted = some (refresh (some session)) :=
  have storable : Overrides.Storable ((Table.empty.insert 2 Override.outOfMagazine).insert 10 (.inPocket 4)) :=
    (Overrides.storable_empty.insert (by decide) (by decide)).insert (by decide) (by decide)
  (handed_over.1 (refresh (some _)) storable).2

end Decision

end ToolChanger
