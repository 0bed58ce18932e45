import ToolChanger.Proofs.Remap.Record
import ToolChanger.Settings

/-!
# Pocket zero

The first pocket is one. Overrides that are read name no pocket zero, a session that is reconciled does not, and
a move that is accepted gives none away. Only a record may say zero: where none does, no tool is there.
-/

namespace ToolChanger

def Library.Positive (library : Library) : Prop := ∀ tool, library.pocketOf tool ≠ some 0

def Overrides.Positive (overrides : Overrides) : Prop := ∀ tool, overrides.get? tool ≠ some (.inPocket 0)

/-! ### Overrides that are read -/

theorem Override.ofInt_ne_zero {n : Int} {decided : Override} (read : Override.ofInt n = .ok decided) :
    decided ≠ .inPocket 0 := by
  unfold Override.ofInt at read
  split at read
  · obtain rfl := Except.ok.inj read
    exact Override.noConfusion
  · split at read
    · rename_i bounds
      obtain rfl := Except.ok.inj read
      intro zero
      have word := congrArg UInt32.toNat (Override.inPocket.inj zero)
      rw [Nat.toUInt32_eq, UInt32.toNat_ofNat'] at word
      have small : n.toNat < 2 ^ 32 := by omega
      rw [Nat.mod_eq_of_lt small, UInt32.toNat_zero] at word
      omega
    · cases read

theorem Override.ofJson_ne_zero {value : Json} {decided : Override} (read : Override.ofJson value = .ok decided) :
    decided ≠ .inPocket 0 := by
  unfold Override.ofJson at read
  split at read
  · obtain rfl := Except.ok.inj read
    exact Override.noConfusion
  · unfold Override.ofText at read
    simp only at read
    split at read
    · obtain rfl := Except.ok.inj read
      exact Override.noConfusion
    · split at read
      · exact Override.ofInt_ne_zero read
      · cases read
  · split at read
    · exact Override.ofInt_ne_zero read
    · cases read

namespace Overrides

variable {overrides : Overrides}

theorem positive_empty : Positive Table.empty := fun _ found => by cases found

theorem positive_insert (positive : overrides.Positive) (tool : ToolId) {decided : Override}
    (sound : decided ≠ .inPocket 0) : Positive (overrides.insert tool decided) := by
  intro other found
  rw [Table.get?_insert] at found
  split at found
  · exact sound (Option.some.inj found)
  · exact positive other found

theorem positive_addMember (positive : overrides.Positive) (member : String × Json) :
    (overrides.addMember member).Positive := by
  unfold addMember
  split
  · rename_i read
    exact positive_insert positive _ (Override.ofJson_ne_zero read)
  · exact positive

theorem positive_ofJson? {value : Json} (read : Overrides.ofJson? value = some overrides) :
    overrides.Positive := by
  unfold Overrides.ofJson? at read
  split at read
  · rename_i members
    obtain rfl := Option.some.inj read
    have folded : ∀ (members : List (String × Json)) (start : Overrides), start.Positive →
        Positive (members.foldl addMember start) := by
      intro members
      induction members with
      | nil => exact fun _ positive => positive
      | cons member rest ih => exact fun start positive => ih _ (positive_addMember positive member)
    exact folded _ _ positive_empty
  · cases read

theorem positive_overlay {session : Overrides} (below : overrides.Positive) (above : session.Positive) :
    Positive (overrides.overlay session) := by
  intro tool found
  rw [Table.get?_overlay] at found
  rcases Option.or_eq_some_iff.mp found with ours | ⟨-, theirs⟩
  · exact above tool ours
  · exact below tool theirs

theorem positive_update {updates : List (ToolId × Option Override)} (positive : overrides.Positive)
    (sound : ∀ update ∈ updates, update.2 ≠ some (.inPocket 0)) : (overrides.update updates).Positive := by
  induction updates generalizing overrides with
  | nil => exact positive
  | cons update rest ih =>
    obtain ⟨first, later⟩ := List.forall_mem_cons.mp sound
    rw [update_cons]
    refine ih (fun tool found => ?_) later
    rw [get?_update_one] at found
    split at found
    · exact first found
    · exact positive tool found

end Overrides

theorem Settings.positive_ofJson? {value : Json} {settings : Settings}
    (read : Settings.ofJson? value = some settings) : settings.overrides.Positive := by
  unfold Settings.ofJson? at read
  split at read
  · obtain ⟨enabling, -, read⟩ := Option.bind_eq_some_iff.mp read
    cases enabling
    all_goals
      obtain ⟨enabled, -, read⟩ := Option.bind_eq_some_iff.mp read
      obtain ⟨labelling, -, read⟩ := Option.bind_eq_some_iff.mp read
      cases labelling
      all_goals
        obtain ⟨label, -, read⟩ := Option.bind_eq_some_iff.mp read
        obtain ⟨overruling, -, read⟩ := Option.bind_eq_some_iff.mp read
        cases overruling with
        | none =>
          obtain ⟨overrides, found, made⟩ := Option.bind_eq_some_iff.mp read
          obtain rfl := Option.some.inj made
          obtain rfl := Option.some.inj found
          exact Overrides.positive_empty
        | some value =>
          obtain ⟨overrides, found, made⟩ := Option.bind_eq_some_iff.mp read
          obtain rfl := Option.some.inj made
          exact Overrides.positive_ofJson? found
  · cases read

/-! ### Moves -/

namespace Library

variable {library : Library}

theorem positive_empty : empty.Positive := fun _ held => by cases held

theorem positive_update {updates : List (ToolId × Option Pocket)} (positive : library.Positive)
    (sound : ∀ update ∈ updates, update.2 ≠ some 0) : (library.update updates).Positive := by
  intro tool held
  rcases mem_or_of_pocketOf_update held with written | before
  · exact sound _ written rfl
  · exact positive tool before

end Library

theorem positive_reconcile (incoming previous : Overrides) (library : Library) (persisted : Overrides)
    (capacity : UInt32) : (reconcile incoming previous library persisted capacity).Positive := by
  intro tool placed
  have within : (Layers.settleAll previous capacity _).SessionWithin capacity :=
    Layers.sessionWithin_settleAll (Layers.sessionWithin_admissible incoming capacity library persisted)
  exact absurd (within tool 0 placed) (by simp [Magazine.has])

theorem effectivePocket_ne_zero {library : Library} {overrides : Overrides} (recorded : library.Positive)
    (decided : overrides.Positive) (tool : ToolId) : effectivePocket library overrides tool ≠ some 0 := by
  unfold effectivePocket
  cases found : overrides.get? tool with
  | none => exact recorded tool
  | some decision =>
    intro zero
    cases decision with
    | inPocket pocket =>
      obtain rfl := Option.some.inj zero
      exact decided tool found
    | outOfMagazine => cases zero

namespace Layers

variable {layers : Layers} {tool : ToolId} {target : Override}

theorem pocketOf_ne_zero (library : layers.library.Positive) (persisted : layers.persisted.Positive)
    (session : layers.session.Positive) (tool : ToolId) : layers.pocketOf tool ≠ some 0 := by
  rw [pocketOf_eq_effectivePocket]
  exact effectivePocket_ne_zero library (Overrides.positive_overlay persisted session) tool

end Layers

/-- None of a plan's changes names pocket zero. -/
structure Plan.Positive (plan : Plan) : Prop where
  library : ∀ update ∈ plan.libraryUpdates, update.2 ≠ some 0
  persisted : ∀ update ∈ plan.persistedUpdates, update.2 ≠ some (.inPocket 0)
  session : ∀ update ∈ plan.sessionUpdates, update.2 ≠ some (.inPocket 0)

theorem Layers.positive_draft {layers : Layers} {tool : ToolId} {target : Override}
    (asked : target ≠ .inPocket 0) (left : layers.pocketOf tool ≠ some 0) :
    (layers.draft tool target).Positive := by
  have apart : 0 ∉ (layers.draft tool target).pockets := by
    rw [mem_pockets_draft, mem_given, not_or]
    refine ⟨fun zero => asked ?_, fun handed => left (pocketOf_of_handedOver handed)⟩
    cases target with
    | inPocket pocket => exact congrArg Override.inPocket (Option.some.inj zero)
    | outOfMagazine => cases zero
  unfold Plan.pockets at apart
  simp only [List.mem_append, List.mem_filterMap, not_or, not_exists, not_and] at apart
  obtain ⟨⟨-, library⟩, overrides⟩ := apart
  exact ⟨library, fun update listed zero => overrides update (.inl listed) (by rw [zero]; rfl),
    fun update listed zero => overrides update (.inr listed) (by rw [zero]; rfl)⟩

end ToolChanger
