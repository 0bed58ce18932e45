import Mathlib
import ToolChanger.Proofs.Settings.Toml
import ToolChanger.Proofs.Store.Disk
import ToolChanger.Proofs.Toml.Expressible

/-!
# Settings files

A save writes its file in one go or leaves everything as it is. What the printers of the two formats write is taken
to be read back, TOML tables with their members in any order.
-/

namespace ToolChanger

/-- At a path, what has been written as a whole is what is read next. -/
def FileSystem.Retains (σ : Type) [FileSystem (StateM σ)] (path : String) : Prop :=
  ∀ (bytes : ByteArray) (state next : σ), (FileSystem.write path bytes : StateM σ Bool).run state = (true, next) →
    ((FileSystem.read path : StateM σ _).run next).1 = .ok bytes

theorem Disk.retains (path : String) : FileSystem.Retains Disk path := by
  intro bytes disk next writes
  have written : disk.write path bytes = some next := Disk.of_change writes
  exact read_of_write written

namespace Settings

variable {settings : Settings} {text path : String} {format : Format}

/-! ### Formats -/

/-- Whether what is printed for a value is read as that value. Members of TOML tables may come in another order. -/
def Format.ReadsBack (format : Format) (value : Json) : Prop :=
  match format with
  | json => Json.parse? value.toPretty = some value
  | toml => ∀ text, Toml.print? value = some text →
      ∃ read, Toml.parse? text = some read ∧ (Toml.Value.table read).toJson.sorted = value.sorted

theorem expressible_overrides (overrides : Overrides) : Toml.Expressible overrides.toJson := by
  refine Toml.expressible_object.mpr fun member listed => ?_
  obtain ⟨entry, -, rfl⟩ := List.mem_map.mp listed
  refine (Toml.isWritable_iff _).mp ?_
  dsimp only
  cases entry.2 with
  | outOfMagazine => rfl
  | inPocket pocket =>
    have below := pocket.toNat_lt
    rw [Override.toJson, Json.ofUInt32, Toml.isWritable, decide_eq_true_eq]
    omega

theorem expressible_modelled (settings : Settings) : ∀ member ∈ settings.modelled, Toml.Expressible member.2 := by
  simp only [modelled, List.forall_mem_cons]
  exact ⟨Toml.expressible_bool _, Toml.expressible_string _, expressible_overrides _, List.forall_mem_nil _⟩

theorem encode_eq_ok (expressible : format = .toml → ∀ member ∈ settings.extra, Toml.Expressible member.2) :
    ∃ text, format.encode settings = .ok text := by
  cases format with
  | json => exact ⟨_, rfl⟩
  | toml =>
    have written : settings.toJson = .object (settings.modelled ++ settings.extra) := rfl
    have writable : Toml.membersAreWritable (settings.modelled ++ settings.extra) = true :=
      (Toml.membersAreWritable_iff _).mpr
        (List.forall_mem_append.mpr ⟨settings.expressible_modelled, expressible rfl⟩)
    rw [Format.encode, written, Toml.print?, if_pos writable]
    exact ⟨_, rfl⟩

theorem decode_of_encode (storable : settings.Storable) (readsBack : format.ReadsBack settings.toJson)
    (encodes : format.encode settings = .ok text) : format.decode text = .ok settings := by
  cases format with
  | json =>
    obtain rfl := Except.ok.inj encodes
    have reads : Json.parse? settings.toJson.toPretty = some settings.toJson := readsBack
    rw [Format.decode, reads, Option.bind_some, ofJson?_toJson storable]
    rfl
  | toml =>
    rw [Format.encode] at encodes
    cases prints : Toml.print? settings.toJson with
    | none =>
      rw [prints] at encodes
      cases encodes
    | some printed =>
      rw [prints] at encodes
      obtain rfl := Except.ok.inj encodes
      obtain ⟨read, reads, same⟩ := readsBack printed prints
      rw [Format.decode, reads, Option.bind_some, ofToml?_eq storable (Toml.parse?_distinct reads) same]
      rfl

/-! ### Files -/

variable {σ : Type} [FileSystem (StateM σ)] {state next : σ}

omit [FileSystem (StateM σ)] in
theorem run_formatOf {α : Type} (path : String) (rest : Format → ExceptT StoreError (StateM σ) α) (state : σ) :
    (do rest (← formatOf path) : ExceptT StoreError (StateM σ) α).run.run state =
      match Format.ofPath? path with
      | some format => (rest format).run.run state
      | none => (.error (.unsupportedFormat path), state) := by
  rw [formatOf]
  cases Format.ofPath? path <;> rfl

omit [FileSystem (StateM σ)] in
theorem run_lift_except {α β : Type} (result : Except StoreError α) (rest : α → ExceptT StoreError (StateM σ) β)
    (state : σ) : (do rest (← (result : Except _ _)) : ExceptT StoreError (StateM σ) β).run.run state =
      match result with
      | .ok value => (rest value).run.run state
      | .error error => (.error error, state) := by
  cases result <;> rfl

/-- A save writes the file once, or it fails before it has done anything. -/
theorem saveFile_run (path : String) (settings : Settings) (state : σ) :
    (saveFile path settings : ExceptT StoreError (StateM σ) Unit).run.run state =
      if settings.isValid then
        match Format.ofPath? path with
        | some format =>
          match format.encode settings with
          | .ok text =>
            let (written, next) := (FileSystem.write path text.toUTF8 : StateM σ Bool).run state
            (if written then .ok () else .error .refused, next)
          | .error error => (.error error, state)
        | none => (.error (.unsupportedFormat path), state)
      else (.error .blankLabel, state) := by
  unfold saveFile
  rw [Folder.run_validate, run_formatOf]
  cases Format.ofPath? path with
  | none => rfl
  | some format =>
    dsimp only
    rw [run_lift_except]
    cases format.encode settings with
    | error error => rfl
    | ok text =>
      dsimp only
      rcases writes : (FileSystem.write path text.toUTF8 : StateM σ Bool).run state with ⟨written, next⟩
      rw [Folder.run_lift_bind writes]
      cases written <;> rfl

theorem loadFile_run (reads : ((FileSystem.read path : StateM σ _).run state).1 = .ok text.toUTF8)
    (named : Format.ofPath? path = some format) (decodes : format.decode text = .ok settings)
    (valid : settings.isValid = true) :
    ((loadFile path : ExceptT StoreError (StateM σ) Settings).run.run state).1 = .ok settings := by
  rcases read : (FileSystem.read path : StateM σ _).run state with ⟨bytes, final⟩
  obtain rfl : bytes = .ok text.toUTF8 := by rw [← reads, read]
  have decoded : (Except.ok text.toUTF8 : Except ReadFailure _).bind FileSystem.decoded = .ok text := by
    rw [Except.bind, FileSystem.decoded, Text.fromUTF8?_toUTF8]
  have found := Folder.readText_run read
  rw [decoded] at found
  unfold loadFile
  rw [Folder.run_lift_bind found]
  dsimp only
  rw [run_formatOf, named]
  dsimp only
  rw [run_lift_except, decodes]
  dsimp only
  rw [Folder.run_validate, if_pos valid]
  rfl

/-- A save of valid settings writes their file once, and from then on the file holds them: a load gives them back. In
TOML this takes extra members that TOML has values for. A save that the file system did not refuse and that fails
nevertheless has not changed anything. -/
theorem saved_or_untouched (path : String) (settings : Settings) :
    (∀ format, Format.ofPath? path = some format → settings.isValid = true → settings.Storable →
      (format = .toml → ∀ member ∈ settings.extra, Toml.Expressible member.2) →
      format.ReadsBack settings.toJson → FileSystem.Retains σ path →
      (∃ text : String, ∀ (state next : σ) (written : Bool),
        (FileSystem.write path text.toUTF8 : StateM σ Bool).run state = (written, next) →
        (saveFile path settings : ExceptT StoreError (StateM σ) Unit).run.run state =
          (if written then .ok () else .error .refused, next)) ∧
      ∀ state next : σ,
        (saveFile path settings : ExceptT StoreError (StateM σ) Unit).run.run state = (.ok (), next) →
        ((loadFile path : ExceptT StoreError (StateM σ) Settings).run.run next).1 = .ok settings) ∧
    ∀ (state next : σ) (error : StoreError),
      (saveFile path settings : ExceptT StoreError (StateM σ) Unit).run.run state = (.error error, next) →
      error ≠ .refused → next = state := by
  constructor
  · intro format named valid storable expressible readsBack retains
    obtain ⟨text, encodes⟩ := encode_eq_ok expressible
    have saves (state : σ) : (saveFile path settings : ExceptT StoreError (StateM σ) Unit).run.run state =
        let (written, next) := (FileSystem.write path text.toUTF8 : StateM σ Bool).run state
        (if written then .ok () else .error .refused, next) := by
      rw [saveFile_run, if_pos valid, named]
      dsimp only
      rw [encodes]
      rfl
    refine ⟨⟨text, fun state next written writes => by rw [saves, writes]⟩, fun state next saved => ?_⟩
    rcases writes : (FileSystem.write path text.toUTF8 : StateM σ Bool).run state with ⟨written, after⟩
    rw [saves, writes] at saved
    cases written with
    | false => cases saved
    | true =>
      obtain ⟨-, rfl⟩ := Prod.mk.inj saved
      exact loadFile_run (retains _ state after writes) named (decode_of_encode storable readsBack encodes) valid
  · intro state next error fails notRefused
    rw [saveFile_run] at fails
    split at fails
    · split at fails
      · split at fails
        · rename_i text _
          rcases writes : (FileSystem.write path text.toUTF8 : StateM σ Bool).run state with ⟨written, after⟩
          rw [writes] at fails
          cases written with
          | false => exact absurd (Except.error.inj (Prod.mk.inj fails).1).symm notRefused
          | true => cases fails
        · exact (Prod.mk.inj fails).2.symm
      · exact (Prod.mk.inj fails).2.symm
    · exact (Prod.mk.inj fails).2.symm

def overruled : Settings where
  label := "S"
  overrides := Table.empty.insert 9 .outOfMagazine
  extra := [("c", .bool true)]

theorem storable_overruled : overruled.Storable where
  overrides := Overrides.storable_empty.insert (by decide) nofun
  extra := ⟨by decide, List.pairwise_singleton _ _, rfl⟩

theorem readsBack_overruled : Format.toml.ReadsBack overruled.toJson := by
  have prints : Toml.print? overruled.toJson = some
      "enableTranslation = true\nannotationLabel = \"S\"\nc = true\n\n[manualToolMappings]\n9 = -1\n" := by
    decide +kernel
  intro text printed
  obtain rfl := Option.some.inj (prints.symm.trans printed)
  refine ⟨_, Toml.parse?_eq_some_iff.mpr ⟨[.assign [] "enableTranslation" (.boolean true),
    .assign [] "annotationLabel" (.string "S"), .assign [] "c" (.boolean true), .header [] "manualToolMappings",
    .assign [] "9" (.integer (-1) (by decide))], _, by cbv, rfl, rfl⟩, ?_⟩
  rfl

/-- Both formats give the settings back. Where TOML has no value for a member nothing is written. -/
theorem saved_or_untouched_overruled :
    let save (path : String) (settings : Settings) (disk : Disk) :=
      (saveFile path settings : ExceptT StoreError (StateM Disk) Unit).run.run disk
    let load (path : String) (disk : Disk) :=
      ((loadFile path : ExceptT StoreError (StateM Disk) Settings).run.run disk).1
    (∃ next, save "a.json" overruled {} = (.ok (), next) ∧ load "a.json" next = .ok overruled) ∧
    (∃ next, save "a.toml" overruled {} = (.ok (), next) ∧ load "a.toml" next = .ok overruled) ∧
    ∀ disk, save "a.toml" { overruled with extra := [("c", .null)] } disk = (.error .notToml, disk) := by
  intro save load
  have valid : overruled.isValid = true := by decide +kernel
  have expressible : ∀ member ∈ overruled.extra, Toml.Expressible member.2 :=
    List.forall_mem_singleton.mpr (Toml.expressible_bool true)
  have comesBack (path : String) (format : Format) (named : Format.ofPath? path = some format)
      (readsBack : format.ReadsBack overruled.toJson)
      (writes : ∀ bytes, ∃ next, (FileSystem.write path bytes : StateM Disk Bool).run {} = (true, next)) :
      ∃ next, save path overruled {} = (.ok (), next) ∧ load path next = .ok overruled := by
    obtain ⟨⟨text, saves⟩, loads⟩ := (saved_or_untouched path overruled).1 format named valid storable_overruled
      (fun _ => expressible) readsBack (Disk.retains path)
    obtain ⟨next, written⟩ := writes text.toUTF8
    have saved := saves {} next true written
    exact ⟨next, saved, loads _ _ saved⟩
  have readsJson : Format.json.ReadsBack overruled.toJson := by
    cbv
  refine ⟨comesBack _ .json (by decide +kernel) readsJson fun _ => ⟨_, rfl⟩,
    comesBack _ .toml (by decide +kernel) readsBack_overruled fun _ => ⟨_, rfl⟩, fun disk => ?_⟩
  · have named : Format.ofPath? "a.toml" = some .toml := by decide +kernel
    obtain ⟨next, fails⟩ : ∃ next, save "a.toml" { overruled with extra := [("c", .null)] } disk =
        (.error .notToml, next) := by
      have valid : Settings.isValid { overruled with extra := [("c", .null)] } = true := by decide +kernel
      refine ⟨disk, ?_⟩
      dsimp only [save]
      rw [saveFile_run, if_pos valid, named]
      rfl
    exact (saved_or_untouched "a.toml" _).2 disk next .notToml fails (by decide) ▸ fails

end Settings

end ToolChanger
