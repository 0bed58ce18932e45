import ToolChanger.Proofs.Decimal.Exact
import ToolChanger.Proofs.Tool.Codec

/-!
# What a record keeps

A record that is read and written again keeps all that it held exactly where it is plain: sections lose the members
that are not modelled, and a type that has no word becomes another one.
-/

namespace ToolChanger

open Decimal

namespace Json

/-- The same value, up to the order of members and the way a number is written. -/
def Alike (a b : Json) : Prop :=
  a.sorted = b.sorted ∨ ∃ x y : Number, a = number x ∧ b = number y ∧ x.value = y.value

/-- How the members of an object are found in another one: each under the name it has now, and besides only
defaults of members that were left out. -/
structure Reproduces (same : String → Json → Json → Prop) (current : String → String)
    (defaults old new : List (String × Json)) : Prop where
  kept : ∀ name value, member? name old = some value →
    ∃ again, member? (current name) new = some again ∧ same name value again
  added : ∀ name value, member? name new = some value →
    (∃ older, current older = name ∧ (member? older old).isSome) ∨ (name, value) ∈ defaults

end Json

namespace Tool

open Json (member? Alike Reproduces)

def Offsets.defaults : List (String × Json) := memberNames.map fun name => (name, realJson (Binary64.zero false))

def Metadata.defaults : List (String × Json) := memberNames.map fun name => (name, .string "")

def SectionReproduced (defaults : List (String × Json)) (value again : Json) : Prop :=
  ∃ old new, value = .object old ∧ again = .object new ∧ Reproduces (fun _ => Alike) (fun name => name) defaults old new

def MemberReproduced (name : String) (value again : Json) : Prop :=
  match name with
  | "offsets" => SectionReproduced Offsets.defaults value again
  | "metadata" => SectionReproduced Metadata.defaults value again
  | _ => value.Alike again

def defaults : List (String × Json) :=
  [("pocketNumber", .null), ("name", .string ""), ("type", .string Kind.flat.word),
    ("diameter", realJson (Binary64.zero false))]

def currentName (name : String) : String := if name = "toolNumber" then "pocketNumber" else name

/-! ### Plain records -/

def IsDouble (value : Json) : Prop := ∀ number, value = .number number → ∃ x : Binary64, x.value = number.value

/-- An object with modelled members only. -/
def PlainSection (names : List String) (plain : Json → Prop) (value : Json) : Prop :=
  ∃ fields, value = .object fields ∧
    ∀ name inner, member? name fields = some inner → name ∈ names ∧ plain inner

def PlainMember (name : String) (value : Json) : Prop :=
  match name with
  | "type" => ∃ kind : Kind, value = .string kind.word
  | "diameter" => IsDouble value
  | "offsets" => PlainSection Offsets.memberNames IsDouble value
  | "metadata" => PlainSection Metadata.memberNames (fun _ => True) value
  | _ => True

/-- The names of members that may fail to be plain. -/
def lossy : List String := ["type", "diameter", "offsets", "metadata"]

theorem lossy_subset : lossy ⊆ memberNames := by decide

/-! ### Single fields -/

theorem eq_of_asUInt32? {value : Json} {n : UInt32} (reads : value.asUInt32? = some n) :
    value = Json.ofUInt32 n := by
  cases value with
  | number number =>
    cases number with
    | whole given fits =>
      rw [Json.asUInt32?] at reads
      split at reads
      · rename_i range
        obtain rfl := Option.some.inj reads
        have back : ((given.toNat.toUInt32.toNat : Nat) : Int) = given := by
          rw [Nat.toUInt32, UInt32.toNat_ofNat', Nat.mod_eq_of_lt (by omega)]
          omega
        simp only [Json.ofUInt32, back]
      · cases reads
    | real x => cases reads
  | _ => cases reads

theorem alike_realJson_iff {value : Json} {x : Binary64} (reads : value.asReal? = some x) :
    value.Alike (realJson x) ↔ IsDouble value := by
  cases value with
  | number number =>
    have double : IsDouble (.number number) ↔ ∃ y : Binary64, y.value = number.value :=
      ⟨fun all => all number rfl, fun found other same => Json.number.inj same ▸ found⟩
    rw [double, ← Json.value_of_asReal? reads]
    constructor
    · rintro (same | ⟨a, b, left, right, same⟩)
      · obtain rfl := Json.number.inj same
        rfl
      · obtain rfl := Json.number.inj left
        obtain rfl := Json.number.inj right
        exact same
    · exact fun same => .inr ⟨number, .real x, rfl, rfl, same⟩
  | _ => cases reads

theorem alike_kind_iff {value : Json} {kind : Kind} (reads : Kind.ofJson? value = some kind) :
    value.Alike (.string kind.word) ↔ ∃ kind : Kind, value = .string kind.word := by
  constructor
  · rintro (same | ⟨a, b, -, wrong, -⟩)
    · cases value with
      | string word => exact ⟨kind, same⟩
      | _ => cases same
    · cases wrong
  · rintro ⟨known, rfl⟩
    obtain rfl : Kind.ofWord known.word = kind := Option.some.inj reads
    rw [Kind.ofWord_word]
    exact .inl rfl

/-! ### Sections -/

variable {members : List (String × Json)}

theorem reproduces_section_iff {names : List String} {default : Json} {plain : Json → Prop}
    {old new : List (String × Json)}
    (each : ∀ name ∈ names, ∃ again, member? name new = some again ∧
      (member? name old = none → again = default) ∧
      ∀ value, member? name old = some value → (value.Alike again ↔ plain value))
    (others : ∀ name, name ∉ names → member? name new = none) :
    Reproduces (fun _ => Alike) (fun name => name) (names.map (·, default)) old new ↔
      ∀ name value, member? name old = some value → name ∈ names ∧ plain value := by
  constructor
  · intro reproduces name value found
    obtain ⟨again, written, alike⟩ := reproduces.kept name value found
    by_cases listed : name ∈ names
    · obtain ⟨expected, known, -, iff⟩ := each name listed
      obtain rfl := Option.some.inj (known.symm.trans written)
      exact ⟨listed, (iff value found).mp alike⟩
    · rw [others name listed] at written
      cases written
  · intro plain
    constructor
    · intro name value found
      obtain ⟨listed, fits⟩ := plain name value found
      obtain ⟨again, written, -, iff⟩ := each name listed
      exact ⟨again, written, (iff value found).mpr fits⟩
    · intro name value written
      have listed : name ∈ names := by
        by_cases listed : name ∈ names
        · exact listed
        · rw [others name listed] at written
          cases written
      obtain ⟨again, known, absent, -⟩ := each name listed
      obtain rfl := Option.some.inj (known.symm.trans written)
      cases found : member? name old with
      | some given => exact .inl ⟨name, rfl, by rw [found]; rfl⟩
      | none => exact .inr (absent found ▸ List.mem_map_of_mem listed)

theorem real_again {found : Option Json} {x : Binary64} (reads : realField found = some x) :
    (found = none → realJson x = realJson (Binary64.zero false)) ∧
      ∀ value, found = some value → (value.Alike (realJson x) ↔ IsDouble value) := by
  constructor
  · rintro rfl
    exact congrArg realJson (Option.some.inj reads).symm
  · rintro value rfl
    exact alike_realJson_iff reads

theorem text_again {found : Option Json} {text : String} (reads : textField found = some text) :
    (found = none → Json.string text = .string "") ∧
      ∀ value, found = some value → (value.Alike (.string text) ↔ True) := by
  constructor
  · rintro rfl
    exact congrArg Json.string (Option.some.inj reads).symm
  · rintro value rfl
    cases value with
    | string given =>
      obtain rfl : given = text := Option.some.inj reads
      exact iff_true_intro (.inl rfl)
    | _ => cases reads

theorem sectionReproduced_iff {names : List String} {default : Json} {plain : Json → Prop}
    {old new : List (String × Json)}
    (each : ∀ name ∈ names, ∃ again, member? name new = some again ∧
      (member? name old = none → again = default) ∧
      ∀ value, member? name old = some value → (value.Alike again ↔ plain value))
    (written : new.map (·.1) = names) :
    SectionReproduced (names.map (·, default)) (.object old) (.object new) ↔
      PlainSection names plain (.object old) := by
  have others (name : String) (absent : name ∉ names) : member? name new = none := by
    refine Json.member?_eq_none_iff.mpr fun member listed same => absent ?_
    exact same ▸ written ▸ List.mem_map_of_mem listed
  have reproduces := reproduces_section_iff each others
  constructor
  · rintro ⟨_, _, ⟨⟩, ⟨⟩, same⟩
    exact ⟨old, rfl, reproduces.mp same⟩
  · rintro ⟨_, ⟨⟩, plain⟩
    exact ⟨old, new, rfl, rfl, reproduces.mpr plain⟩

theorem offsets_reproduced_iff {offsets : Offsets} (decodes : Offsets.ofJson? (.object members) = some offsets) :
    SectionReproduced Offsets.defaults (.object members) offsets.toJson ↔
      PlainSection Offsets.memberNames IsDouble (.object members) := by
  obtain ⟨length, x, y, z⟩ := offsets_of_ofJson? decodes
  refine sectionReproduced_iff (fun name listed => ?_) rfl
  simp only [Offsets.memberNames, List.mem_cons, List.not_mem_nil, or_false] at listed
  rcases listed with rfl | rfl | rfl | rfl
  · exact ⟨_, rfl, real_again length⟩
  · exact ⟨_, rfl, real_again x⟩
  · exact ⟨_, rfl, real_again y⟩
  · exact ⟨_, rfl, real_again z⟩

theorem metadata_reproduced_iff {metadata : Metadata}
    (decodes : Metadata.ofJson? (.object members) = some metadata) :
    SectionReproduced Metadata.defaults (.object members) metadata.toJson ↔
      PlainSection Metadata.memberNames (fun _ => True) (.object members) := by
  obtain ⟨notes, image, sku⟩ := metadata_of_ofJson? decodes
  refine sectionReproduced_iff (fun name listed => ?_) rfl
  simp only [Metadata.memberNames, List.mem_cons, List.not_mem_nil, or_false] at listed
  rcases listed with rfl | rfl | rfl
  · exact ⟨_, rfl, text_again notes⟩
  · exact ⟨_, rfl, text_again image⟩
  · exact ⟨_, rfl, text_again sku⟩

/-- A section that is null is not written at all, one that is an array not as an array. -/
theorem section_kept_iff {α : Type} {read : Json → Option α} {write : α → Json}
    {defaults : List (String × Json)} {names : List String} {plain : Json → Prop} {value : Json}
    {part : Option α} (reads : sectionField read (some value) = some part)
    (reproduced : ∀ fields whole, read (.object fields) = some whole →
      (SectionReproduced defaults (.object fields) (write whole) ↔
        PlainSection names plain (.object fields))) :
    (∃ again, part.map write = some again ∧ SectionReproduced defaults value again) ↔
      PlainSection names plain value := by
  cases value with
  | object fields =>
    obtain ⟨whole, decodes, rfl⟩ := Option.map_eq_some_iff.mp reads
    rw [← reproduced fields whole decodes]
    simp
  | _ =>
    constructor
    · rintro ⟨_, _, _, _, ⟨⟩, _⟩
    · rintro ⟨_, ⟨⟩, _⟩

/-! ### Records -/

variable {tool : Tool}

theorem pocketJson_of_reads {value : Json} {pocket : Option Pocket}
    (reads : pocketField (some value) = some pocket) : pocketJson pocket = value := by
  cases value with
  | null =>
    obtain rfl := Option.some.inj reads
    rfl
  | number number =>
    obtain ⟨given, decodes, rfl⟩ := Option.map_eq_some_iff.mp reads
    exact (eq_of_asUInt32? decodes).symm
  | _ => cases reads

theorem memberReproduced_iff {name : String} (other : name ∉ lossy) {value again : Json} :
    MemberReproduced name value again ↔ value.Alike again := by
  unfold MemberReproduced
  split
  all_goals first | exact Iff.rfl | exact absurd (by decide) other

theorem plainMember_of_lossless {name : String} (other : name ∉ lossy) {value : Json} :
    PlainMember name value := by
  unfold PlainMember
  split
  all_goals trivial

theorem exists_some_iff {α : Type} {P : α → Prop} {value : α} :
    (∃ again, some value = some again ∧ P again) ↔ P value := by
  simp

theorem Reads.kept_iff (reads : Reads members tool) {name : String} {value : Json}
    (found : member? name members = some value) :
    (∃ again, tool.written? (currentName name) = some again ∧ MemberReproduced name value again) ↔
      PlainMember name value := by
  by_cases listed : name ∈ memberNames
  · simp only [memberNames, List.mem_cons, List.not_mem_nil, or_false] at listed
    rcases listed with rfl | rfl | rfl | rfl | rfl | rfl | rfl | rfl
    · have same := reads.id
      rw [found] at same
      exact iff_of_true ⟨_, rfl, .inl (congrArg Json.sorted (eq_of_asUInt32? same))⟩ trivial
    · have same := reads.pocket
      rw [found, Option.some_or] at same
      exact iff_of_true ⟨_, rfl, .inl (congrArg Json.sorted (pocketJson_of_reads same).symm)⟩ trivial
    · have same := reads.pocket
      rw [reads.alone.resolve_right (by rw [found]; exact Option.some_ne_none _), found, Option.none_or] at same
      exact iff_of_true ⟨_, rfl, .inl (congrArg Json.sorted (pocketJson_of_reads same).symm)⟩ trivial
    · have same := reads.name
      rw [found] at same
      exact iff_of_true ⟨_, rfl, ((text_again same).2 value rfl).mpr trivial⟩ trivial
    · have same := reads.kind
      rw [found] at same
      have iff := alike_kind_iff same
      exact exists_some_iff.trans iff
    · have same := reads.diameter
      rw [found] at same
      have iff := alike_realJson_iff same
      exact exists_some_iff.trans iff
    · have same := reads.offsets
      rw [found] at same
      exact section_kept_iff same fun _ _ decodes => offsets_reproduced_iff decodes
    · have same := reads.metadata
      rw [found] at same
      exact section_kept_iff same fun _ _ decodes => metadata_reproduced_iff decodes
  · have current : currentName name = name := if_neg fun same => listed (by rw [same]; decide)
    have written : tool.written? name = some value.sorted := by
      rw [written?_of_unmodelled tool listed, reads.extra, Json.member?_others, if_neg listed, found]
      rfl
    have alike : value.Alike value.sorted := .inl (Json.sorted_sorted value).symm
    rw [current, written]
    have other : name ∉ lossy := fun inside => listed (lossy_subset inside)
    exact iff_of_true ⟨_, rfl, (memberReproduced_iff other).mpr alike⟩ (plainMember_of_lossless other)

theorem Reads.added (reads : Reads members tool) {name : String} {value : Json}
    (written : tool.written? name = some value) :
    (∃ older, currentName older = name ∧ (member? older members).isSome) ∨ (name, value) ∈ defaults := by
  by_cases listed : name ∈ memberNames
  · have present (older : String) (current : currentName older = name)
        (absent : member? older members = none → (name, value) ∈ defaults) :
        (∃ older, currentName older = name ∧ (member? older members).isSome) ∨ (name, value) ∈ defaults := by
      cases found : member? older members with
      | some given => exact .inl ⟨older, current, by rw [found]; rfl⟩
      | none => exact .inr (absent found)
    simp only [memberNames, List.mem_cons, List.not_mem_nil, or_false] at listed
    rcases listed with rfl | rfl | rfl | rfl | rfl | rfl | rfl | rfl
    · refine present "id" rfl fun absent => ?_
      have same := reads.id
      rw [absent] at same
      cases same
    · cases older : member? "toolNumber" members with
      | some given => exact .inl ⟨"toolNumber", rfl, by rw [older]; rfl⟩
      | none =>
        refine present "pocketNumber" rfl fun absent => ?_
        have same := reads.pocket
        rw [absent, older] at same
        obtain rfl := Option.some.inj written
        rw [← Option.some.inj same]
        exact List.mem_cons_self
    · cases written
    · refine present "name" rfl fun absent => ?_
      have same := reads.name
      rw [absent] at same
      obtain rfl := Option.some.inj written
      rw [← Option.some.inj same]
      simp [defaults]
    · refine present "type" rfl fun absent => ?_
      have same := reads.kind
      rw [absent] at same
      obtain rfl := Option.some.inj written
      rw [← Option.some.inj same]
      simp [defaults]
    · refine present "diameter" rfl fun absent => ?_
      have same := reads.diameter
      rw [absent] at same
      obtain rfl := Option.some.inj written
      rw [← Option.some.inj same]
      simp [defaults]
    · refine present "offsets" rfl fun absent => ?_
      have same := reads.offsets
      rw [absent] at same
      change tool.offsets.map Offsets.toJson = some value at written
      rw [← Option.some.inj same] at written
      cases written
    · refine present "metadata" rfl fun absent => ?_
      have same := reads.metadata
      rw [absent] at same
      change tool.metadata.map Metadata.toJson = some value at written
      rw [← Option.some.inj same] at written
      cases written
  · have found := (written?_of_unmodelled tool listed).symm.trans written
    rw [reads.extra, Json.member?_others, if_neg listed] at found
    obtain ⟨given, found, -⟩ := Option.map_eq_some_iff.mp found
    exact .inl ⟨name, if_neg fun same => listed (by rw [same]; decide), by rw [found]; rfl⟩

/-- What is written of a record that was read holds every member that the record held under a name other
than these four, whether it is modelled or not, and besides the members of the record only defaults. Nothing
is lost or made up at all exactly if all the members are plain: the type is a word for a kind, numbers are
doubles, and sections are objects of modelled members. -/
theorem reproduces_iff (decodes : ofJson? (.object members) = some tool) :
    ∃ written, tool.toJson = .object written ∧
      (∀ name value, member? name members = some value → name ∉ lossy →
        ∃ again, member? (currentName name) written = some again ∧ value.Alike again) ∧
      (∀ name value, member? name written = some value →
        (∃ older, currentName older = name ∧ (member? older members).isSome) ∨ (name, value) ∈ defaults) ∧
      (Reproduces MemberReproduced currentName defaults members written ↔
        ∀ name value, member? name members = some value → PlainMember name value) := by
  have reads := reads_of_ofJson? decodes
  have told := member?_written reads.storable
  have added (name : String) (value : Json) (written : member? name _ = some value) :=
    reads.added ((told name).symm.trans written)
  refine ⟨_, tool.toJson_eq, fun name value found other => ?_, added,
    ⟨fun reproduces name value found => ?_, fun plain => ⟨fun name value found => ?_, added⟩⟩⟩
  · obtain ⟨again, written, reproduced⟩ := (reads.kept_iff found).mpr (plainMember_of_lossless other)
    exact ⟨again, (told _).trans written, (memberReproduced_iff other).mp reproduced⟩
  · obtain ⟨again, written, reproduced⟩ := reproduces.kept name value found
    exact (reads.kept_iff found).mp ⟨again, (told _).symm.trans written, reproduced⟩
  · rw [told]
    exact (reads.kept_iff found).mpr (plain name value found)

/-- A record with its pocket under the older name, a number written without a point, a section that leaves
something out and a member that is not modelled. -/
theorem reproduces_older :
    let members : List (String × Json) := [("id", .ofUInt32 12), ("toolId", .ofUInt32 12),
      ("toolNumber", .ofUInt32 3), ("type", .string "v-bit"), ("diameter", .ofUInt32 6),
      ("metadata", .object [("sku", .string "A-1")])]
    ∃ tool written, ofJson? (.object members) = some tool ∧ tool.toJson = .object written ∧
      Reproduces MemberReproduced currentName defaults members written := by
  intro members
  obtain ⟨tool, decodes⟩ : ∃ tool, ofJson? (.object members) = some tool :=
    Option.isSome_iff_exists.mp (by decide +kernel)
  obtain ⟨written, same, -, -, iff⟩ := reproduces_iff decodes
  refine ⟨tool, written, decodes, same, iff.mpr fun name value found => ?_⟩
  have six : IsDouble (.ofUInt32 6) := by
    rintro _ ⟨⟩
    exact ⟨⟨false, 4618441417868443648, by decide⟩, Binary64.value_eq_iff.mpr (by decide +kernel)⟩
  have sku : PlainSection Metadata.memberNames (fun _ => True) (.object [("sku", .string "A-1")]) := by
    refine ⟨_, rfl, fun name inner found => ?_⟩
    obtain ⟨rfl, -⟩ := Prod.mk.inj (List.mem_singleton.mp (Json.mem_of_member? found))
    exact ⟨by decide, trivial⟩
  have listed := Json.mem_of_member? found
  simp only [members, List.mem_cons, List.not_mem_nil, or_false, Prod.mk.injEq] at listed
  rcases listed with ⟨rfl, rfl⟩ | ⟨rfl, rfl⟩ | ⟨rfl, rfl⟩ | ⟨rfl, rfl⟩ | ⟨rfl, rfl⟩ | ⟨rfl, rfl⟩
  · trivial
  · trivial
  · trivial
  · exact ⟨.vBit, rfl⟩
  · exact six
  · exact sku

/-- The vendor is gone, and the laser is some other tool. -/
theorem not_reproduces_laser :
    let lost (members written : List (String × Json)) (tool : Tool) :=
      ofJson? (.object members) = some tool ∧ tool.toJson = .object written ∧
        ¬ Reproduces MemberReproduced currentName defaults members written
    (∃ written, member? "metadata" written =
        some (.object [("notes", .string ""), ("image", .string ""), ("sku", .string "")]) ∧
      lost [("id", .ofUInt32 4), ("metadata", .object [("vendor", .string "A")])] written
        { id := 4, metadata := some ⟨"", "", ""⟩ }) ∧
    ∃ written, member? "type" written = some (.string "other") ∧
      lost [("id", .ofUInt32 4), ("type", .string "laser")] written { id := 4, kind := .other } := by
  have four : (some (Json.ofUInt32 4)).bind Json.asUInt32? = some 4 := by
    rw [Option.bind_some, Json.asUInt32?_ofUInt32]
  constructor
  · refine ⟨_, rfl, ?_, rfl, fun reproduces => ?_⟩
    · exact ofJson?_of_singles rfl four rfl rfl rfl rfl rfl rfl rfl rfl rfl rfl rfl rfl rfl
    · obtain ⟨_, ⟨⟩, _, _, ⟨⟩, ⟨⟩, inner⟩ := reproduces.kept "metadata" _ rfl
      obtain ⟨_, ⟨⟩, -⟩ := inner.kept "vendor" _ rfl
  · refine ⟨_, rfl, ?_, rfl, fun reproduces => ?_⟩
    · exact ofJson?_of_singles rfl four rfl rfl rfl rfl rfl rfl rfl rfl rfl rfl rfl rfl rfl
    · obtain ⟨_, ⟨⟩, same | ⟨_, _, ⟨⟩, -⟩⟩ := reproduces.kept "type" _ rfl
      exact absurd (Json.string.inj same) (by decide)

end Tool
end ToolChanger
