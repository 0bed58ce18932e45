import Mathlib.Data.List.Nodup
import ToolChanger.Remap.Plan

namespace ToolChanger

variable {α β : Type}

theorem sublist_tools_filterMap {make : ToolId × α → Option (ToolId × β)}
    (keyed : ∀ entry update, make entry = some update → update.1 = entry.1)
    (entries : List (ToolId × α)) :
    ((entries.filterMap make).map (·.1)).Sublist (entries.map (·.1)) := by
  induction entries with
  | nil => exact .slnil
  | cons entry rest ih =>
    rw [List.map_cons]
    cases made : make entry with
    | none =>
      rw [List.filterMap_cons_none made]
      exact ih.cons _
    | some update =>
      rw [List.filterMap_cons_some made, List.map_cons, keyed entry update made]
      exact ih.cons_cons _

theorem notMem_tools_filterMap {make : ToolId × α → Option (ToolId × β)}
    (keyed : ∀ entry update, make entry = some update → update.1 = entry.1)
    {entries : List (ToolId × α)} (nodup : (entries.map (·.1)).Nodup) {entry : ToolId × α}
    (member : entry ∈ entries) (idle : make entry = none) :
    entry.1 ∉ (entries.filterMap make).map (·.1) := by
  intro listed
  obtain ⟨update, made, same⟩ := List.mem_map.mp listed
  obtain ⟨other, inside, source⟩ := List.mem_filterMap.mp made
  have equal : other = entry :=
    List.inj_on_of_nodup_map nodup inside member ((keyed other update source).symm.trans same)
  rw [equal, idle] at source
  cases source

/-! ### Looking updates up -/

section

variable {updates later : List (ToolId × β)} {tool : ToolId} {value : β}

theorem lookup_eq_some_iff_mem (nodup : (updates.map (·.1)).Nodup) :
    updates.lookup tool = some value ↔ (tool, value) ∈ updates := by
  rw [List.lookup_eq_some_iff]
  constructor
  · rintro ⟨before, rest, rfl, -⟩
    exact List.mem_append_right before List.mem_cons_self
  · intro listed
    obtain ⟨before, rest, rfl⟩ := List.append_of_mem listed
    refine ⟨before, rest, rfl, fun update earlier => ?_⟩
    rw [List.map_append, List.nodup_append] at nodup
    have apart := nodup.2.2 update.1 (List.mem_map_of_mem earlier) tool List.mem_cons_self
    simpa using apart.symm

theorem lookup_eq_none_iff_notMem : updates.lookup tool = none ↔ tool ∉ updates.map (·.1) := by
  rw [List.lookup_eq_none_iff, List.mem_map]
  constructor
  · rintro absent ⟨update, listed, rfl⟩
    simpa using absent update listed
  · intro absent update listed
    have different : tool ≠ update.1 := fun same => absent ⟨update, listed, same.symm⟩
    simpa using different

theorem lookup_perm (nodup : (updates.map (·.1)).Nodup) (perm : later.Perm updates) (tool : ToolId) :
    later.lookup tool = updates.lookup tool := by
  have laterNodup : (later.map (·.1)).Nodup := (perm.map (·.1)).nodup_iff.mpr nodup
  refine Option.ext fun value => ?_
  rw [lookup_eq_some_iff_mem laterNodup, lookup_eq_some_iff_mem nodup, perm.mem_iff]

end

/-! ### Overrides -/

namespace Overrides

theorem update_cons (overrides : Overrides) (update : ToolId × Option Override)
    (rest : List (ToolId × Option Override)) :
    overrides.update (update :: rest) = (overrides.update [update]).update rest := rfl

theorem get?_update_one (overrides : Overrides) (tool other : ToolId) (decided : Option Override) :
    (overrides.update [(tool, decided)]).get? other =
      if other = tool then decided else overrides.get? other := by
  cases decided <;> simp [update]

variable {overrides : Overrides} {updates later : List (ToolId × Option Override)} {tool : ToolId}

theorem get?_update_of_notMem (absent : tool ∉ updates.map (·.1)) :
    (overrides.update updates).get? tool = overrides.get? tool := by
  induction updates generalizing overrides with
  | nil => rfl
  | cons update rest ih =>
    rw [List.map_cons, List.mem_cons, not_or] at absent
    rw [update_cons, ih absent.2, get?_update_one, if_neg absent.1]

theorem get?_update_of_mem {decided : Option Override} (nodup : (updates.map (·.1)).Nodup)
    (member : (tool, decided) ∈ updates) : (overrides.update updates).get? tool = decided := by
  induction updates generalizing overrides with
  | nil => cases member
  | cons update rest ih =>
    obtain ⟨absent, nodup⟩ := List.nodup_cons.mp nodup
    rw [update_cons]
    rcases List.mem_cons.mp member with rfl | later
    · rw [get?_update_of_notMem absent, get?_update_one, if_pos rfl]
    · exact ih nodup later

theorem get?_update_filterMap (overrides : Overrides) {make : ToolId × α → Option (ToolId × Option Override)}
    (keyed : ∀ entry update, make entry = some update → update.1 = entry.1)
    {entries : List (ToolId × α)} (nodup : (entries.map (·.1)).Nodup) {entry : ToolId × α}
    (member : entry ∈ entries) :
    (overrides.update (entries.filterMap make)).get? entry.1 =
      (make entry).elim (overrides.get? entry.1) (·.2) := by
  cases made : make entry with
  | none => exact get?_update_of_notMem (notMem_tools_filterMap keyed nodup member made)
  | some update =>
    refine get?_update_of_mem (nodup.sublist (sublist_tools_filterMap keyed entries)) ?_
    rw [← keyed entry update made]
    exact List.mem_filterMap.mpr ⟨entry, member, made⟩

theorem get?_update (overrides : Overrides) (nodup : (updates.map (·.1)).Nodup) (tool : ToolId) :
    (overrides.update updates).get? tool = (updates.lookup tool).getD (overrides.get? tool) := by
  cases listed : updates.lookup tool with
  | none => exact get?_update_of_notMem (lookup_eq_none_iff_notMem.mp listed)
  | some decided => exact get?_update_of_mem nodup ((lookup_eq_some_iff_mem nodup).mp listed)

theorem update_perm (nodup : (updates.map (·.1)).Nodup) (perm : later.Perm updates) (overrides : Overrides) :
    overrides.update later = overrides.update updates := by
  refine Table.ext_get? fun tool => ?_
  rw [get?_update _ nodup, get?_update _ ((perm.map (·.1)).nodup_iff.mpr nodup), lookup_perm nodup perm]

end Overrides

/-! ### Records -/

/-- A record without what an update may change of it. -/
def Tool.unplaced (tool : Tool) : Tool := { tool with pocket := none }

namespace Library

variable {library : Library} {updates later : List (ToolId × Option Pocket)} {tool : ToolId}

theorem update_cons (library : Library) (update : ToolId × Option Pocket)
    (rest : List (ToolId × Option Pocket)) :
    library.update (update :: rest) = (library.setPocket update.1 update.2).update rest := rfl

theorem update_append (library : Library) (updates later : List (ToolId × Option Pocket)) :
    library.update (updates ++ later) = (library.update updates).update later :=
  List.foldl_append

theorem contains_iff_mem : library.contains tool = true ↔ tool ∈ library.records.map (·.id) := by
  simp [contains, get?]

@[simp] theorem contains_update (library : Library) (updates : List (ToolId × Option Pocket))
    (tool : ToolId) : (library.update updates).contains tool = library.contains tool := by
  induction updates generalizing library with
  | nil => rfl
  | cons update rest ih => rw [update_cons, ih, contains_setPocket]

theorem pocketOf_update_of_notMem (absent : tool ∉ updates.map (·.1)) :
    (library.update updates).pocketOf tool = library.pocketOf tool := by
  induction updates generalizing library with
  | nil => rfl
  | cons update rest ih =>
    rw [List.map_cons, List.mem_cons, not_or] at absent
    rw [update_cons, ih absent.2, pocketOf_setPocket, if_neg fun same => absent.1 same.1]

theorem pocketOf_update_of_agree {pocket : Option Pocket} (known : library.contains tool = true)
    (listed : (tool, pocket) ∈ updates) (agree : ∀ other, (tool, other) ∈ updates → other = pocket) :
    (library.update updates).pocketOf tool = pocket := by
  induction updates generalizing library with
  | nil => cases listed
  | cons update rest ih =>
    rw [update_cons]
    by_cases later : (tool, pocket) ∈ rest
    · exact ih ((contains_setPocket _ _ _ _).trans known) later fun other member =>
        agree other (List.mem_cons_of_mem _ member)
    · obtain rfl := (List.mem_cons.mp listed).resolve_right later
      have absent : tool ∉ rest.map (·.1) := by
        intro named
        obtain ⟨⟨_, other⟩, member, rfl⟩ := List.mem_map.mp named
        obtain rfl := agree other (List.mem_cons_of_mem _ member)
        exact later member
      rw [pocketOf_update_of_notMem absent, pocketOf_setPocket, if_pos ⟨rfl, known⟩]

/-! ### What an update leaves alone -/

theorem map_unplaced_setFirst (id : ToolId) (pocket : Option Pocket) (records : List Tool) :
    (setFirst id pocket records).map Tool.unplaced = records.map Tool.unplaced := by
  induction records with
  | nil => rfl
  | cons head rest ih =>
    unfold setFirst
    split
    · rfl
    · rw [List.map_cons, ih, List.map_cons]

theorem getElem?_setFirst {records : List Tool} {id : ToolId} {pocket : Option Pocket} {record : Tool} {i : Nat}
    (found : records[i]? = some record) (later : record.id = id → id ∈ (records.take i).map (·.id)) :
    (setFirst id pocket records)[i]? = some record := by
  induction records generalizing i with
  | nil => cases found
  | cons head rest ih =>
    unfold setFirst
    cases i with
    | zero =>
      obtain rfl := Option.some.inj found
      rw [if_neg fun same => List.not_mem_nil (later same)]
      rfl
    | succ i =>
      split
      · exact found
      · rename_i different
        refine ih found fun same => ?_
        exact (List.mem_cons.mp (later same)).resolve_left (Ne.symm different)

theorem map_unplaced_update (library : Library) (updates : List (ToolId × Option Pocket)) :
    (library.update updates).records.map Tool.unplaced = library.records.map Tool.unplaced := by
  induction updates generalizing library with
  | nil => rfl
  | cons update rest ih =>
    rw [update_cons, ih]
    exact map_unplaced_setFirst update.1 update.2 library.records

theorem getElem?_update (library : Library) (updates : List (ToolId × Option Pocket)) {record : Tool}
    {i : Nat} (found : library.records[i]? = some record)
    (earlier : record.id ∈ (library.records.take i).map (·.id)) :
    (library.update updates).records[i]? = some record := by
  induction updates generalizing library with
  | nil => exact found
  | cons update rest ih =>
    rw [update_cons]
    refine ih _ (getElem?_setFirst found fun same => same ▸ earlier) ?_
    have same := congrArg (List.map (·.id)) (map_unplaced_setFirst update.1 update.2 library.records)
    rw [List.map_map, List.map_map] at same
    rw [List.map_take] at earlier ⊢
    exact (congrArg (record.id ∈ ·.take i) same).mpr earlier

/-! ### The records after an update -/

theorem pocketOf_update (nodup : (updates.map (·.1)).Nodup) (known : library.contains tool = true) :
    (library.update updates).pocketOf tool = (updates.lookup tool).getD (library.pocketOf tool) := by
  cases listed : updates.lookup tool with
  | none => exact pocketOf_update_of_notMem (lookup_eq_none_iff_notMem.mp listed)
  | some pocket =>
    refine pocketOf_update_of_agree known ((lookup_eq_some_iff_mem nodup).mp listed) fun other member => ?_
    rw [← lookup_eq_some_iff_mem nodup, listed] at member
    exact (Option.some.inj member).symm

theorem get?_of_first {record : Tool} {i : Nat} (found : library.records[i]? = some record)
    (first : record.id ∉ (library.records.take i).map (·.id)) : library.get? record.id = some record := by
  obtain ⟨inside, same⟩ := List.getElem?_eq_some_iff.mp found
  refine List.find?_eq_some_iff_getElem.mpr ⟨decide_eq_true rfl, i, inside, same, fun j below => ?_⟩
  have different : library.records[j].id ≠ record.id := by
    intro equal
    refine first (List.mem_map.mpr ⟨library.records[j], ?_, equal⟩)
    exact List.mem_take_iff_getElem.mpr ⟨j, by omega, rfl⟩
  simpa using different

/-- What updates leave of a record: of the first one of a number all but the pocket, of any other one all. -/
theorem getElem?_records_update (library : Library) (updates : List (ToolId × Option Pocket)) (i : Nat) :
    (library.update updates).records[i]? = library.records[i]?.map fun record =>
      if record.id ∈ (library.records.take i).map (·.id) then record
      else { record with pocket := (library.update updates).pocketOf record.id } := by
  have frame := map_unplaced_update library updates
  have framed := congrArg (·[i]?) frame
  simp only [List.getElem?_map] at framed
  cases found : library.records[i]? with
  | none => simpa [found] using framed
  | some record =>
    rw [Option.map_some]
    split
    · rename_i earlier
      exact getElem?_update library updates found earlier
    · rename_i first
      rw [found, Option.map_some] at framed
      obtain ⟨now, foundNow, same⟩ := Option.map_eq_some_iff.mp framed
      have sameId : now.unplaced.id = record.unplaced.id := congrArg Tool.id same
      change now.id = record.id at sameId
      have ids := congrArg (List.map Tool.id) frame
      rw [List.map_map, List.map_map] at ids
      have firstNow : now.id ∉ ((library.update updates).records.take i).map (·.id) := by
        rw [List.map_take, sameId]
        rw [List.map_take] at first
        exact (congrArg (record.id ∉ ·.take i) ids).mpr first
      have placed : (library.update updates).pocketOf record.id = now.pocket := by
        rw [← sameId, pocketOf, get?_of_first foundNow firstNow]
        rfl
      rw [foundNow, placed]
      have whole (tool : Tool) : tool = { tool.unplaced with pocket := tool.pocket } := rfl
      rw [whole now, same]
      rfl

theorem update_congr (same : ∀ tool, (library.update updates).pocketOf tool = (library.update later).pocketOf tool) :
    library.update updates = library.update later := by
  have records : (library.update updates).records = (library.update later).records := by
    refine List.ext_getElem? fun i => ?_
    rw [getElem?_records_update, getElem?_records_update]
    simp only [same]
  exact congrArg Library.mk records

/-- All updates at once: the first record of a number gets the pocket that is listed with the number. -/
def updateAtOnce (library : Library) (updates : List (ToolId × Option Pocket)) : Library :=
  ⟨library.records.mapIdx fun i record =>
    if record.id ∈ (library.records.take i).map (·.id) then record
    else { record with pocket := (updates.lookup record.id).getD record.pocket }⟩

theorem update_eq_updateAtOnce (library : Library) (nodup : (updates.map (·.1)).Nodup) :
    library.update updates = library.updateAtOnce updates := by
  have records : (library.update updates).records = (library.updateAtOnce updates).records := by
    refine List.ext_getElem? fun i => ?_
    rw [getElem?_records_update, updateAtOnce, List.getElem?_mapIdx]
    cases found : library.records[i]? with
    | none => rfl
    | some record =>
      rw [Option.map_some, Option.map_some]
      split
      · rfl
      · rename_i first
        have counts := get?_of_first found first
        have known : library.contains record.id = true := by rw [contains, counts]; rfl
        have recorded : library.pocketOf record.id = record.pocket := by rw [pocketOf, counts]; rfl
        rw [pocketOf_update nodup known, recorded]
  exact congrArg Library.mk records

theorem update_perm (nodup : (updates.map (·.1)).Nodup) (perm : later.Perm updates) (library : Library) :
    library.update later = library.update updates := by
  rw [update_eq_updateAtOnce _ nodup, update_eq_updateAtOnce _ ((perm.map (·.1)).nodup_iff.mpr nodup)]
  unfold updateAtOnce
  simp only [lookup_perm nodup perm]

end Library

end ToolChanger
