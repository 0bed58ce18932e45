import ToolChanger.Proofs.Library.Accepted

/-!
# What is told of an accepted classification

Each run of updates tells which records it changed, as it found them. Where a classification has no contradictions
no two runs change one record, so what is told is exact.
-/

namespace ToolChanger

open Program (Reference)

def Changes.tools (changes : Changes) : List ToolId :=
  changes.assigned.map (·.1) ++ changes.cleared ++ changes.vacated

theorem Changes.count_eq (changes : Changes) : changes.count = changes.tools.length := by
  simp [count, tools, Nat.add_assoc]

namespace Library

variable {library : Library} {classification : Classification} {tool other : ToolId} {pocket : Pocket}

theorem contains_of_mem_assignments : ∀ entry ∈ classification.assignments library,
    library.contains entry.1 = true := by
  intro entry given
  obtain ⟨-, -, -, -, known⟩ := mem_assignments.mp given
  exact known

/-! ### What one run tells -/

theorem mem_clearAll {tools : List ToolId} :
    tool ∈ (library.clearAll tools).2 ↔ tool ∈ tools ∧ library.pocketOf tool ≠ none := by
  induction tools generalizing library with
  | nil => simp [clearAll]
  | cons first rest ih =>
    rw [clearAll, List.mem_cons]
    split
    · rename_i idle
      have nowhere : library.pocketOf first = none := by simpa using idle
      rw [ih]
      constructor
      · rintro ⟨later, placed⟩
        exact ⟨.inr later, placed⟩
      · rintro ⟨rfl | later, placed⟩
        · exact absurd nowhere placed
        · exact ⟨later, placed⟩
    · rename_i busy
      have placed : library.pocketOf first ≠ none := by simpa using busy
      rw [List.mem_cons, ih, pocketOf_setPocket_none]
      by_cases same : tool = first
      · simp [same, placed]
      · simp [same]

theorem nodup_clearAll (library : Library) (tools : List ToolId) : (library.clearAll tools).2.Nodup := by
  induction tools generalizing library with
  | nil => exact .nil
  | cons first rest ih =>
    rw [clearAll]
    split
    · exact ih library
    · refine List.nodup_cons.mpr ⟨fun again => ?_, ih _⟩
      have placed := (mem_clearAll.mp again).2
      rw [pocketOf_setPocket_none, if_pos rfl] at placed
      exact placed rfl

section assignAll

variable {assignments : List (ToolId × Pocket)}

theorem mem_assignAll (known : ∀ entry ∈ assignments, library.contains entry.1 = true)
    (single : assignments.Pairwise fun first later => first.1 = later.1 → first = later)
    {entry : ToolId × Pocket} :
    entry ∈ (library.assignAll assignments).2 ↔
      entry ∈ assignments ∧ library.pocketOf entry.1 ≠ some entry.2 := by
  induction assignments generalizing library with
  | nil => simp [assignAll]
  | cons first rest ih =>
    obtain ⟨contained, known⟩ := List.forall_mem_cons.mp known
    obtain ⟨alike, single⟩ := List.pairwise_cons.mp single
    rw [assignAll, List.mem_cons]
    split
    · rename_i there
      rw [ih known single]
      constructor
      · rintro ⟨later, elsewhere⟩
        exact ⟨.inr later, elsewhere⟩
      · rintro ⟨rfl | later, elsewhere⟩
        · exact absurd there elsewhere
        · exact ⟨later, elsewhere⟩
    · rename_i elsewhere
      rw [List.mem_cons, ih (fun entry later => (contains_setPocket _ _ _ _).trans (known entry later)) single,
        pocketOf_setPocket]
      by_cases same : entry.1 = first.1
      · -- An entry for the same tool is the same entry, which finds its work done.
        rw [if_pos ⟨same, contained⟩]
        constructor
        · rintro (rfl | ⟨later, different⟩)
          · exact ⟨.inl rfl, elsewhere⟩
          · exact absurd (congrArg (some ·.2) (alike entry later same.symm)) different
        · rintro ⟨rfl | later, -⟩
          · exact .inl rfl
          · exact .inl (alike entry later same.symm).symm
      · have different : entry ≠ first := fun equal => same (congrArg Prod.fst equal)
        simp [same, different]

theorem nodup_assignAll (known : ∀ entry ∈ assignments, library.contains entry.1 = true)
    (single : assignments.Pairwise fun first later => first.1 = later.1 → first = later) :
    ((library.assignAll assignments).2.map (·.1)).Nodup := by
  induction assignments generalizing library with
  | nil => exact .nil
  | cons first rest ih =>
    obtain ⟨contained, known⟩ := List.forall_mem_cons.mp known
    obtain ⟨alike, single⟩ := List.pairwise_cons.mp single
    rw [assignAll]
    split
    · exact ih known single
    · have known : ∀ entry ∈ rest, (library.setPocket first.1 (some first.2)).contains entry.1 = true :=
        fun entry later => (contains_setPocket _ _ _ _).trans (known entry later)
      rw [List.map_cons]
      refine List.nodup_cons.mpr ⟨fun again => ?_, ih known single⟩
      obtain ⟨entry, changed, same⟩ := List.mem_map.mp again
      obtain ⟨later, elsewhere⟩ := (mem_assignAll known single).mp changed
      rw [pocketOf_setPocket, if_pos ⟨same, contained⟩, alike entry later same.symm] at elsewhere
      exact elsewhere rfl

end assignAll

/-! ### What is told of it -/

theorem mem_assigned_sync (consistent : classification.Consistent) {entry : ToolId × Pocket} :
    entry ∈ (library.sync classification).2.assigned ↔
      entry ∈ classification.assignments library ∧ library.pocketOf entry.1 ≠ some entry.2 :=
  mem_assignAll contains_of_mem_assignments consistent.pairwise_assignments

theorem mem_cleared_sync (consistent : classification.Consistent) :
    tool ∈ (library.sync classification).2.cleared ↔
      tool ∈ classification.removals ∧ library.pocketOf tool ≠ none := by
  unfold sync
  simp only [mem_clearAll, assignAll_fst]
  refine and_congr_right fun removed => ?_
  rw [pocketOf_update_of_ungiven fun pocket given => consistent.notMem_removals given removed]

theorem mem_vacated_sync : tool ∈ (library.sync classification).2.vacated ↔
    tool ∈ (library.recorded classification).ousted (classification.assignments library) := by
  have told : tool ∈ (library.sync classification).2.vacated ↔
      tool ∈ (library.recorded classification).ousted (classification.assignments library) ∧
        (library.recorded classification).pocketOf tool ≠ none := by
    unfold sync recorded
    simp only [mem_clearAll, assignAll_fst, clearAll_fst]
  rw [told]
  refine and_iff_left_of_imp fun ousted => ?_
  obtain ⟨pocket, -, held, -⟩ := mem_ousted.mp ousted
  simp [held]

theorem nodup_tools_sync (consistent : classification.Consistent) :
    (library.sync classification).2.tools.Nodup := by
  have assigned : ((library.sync classification).2.assigned.map (·.1)).Nodup :=
    nodup_assignAll contains_of_mem_assignments consistent.pairwise_assignments
  have cleared : (library.sync classification).2.cleared.Nodup := nodup_clearAll _ _
  have vacated : (library.sync classification).2.vacated.Nodup := nodup_clearAll _ _
  unfold Changes.tools
  rw [List.nodup_append', List.nodup_append']
  refine ⟨⟨assigned, cleared, fun tool given removed => ?_⟩, vacated, fun tool either ousted => ?_⟩
  · obtain ⟨entry, told, rfl⟩ := List.mem_map.mp given
    exact consistent.notMem_removals ((mem_assigned_sync consistent).mp told).1
      ((mem_cleared_sync consistent).mp removed).1
  · obtain ⟨stays, ungiven, -⟩ := (mem_ousted_recorded consistent).mp (mem_vacated_sync.mp ousted)
    rcases List.mem_append.mp either with given | removed
    · obtain ⟨entry, told, rfl⟩ := List.mem_map.mp given
      exact ungiven entry.2 ((mem_assigned_sync consistent).mp told).1
    · exact stays ((mem_cleared_sync consistent).mp removed).1

theorem mem_tools_sync (consistent : classification.Consistent) :
    tool ∈ (library.sync classification).2.tools ↔
      (library.sync classification).1.pocketOf tool ≠ library.pocketOf tool := by
  have listed : tool ∈ (library.sync classification).2.tools ↔
      (∃ pocket, (tool, pocket) ∈ (library.sync classification).2.assigned) ∨
      tool ∈ (library.sync classification).2.cleared ∨ tool ∈ (library.sync classification).2.vacated := by
    simp [Changes.tools]
  rw [listed, mem_cleared_sync consistent, mem_vacated_sync]
  simp only [mem_assigned_sync consistent]
  by_cases given : ∃ pocket, (tool, pocket) ∈ classification.assignments library
  · obtain ⟨pocket, given⟩ := given
    have single (place : Pocket) : (tool, place) ∈ classification.assignments library ↔ place = pocket :=
      ⟨fun too => consistent.place_eq too given, fun same => same ▸ given⟩
    have stays : tool ∉ (library.recorded classification).ousted (classification.assignments library) :=
      fun ousted => ((mem_ousted_recorded consistent).mp ousted).2.1 pocket given
    simp [pocketOf_sync_of_given consistent given, single, consistent.notMem_removals given, stays, eq_comm]
  have ungiven := not_exists.mp given
  by_cases removed : tool ∈ classification.removals
  · have stays : tool ∉ (library.recorded classification).ousted (classification.assignments library) :=
      fun ousted => ((mem_ousted_recorded consistent).mp ousted).1 removed
    simp [pocketOf_sync_of_removed removed, ungiven, removed, stays, eq_comm]
  · have found := pocketOf_recorded_of_other removed ungiven
    rw [pocketOf_sync, found]
    split
    · rename_i ousted
      obtain ⟨pocket, -, held, -⟩ := mem_ousted.mp ousted
      simp [ousted, ← found, held]
    · rename_i stays
      simp [ungiven, removed, stays]

theorem count_sync_eq_zero_iff (consistent : classification.Consistent) :
    (library.sync classification).2.count = 0 ↔
      ∀ tool, (library.sync classification).1.pocketOf tool = library.pocketOf tool := by
  rw [Changes.count_eq, List.length_eq_zero_iff, List.eq_nil_iff_forall_not_mem]
  simp only [mem_tools_sync consistent, not_not]

theorem count_sync_eq_zero (consistent : classification.Consistent)
    (placed : ∀ tool pocket, (tool, pocket) ∈ classification.assignments library →
      ∀ other, library.pocketOf other = some pocket ↔ other = tool)
    (removed : ∀ tool ∈ classification.removals, library.pocketOf tool = none) :
    (library.sync classification).2.count = 0 := by
  rw [count_sync_eq_zero_iff consistent]
  intro tool
  by_cases given : ∃ pocket, (tool, pocket) ∈ classification.assignments library
  · obtain ⟨pocket, given⟩ := given
    exact (pocketOf_sync_of_given consistent given).trans ((placed tool pocket given tool).mpr rfl).symm
  · have ungiven := not_exists.mp given
    by_cases stays : tool ∈ classification.removals
    · exact (pocketOf_sync_of_removed stays).trans (removed tool stays).symm
    · refine pocketOf_sync_of_free consistent stays ungiven fun pocket held other given => ?_
      obtain rfl := (placed other pocket given tool).mp held
      exact ungiven pocket given

theorem assignments_sync (library : Library) (classification : Classification) :
    classification.assignments (library.sync classification).1 = classification.assignments library := by
  unfold Classification.assignments
  simp only [contains_sync]

/-- What becomes of a library that is brought up to date, and what is told of it. -/
structure Follows (before : Library) (classification : Classification) (after : Library)
    (changes : Changes) : Prop where
  placed : ∀ reference ∈ classification.inMagazine, before.contains reference.tool = true →
    after.pocketOf reference.tool = reference.pocket
  removed : ∀ reference ∈ classification.manual, reference.overridden = true →
    after.pocketOf reference.tool = none
  /-- Any other tool stays where it is, unless a tool with a record was put there. -/
  others : ∀ tool, (∀ reference ∈ classification.inMagazine, reference.tool ≠ tool) →
    (∀ reference ∈ classification.manual, reference.overridden = true → reference.tool ≠ tool) →
    after.pocketOf tool =
      if ∃ reference ∈ classification.inMagazine, before.contains reference.tool = true ∧
        reference.pocket = before.pocketOf tool then none else before.pocketOf tool
  /-- As many records in the same order, which differ in their pockets at most. -/
  records : after.records.map Tool.unplaced = before.records.map Tool.unplaced
  /-- A record whose number has occurred before stays as it is. -/
  repeated : ∀ (i : Nat) (record : Tool), before.records[i]? = some record →
    record.id ∈ (before.records.take i).map (·.id) → after.records[i]? = some record
  assigned : ∀ tool pocket, (tool, pocket) ∈ changes.assigned → after.pocketOf tool = some pocket
  emptied : ∀ tool ∈ changes.cleared ++ changes.vacated, after.pocketOf tool = none
  nodup : changes.tools.Nodup
  changed : ∀ tool, tool ∈ changes.tools ↔ after.pocketOf tool ≠ before.pocketOf tool
  unchanged : changes.count = 0 ↔ after = before

theorem placed_sync (consistent : classification.Consistent) {reference : Reference}
    (listed : reference ∈ classification.inMagazine) (known : library.contains reference.tool = true) :
    (library.sync classification).1.pocketOf reference.tool = reference.pocket := by
  obtain ⟨-, pocket, held⟩ := Classification.mem_inMagazine.mp listed
  rw [held]
  exact pocketOf_sync_of_given consistent
    (mem_assignments_inMagazine.mpr ⟨reference, listed, rfl, held, known⟩)

theorem others_sync (consistent : classification.Consistent)
    (outside : ∀ reference ∈ classification.inMagazine, reference.tool ≠ tool)
    (inside : ∀ reference ∈ classification.manual, reference.overridden = true → reference.tool ≠ tool) :
    (library.sync classification).1.pocketOf tool =
      if ∃ reference ∈ classification.inMagazine, library.contains reference.tool = true ∧
        reference.pocket = library.pocketOf tool then none else library.pocketOf tool := by
  have ungiven (pocket : Pocket) : (tool, pocket) ∉ classification.assignments library := by
    intro given
    obtain ⟨reference, listed, named, -⟩ := mem_assignments_inMagazine.mp given
    exact outside reference listed named
  split
  · rename_i taken
    obtain ⟨reference, listed, known, same⟩ := taken
    obtain ⟨-, pocket, held⟩ := Classification.mem_inMagazine.mp listed
    exact pocketOf_sync_of_taken consistent ungiven (same.symm.trans held)
      (mem_assignments_inMagazine.mpr ⟨reference, listed, rfl, held, known⟩)
  · rename_i free
    refine pocketOf_sync_of_free consistent ?_ ungiven ?_
    · intro removed
      obtain ⟨reference, listed, overridden, named⟩ := Classification.mem_removals.mp removed
      exact inside reference listed overridden named
    · intro pocket held other given
      obtain ⟨reference, listed, rfl, place, known⟩ := mem_assignments_inMagazine.mp given
      exact free ⟨reference, listed, known, place.trans held.symm⟩

theorem follows_sync (consistent : classification.Consistent) :
    library.Follows classification (library.sync classification).1 (library.sync classification).2 where
  placed _ listed known := placed_sync consistent listed known
  removed reference listed overridden :=
    pocketOf_sync_of_removed (Classification.mem_removals.mpr ⟨reference, listed, overridden, rfl⟩)
  others _ outside inside := others_sync consistent outside inside
  records := by
    obtain ⟨updates, same⟩ := exists_update_sync library classification
    exact same ▸ map_unplaced_update library updates
  repeated i record found earlier := by
    obtain ⟨updates, same⟩ := exists_update_sync library classification
    exact same ▸ getElem?_update library updates found earlier
  assigned _ _ told := pocketOf_sync_of_given consistent ((mem_assigned_sync consistent).mp told).1
  emptied tool told := by
    rcases List.mem_append.mp told with cleared | vacated
    · exact pocketOf_sync_of_removed ((mem_cleared_sync consistent).mp cleared).1
    · rw [pocketOf_sync, if_pos (mem_vacated_sync.mp vacated)]
  nodup := nodup_tools_sync consistent
  changed _ := mem_tools_sync consistent
  unchanged := by
    constructor
    · exact sync_idle
    · intro same
      exact (count_sync_eq_zero_iff consistent).mpr fun tool => congrArg (pocketOf · tool) same

theorem count_sync_sync (consistent : classification.Consistent) (library : Library) :
    ((library.sync classification).1.sync classification).2.count = 0 := by
  refine count_sync_eq_zero consistent (fun tool pocket given other => ?_) fun tool removed => ?_
  · rw [assignments_sync] at given
    exact pocketOf_sync_eq_iff_of_given consistent given
  · exact pocketOf_sync_of_removed removed

/-- Whatever library a classification was made with, it can be accepted into any other: what is on record
afterwards and what is told of it is as `Follows` says, and a second time there is nothing to tell. -/
theorem sync_follows (references : List Reference) (seen : Library) (overrides : Overrides)
    (library : Library) (apart : (classify references seen overrides).OneToolPerPocket) :
    let classification := classify references seen overrides
    let accepted := library.sync classification
    library.Follows classification accepted.1 accepted.2 ∧
      (accepted.1.sync classification).2.count = 0 := by
  have consistent := Classification.consistent_classify apart
  exact ⟨follows_sync consistent, count_sync_sync consistent library⟩

/-- Tool 1 is put over tool 2, which is put over tool 7 in turn; tool 5 is taken out. The records had changed
since: tool 3 sits where tool 2 was, and tool 40, which had no record, got one. -/
theorem sync_follows_shifted :
    let overrides : Overrides :=
      Table.ofList [(1, .inPocket 2), (2, .inPocket 3), (5, .outOfMagazine), (40, .inPocket 7)]
    let seen : Library := ⟨[{ id := 1, pocket := some 1 }, { id := 2, pocket := some 2 }]⟩
    let classification := analyze "M6 T1\nM6 T2\nM6 T5\nM6 T40" seen overrides
    let library : Library := ⟨[{ id := 1, pocket := some 1 }, { id := 2, pocket := some 2 },
      { id := 3, pocket := some 2 }, { id := 7, pocket := some 3 }, { id := 5, pocket := some 4 },
      { id := 1, pocket := some 9, name := "spare" }, { id := 40 }]⟩
    let accepted := library.sync classification
    classification.OneToolPerPocket ∧
      accepted.1.records.map (·.pocket) = [some 2, some 3, none, none, none, some 9, some 7] ∧
      accepted.2 = ⟨[(1, 2), (2, 3), (40, 7)], [5], [3, 7]⟩ ∧
      library.Follows classification accepted.1 accepted.2 := by
  intro overrides seen classification library accepted
  have apart : classification.OneToolPerPocket := .of_nodup (by decide +kernel)
  refine ⟨apart, by decide +kernel, by decide +kernel, ?_⟩
  exact (sync_follows (Program.references _ seen overrides) seen overrides library apart).1

end Library
end ToolChanger
