import ToolChanger.Proofs.Remap.Settling
import ToolChanger.Proofs.Remap.Update

/-!
# Where a move leaves every tool

A plan spreads a move over three layers. Taken together its updates make one swap (`swapped`).
-/

namespace ToolChanger
namespace Layers

variable {layers : Layers} {capacity : UInt32} {tool other : ToolId} {target decided : Override}
  {pocket : Pocket} {plan : Plan}

/-- The tool that has to make room first: the library's order counts, then that of the overrides. -/
def firstSitter? (layers : Layers) (tool : ToolId) (pocket : Pocket) : Option ToolId :=
  layers.roster.find? fun other => other ≠ tool && layers.pocketOf other = some pocket

/-- The pocket that a tool leaves behind when it moves into another one. -/
def vacated (layers : Layers) (tool : ToolId) (pocket : Pocket) : Option Pocket :=
  (layers.pocketOf tool).filter (· ≠ pocket)

/-- The pocket of every tool after a swap. -/
def swapped (layers : Layers) (tool : ToolId) (target : Override) (other : ToolId) : Option Pocket :=
  if other = tool then target.pocket?
  else
    match target.pocket? with
    | none => layers.pocketOf other
    | some pocket =>
      match layers.firstSitter? tool pocket with
      | none => layers.pocketOf other
      | some first =>
        if other = first then layers.vacated tool pocket
        else if layers.pocketOf other = some pocket ∨
            layers.pocketOf other = layers.vacated tool pocket then none
        else layers.pocketOf other

/-! ### Who sits in the way -/

/-- The other tools that resolve to a pocket. -/
def sitters (layers : Layers) (tool : ToolId) (pocket : Pocket) : List ToolId :=
  (layers.roster.filter (· ≠ tool)).filter fun other => layers.pocketOf other = some pocket

theorem nodup_roster (layers : Layers) : layers.roster.Nodup := by
  unfold roster
  refine List.nodup_append.mpr ⟨Library.nodup_ids _, List.Pairwise.filter _ (Table.nodup_ids _), ?_⟩
  rintro known inLibrary stranger notInLibrary rfl
  have absent := (List.mem_filter.mp notInLibrary).2
  rw [Library.mem_ids_iff.mp inLibrary] at absent
  cases absent

theorem nodup_sitters (layers : Layers) (tool : ToolId) (pocket : Pocket) :
    (layers.sitters tool pocket).Nodup :=
  ((nodup_roster layers).filter _).filter _

theorem mem_sitters :
    other ∈ layers.sitters tool pocket ↔ other ≠ tool ∧ layers.pocketOf other = some pocket := by
  unfold sitters
  simp only [List.mem_filter, decide_eq_true_eq]
  constructor
  · rintro ⟨⟨-, different⟩, held⟩
    exact ⟨different, held⟩
  · rintro ⟨different, held⟩
    exact ⟨⟨mem_roster_of_pocketOf held, different⟩, held⟩

theorem head?_sitters (layers : Layers) (tool : ToolId) (pocket : Pocket) :
    (layers.sitters tool pocket).head? = layers.firstSitter? tool pocket := by
  unfold sitters firstSitter?
  rw [List.filter_filter, List.head?_filter]
  congr 1
  funext other
  exact Bool.and_comm _ _

theorem vacated_eq_some {old : Pocket} (left : layers.vacated tool pocket = some old) :
    layers.pocketOf tool = some old ∧ old ≠ pocket := by
  obtain ⟨held, different⟩ := Option.filter_eq_some_iff.mp left
  exact ⟨held, by simpa using different⟩

/-- The other tools that resolve to the pocket left behind. -/
def bystanders (layers : Layers) (tool : ToolId) (pocket : Pocket) : List ToolId :=
  (layers.vacated tool pocket).elim [] (layers.sitters tool)

theorem mem_bystanders : other ∈ layers.bystanders tool pocket ↔
    other ≠ tool ∧ ∃ old, layers.vacated tool pocket = some old ∧ layers.pocketOf other = some old := by
  unfold bystanders
  cases layers.vacated tool pocket with
  | none => simp
  | some old => simp [mem_sitters]

theorem displacements_of_nil (free : layers.sitters tool pocket = []) :
    layers.displacements tool pocket = [] := by
  unfold sitters at free
  unfold displacements
  simp only [free]

theorem displacements_of_cons {first : ToolId} {rest : List ToolId}
    (taken : layers.sitters tool pocket = first :: rest) :
    layers.displacements tool pocket =
      (first, layers.vacated tool pocket) ::
        (rest ++ layers.bystanders tool pocket).map (·, none) := by
  unfold sitters at taken
  unfold displacements bystanders vacated
  simp only [taken]
  cases (layers.pocketOf tool).filter (· ≠ pocket) with
  | none => simp
  | some old => rfl

/-! ### The tools that a move decides about -/

theorem moves_of_pocket {first : ToolId} {rest : List ToolId} (asked : target.pocket? = some pocket)
    (taken : layers.sitters tool pocket = first :: rest) :
    layers.moves tool target =
      (tool, target) :: (first, .ofPocket? (layers.vacated tool pocket)) ::
        (rest ++ layers.bystanders tool pocket).map (·, .outOfMagazine) := by
  unfold moves displaced
  rw [asked]
  simp only [displacements_of_cons taken, List.map_cons, List.map_map]
  rfl

theorem tools_moves_of_pocket {first : ToolId} {rest : List ToolId} (asked : target.pocket? = some pocket)
    (taken : layers.sitters tool pocket = first :: rest) :
    (layers.moves tool target).map (·.1) =
      tool :: (layers.sitters tool pocket ++ layers.bystanders tool pocket) := by
  rw [moves_of_pocket asked taken, taken]
  simp [Function.comp_def]

theorem moves_of_free (free : ∀ pocket, target.pocket? = some pocket → layers.sitters tool pocket = []) :
    layers.moves tool target = [(tool, target)] := by
  unfold moves displaced
  cases asked : target.pocket? with
  | none => rfl
  | some pocket =>
    simp only [displacements_of_nil (free pocket asked)]
    rfl

theorem given_of_pocket {first : ToolId} {rest : List ToolId} (asked : target.pocket? = some pocket)
    (taken : layers.sitters tool pocket = first :: rest) :
    layers.given tool target = pocket :: (layers.vacated tool pocket).toList := by
  have nothing (tools : List ToolId) :
      (tools.map fun other => (other, (none : Option Pocket))).filterMap (·.2) = [] := by
    induction tools with
    | nil => rfl
    | cons other rest ih => exact ih
  unfold given displaced
  rw [asked]
  simp only [displacements_of_cons taken, List.filterMap_cons, nothing]
  cases layers.vacated tool pocket <;> rfl

theorem given_of_free (free : ∀ pocket, target.pocket? = some pocket → layers.sitters tool pocket = []) :
    layers.given tool target = target.pocket?.toList := by
  unfold given displaced
  cases asked : target.pocket? with
  | none => rfl
  | some pocket =>
    simp only [displacements_of_nil (free pocket asked)]
    rfl

theorem free_or_taken (layers : Layers) (tool : ToolId) (target : Override) :
    (∀ pocket, target.pocket? = some pocket → layers.sitters tool pocket = []) ∨
    ∃ pocket first rest, target.pocket? = some pocket ∧ layers.sitters tool pocket = first :: rest := by
  cases asked : target.pocket? with
  | none => exact .inl fun pocket same => by cases same
  | some pocket =>
    cases taken : layers.sitters tool pocket with
    | nil =>
      refine .inl fun other same => ?_
      obtain rfl := Option.some.inj same
      exact taken
    | cons first rest => exact .inr ⟨pocket, first, rest, rfl, taken⟩

theorem nodup_moves (layers : Layers) (tool : ToolId) (target : Override) :
    ((layers.moves tool target).map (·.1)).Nodup := by
  rcases free_or_taken layers tool target with free | ⟨pocket, first, rest, asked, taken⟩
  · rw [moves_of_free free]
    exact List.nodup_singleton _
  · rw [tools_moves_of_pocket asked taken, List.nodup_cons, List.mem_append, mem_sitters,
      mem_bystanders]
    refine ⟨by simp, List.nodup_append.mpr ⟨nodup_sitters _ _ _, ?_, ?_⟩⟩
    · unfold bystanders
      cases layers.vacated tool pocket with
      | none => exact List.nodup_nil
      | some old => exact nodup_sitters _ _ _
    · rintro sitter sits bystander stands rfl
      obtain ⟨-, old, left, held⟩ := mem_bystanders.mp stands
      have same : old = pocket := Option.some.inj (held.symm.trans (mem_sitters.mp sits).2)
      exact (vacated_eq_some left).2 same

theorem pocketOf_ne_given (absent : other ∉ (layers.moves tool target).map (·.1))
    (gives : pocket ∈ layers.given tool target) : layers.pocketOf other ≠ some pocket := by
  intro held
  rcases free_or_taken layers tool target with free | ⟨wanted, first, rest, asked, taken⟩
  · rw [moves_of_free free] at absent
    rw [given_of_free free, Option.mem_toList] at gives
    have sits : other ∈ layers.sitters tool pocket := mem_sitters.mpr ⟨by simpa using absent, held⟩
    rw [free pocket gives] at sits
    cases sits
  · rw [tools_moves_of_pocket asked taken, List.mem_cons, List.mem_append, not_or, not_or] at absent
    rw [given_of_pocket asked taken, List.mem_cons, Option.mem_toList] at gives
    rcases gives with rfl | left
    · exact absent.2.1 (mem_sitters.mpr ⟨absent.1, held⟩)
    · exact absent.2.2 (mem_bystanders.mpr ⟨absent.1, pocket, left, held⟩)

/-! ### The layers after a move -/

/-- The layers after a move, whether or not it is allowed. -/
def after (layers : Layers) (tool : ToolId) (target : Override) : Layers :=
  (layers.draft tool target).apply layers

theorem contains_after (layers : Layers) (tool : ToolId) (target : Override) (other : ToolId) :
    (layers.after tool target).library.contains other = layers.library.contains other :=
  Library.contains_update _ _ _

theorem libraryUpdate?_keyed (layers : Layers) (entry : ToolId × Override)
    (update : ToolId × Option Pocket)
    (made : layers.libraryUpdate? entry.1 entry.2 = some update) : update.1 = entry.1 := by
  unfold libraryUpdate? at made
  split at made
  · exact (Option.some.inj made) ▸ rfl
  · cases made

theorem persistedUpdate?_keyed (layers : Layers) (entry : ToolId × Override)
    (update : ToolId × Option Override)
    (made : layers.persistedUpdate? entry.1 entry.2 = some update) : update.1 = entry.1 := by
  unfold persistedUpdate? at made
  split at made
  · exact (Option.some.inj made) ▸ rfl
  · split at made
    · exact (Option.some.inj made) ▸ rfl
    · cases made

theorem sessionUpdate?_keyed (layers : Layers) (requested : ToolId → Bool) (entry : ToolId × Override)
    (update : ToolId × Option Override)
    (made : layers.sessionUpdate? (requested entry.1) entry.1 entry.2 = some update) :
    update.1 = entry.1 := by
  unfold sessionUpdate? at made
  split at made
  · split at made
    · exact (Option.some.inj made) ▸ rfl
    · cases made
  · split at made
    · exact (Option.some.inj made) ▸ rfl
    · exact (Option.some.inj made) ▸ rfl

theorem get?_persisted_after (member : (other, decided) ∈ layers.moves tool target) :
    (layers.after tool target).persisted.get? other =
      if layers.library.contains other then some decided else none := by
  have result := Overrides.get?_update_filterMap layers.persisted
    layers.persistedUpdate?_keyed (nodup_moves layers tool target) member
  refine result.trans ?_
  unfold persistedUpdate?
  cases layers.library.contains other with
  | true => rfl
  | false =>
    cases held : layers.persisted.contains other with
    | true => rfl
    | false => simpa [Table.contains] using held

theorem get?_session_after (member : (other, decided) ∈ layers.moves tool target) :
    (layers.after tool target).session.get? other =
      if layers.library.contains other then none
      else if other = tool ∨ decided.pocket?.isSome then some decided else none := by
  have result := Overrides.get?_update_filterMap layers.session
    (layers.sessionUpdate?_keyed (· = tool)) (nodup_moves layers tool target) member
  refine result.trans ?_
  unfold sessionUpdate?
  cases layers.library.contains other with
  | true =>
    cases held : layers.session.contains other with
    | true => rfl
    | false => simpa [Table.contains] using held
  | false =>
    by_cases kept : other = tool ∨ decided.pocket?.isSome = true
    · simp [kept]
    · simp [kept]

theorem pocketOf_after_of_mem (member : (other, decided) ∈ layers.moves tool target) :
    (layers.after tool target).pocketOf other = decided.pocket? := by
  rw [pocketOf_eq, get?_persisted_after member, get?_session_after member]
  cases known : layers.library.contains other with
  | true => rfl
  | false =>
    by_cases kept : other = tool ∨ decided.pocket?.isSome = true
    · simp [kept]
    · have absent := (contains_after layers tool target other).trans known
      simp only [Library.contains, Option.isSome_eq_false_iff, Option.isNone_iff_eq_none] at absent
      rw [not_or, Bool.not_eq_true, Option.isSome_eq_false_iff, Option.isNone_iff_eq_none] at kept
      simp [Library.pocketOf, absent, kept]

theorem get?_session_after_of_notMem (absent : other ∉ (layers.moves tool target).map (·.1)) :
    (layers.after tool target).session.get? other = layers.session.get? other :=
  Overrides.get?_update_of_notMem fun listed =>
    absent ((sublist_tools_filterMap (layers.sessionUpdate?_keyed (· = tool)) _).subset listed)

theorem get?_persisted_after_of_notMem (absent : other ∉ (layers.moves tool target).map (·.1)) :
    (layers.after tool target).persisted.get? other = layers.persisted.get? other :=
  Overrides.get?_update_of_notMem fun listed =>
    absent ((sublist_tools_filterMap layers.persistedUpdate?_keyed _).subset listed)

/-- Clearing strays touches nobody's pocket: a record that names a pocket given away without placing its
tool there is hidden by an override. -/
theorem pocketOf_after_of_notMem (absent : other ∉ (layers.moves tool target).map (·.1)) :
    (layers.after tool target).pocketOf other = layers.pocketOf other := by
  rw [pocketOf_eq, pocketOf_eq, get?_persisted_after_of_notMem absent, get?_session_after_of_notMem absent]
  cases inForce : (layers.session.get? other).or (layers.persisted.get? other) with
  | some decided => rfl
  | none =>
    have resolved : layers.pocketOf other = layers.library.pocketOf other := by
      rw [pocketOf_eq, inForce]
      rfl
    refine Library.pocketOf_update_of_notMem fun listed => ?_
    unfold draft at listed
    rw [List.map_append, List.mem_append] at listed
    rcases listed with moved | stray
    · exact absent ((sublist_tools_filterMap layers.libraryUpdate?_keyed _).subset moved)
    · obtain ⟨_, cleared, same⟩ := List.mem_map.mp stray
      obtain ⟨record, found, rfl⟩ := List.mem_map.mp cleared
      obtain ⟨indexed, tested⟩ := List.mem_filter.mp found
      rw [Bool.and_eq_true] at tested
      have placed : layers.pocketOf other = record.pocket := by
        rw [resolved, ← show record.id = other from same, Library.pocketOf,
          Library.mem_indexed_iff.mp indexed]
        rfl
      cases recorded : record.pocket with
      | none => simp [recorded] at tested
      | some pocket =>
        rw [recorded] at placed tested
        exact pocketOf_ne_given absent (List.contains_iff_mem.mp tested.2) placed

/-! ### The swap -/

theorem pocketOf_after (layers : Layers) (tool : ToolId) (target : Override) (other : ToolId) :
    (layers.after tool target).pocketOf other = layers.swapped tool target other := by
  unfold swapped
  by_cases moved : other = tool
  · subst moved
    rw [if_pos rfl]
    exact pocketOf_after_of_mem List.mem_cons_self
  rw [if_neg moved]
  rcases free_or_taken layers tool target with free | ⟨pocket, first, rest, asked, taken⟩
  · have stays : (layers.after tool target).pocketOf other = layers.pocketOf other :=
      pocketOf_after_of_notMem (by simpa [moves_of_free free] using moved)
    cases asked : target.pocket? with
    | none => exact stays
    | some pocket =>
      have nobody : layers.firstSitter? tool pocket = none := by
        rw [← head?_sitters, free pocket asked]
        rfl
      simp only [nobody]
      exact stays
  · have someone : layers.firstSitter? tool pocket = some first := by
      rw [← head?_sitters, taken]
      rfl
    simp only [asked, someone]
    have decides := moves_of_pocket asked taken
    by_cases isFirst : other = first
    · subst isFirst
      rw [if_pos rfl]
      have member : (other, Override.ofPocket? (layers.vacated tool pocket)) ∈
          layers.moves tool target := by simp [decides]
      rw [pocketOf_after_of_mem member, Override.pocket?_ofPocket?]
    rw [if_neg isFirst]
    -- Whoever sits in one of the two pockets is listed; the others are not.
    by_cases leaves : other ∈ rest ++ layers.bystanders tool pocket
    · have member : (other, Override.outOfMagazine) ∈ layers.moves tool target := by
        rw [decides]
        exact List.mem_cons_of_mem _ (List.mem_cons_of_mem _ (List.mem_map_of_mem leaves))
      rw [pocketOf_after_of_mem member, if_pos]
      · rfl
      · rcases List.mem_append.mp leaves with sits | stands
        · have sitter : other ∈ layers.sitters tool pocket := taken ▸ List.mem_cons_of_mem _ sits
          exact .inl (mem_sitters.mp sitter).2
        · obtain ⟨-, old, left, held⟩ := mem_bystanders.mp stands
          exact .inr (held.trans left.symm)
    · have absent : other ∉ (layers.moves tool target).map (·.1) := by
        rw [decides]
        simpa [moved, isFirst] using leaves
      rw [pocketOf_after_of_notMem absent]
      split
      · rename_i sits
        rw [List.mem_append, not_or] at leaves
        rcases sits with inWay | inLeft
        · have sitter := mem_sitters.mpr ⟨moved, inWay⟩
          rw [taken] at sitter
          exact absurd ((List.mem_cons.mp sitter).resolve_left isFirst) leaves.1
        · cases left : layers.vacated tool pocket with
          | none => rw [inLeft, left]
          | some old =>
            have stands := mem_bystanders.mpr ⟨moved, old, left, inLeft.trans left⟩
            exact absurd stands leaves.2
      · rfl

theorem pocketOf_ne_of_firstSitter?_eq_none (nobody : layers.firstSitter? tool pocket = none)
    (stays : other ≠ tool) : layers.pocketOf other ≠ some pocket := by
  intro held
  have sits := mem_sitters.mpr ⟨stays, held⟩
  rw [← head?_sitters, List.head?_eq_none_iff] at nobody
  rw [nobody] at sits
  cases sits

theorem swapped_eq_some (held : layers.swapped tool target other = some pocket) :
    (other = tool ∧ target.pocket? = some pocket) ∨
    (∃ place, target.pocket? = some place ∧ layers.firstSitter? tool place = some other ∧
      layers.vacated tool place = some pocket) ∨
    (layers.pocketOf other = some pocket ∧ ∀ place, target.pocket? = some place → pocket ≠ place ∧
      ∀ first, layers.firstSitter? tool place = some first →
        layers.vacated tool place ≠ some pocket) := by
  unfold swapped at held
  split at held
  · rename_i moved
    exact .inl ⟨moved, held⟩
  rename_i stays
  right
  cases asked : target.pocket? with
  | none =>
    simp only [asked] at held
    exact .inr ⟨held, fun place same => by cases same⟩
  | some place =>
    simp only [asked] at held
    cases someone : layers.firstSitter? tool place with
    | none =>
      simp only [someone] at held
      refine .inr ⟨held, fun wanted same => ⟨?_, fun first found => ?_⟩⟩
      · rintro rfl
        obtain rfl := Option.some.inj same
        exact pocketOf_ne_of_firstSitter?_eq_none someone stays held
      · obtain rfl := Option.some.inj same
        rw [someone] at found
        cases found
    | some first =>
      simp only [someone] at held
      split at held
      · rename_i isFirst
        exact .inl ⟨place, rfl, by rw [isFirst, someone], held⟩
      · split at held
        · cases held
        · rename_i elsewhere
          rw [not_or] at elsewhere
          refine .inr ⟨held, fun wanted same => ?_⟩
          obtain rfl := Option.some.inj same
          exact ⟨fun same => elsewhere.1 (same ▸ held), fun _ _ left => elsewhere.2 (held.trans left.symm)⟩

theorem eq_of_swapped (asked : target.pocket? = some pocket)
    (held : layers.swapped tool target other = some pocket) : other = tool := by
  rcases swapped_eq_some held with ⟨moved, -⟩ | ⟨place, asked', -, left⟩ | ⟨-, apart⟩
  · exact moved
  · obtain rfl := Option.some.inj (asked.symm.trans asked')
    exact absurd rfl (vacated_eq_some left).2
  · exact absurd rfl (apart pocket asked).1

theorem eq_of_swapped_of_swapped (unshared : layers.OneToolPerPocket) {a b : ToolId}
    (heldA : layers.swapped tool target a = some pocket)
    (heldB : layers.swapped tool target b = some pocket) : a = b := by
  rcases swapped_eq_some heldA with ⟨-, asked⟩ | ⟨place, asked, firstA, left⟩ | ⟨keptA, apartA⟩
  · exact (eq_of_swapped asked heldA).trans (eq_of_swapped asked heldB).symm
  · rcases swapped_eq_some heldB with ⟨-, asked'⟩ | ⟨place', asked', firstB, -⟩ | ⟨-, apartB⟩
    · exact (eq_of_swapped asked' heldA).trans (eq_of_swapped asked' heldB).symm
    · obtain rfl := Option.some.inj (asked.symm.trans asked')
      exact Option.some.inj (firstA.symm.trans firstB)
    · exact absurd left ((apartB place asked).2 a firstA)
  · rcases swapped_eq_some heldB with ⟨-, asked⟩ | ⟨place, asked, firstB, left⟩ | ⟨keptB, -⟩
    · exact (eq_of_swapped asked heldA).trans (eq_of_swapped asked heldB).symm
    · exact absurd left ((apartA place asked).2 b firstB)
    · exact unshared a b pocket keptA keptB

/-! ### Accepted moves -/

theorem plan_eq (layers : Layers) (capacity : UInt32) (tool : ToolId) (target : Override) :
    layers.plan capacity tool target =
      if tool = 0 then .error (.notATool tool)
      else match target.pocket? with
        | none => .ok (layers.draft tool target)
        | some pocket =>
          if Magazine.has capacity pocket then .ok (layers.draft tool target)
          else .error (.pocket (.outsideMagazine pocket capacity)) := by
  unfold Layers.plan Magazine.check
  by_cases noTool : tool = 0
  · rw [if_pos noTool, if_pos noTool]
    rfl
  · rw [if_neg noTool, if_neg noTool]
    cases target.pocket? with
    | none => rfl
    | some pocket =>
      by_cases inside : Magazine.has capacity pocket = true
      · simp only [if_pos inside]
        rfl
      · simp only [if_neg inside]
        rfl

theorem plan_eq_ok_iff : layers.plan capacity tool target = .ok plan ↔
    tool ≠ 0 ∧ (∀ pocket, target.pocket? = some pocket → Magazine.has capacity pocket = true) ∧
      plan = layers.draft tool target := by
  rw [plan_eq, eq_comm (a := plan)]
  by_cases noTool : tool = 0
  · simp [noTool]
  · cases target.pocket? with
    | none => simp [noTool]
    | some pocket => cases inside : Magazine.has capacity pocket <;> simp [noTool, inside]

/-- A move that is accepted swaps: afterwards every tool is where `swapped` says. The pocket that was asked
for is the moved tool's alone, and if no pocket was shared before none is. -/
theorem pocketOf_apply_plan (accepted : layers.plan capacity tool target = .ok plan) :
    (∀ other, (plan.apply layers).pocketOf other = layers.swapped tool target other) ∧
    (∀ pocket other, target.pocket? = some pocket →
      (plan.apply layers).pocketOf other = some pocket → other = tool) ∧
    (layers.OneToolPerPocket → (plan.apply layers).OneToolPerPocket) := by
  obtain ⟨-, -, rfl⟩ := plan_eq_ok_iff.mp accepted
  have swaps : ∀ other, ((layers.draft tool target).apply layers).pocketOf other =
      layers.swapped tool target other := pocketOf_after layers tool target
  refine ⟨swaps, ?_, ?_⟩
  · intro pocket other asked held
    rw [swaps] at held
    exact eq_of_swapped asked held
  · intro apart a b pocket heldA heldB
    rw [swaps] at heldA heldB
    exact eq_of_swapped_of_swapped apart heldA heldB

/-- Tool 1 moves from pocket 1 to pocket 2, where tools 2 and 5 sit; tool 6 shares pocket 1, and the record
of tool 3 names pocket 2 behind an override. -/
theorem pocketOf_apply_plan_crowded :
    let library : Library := ⟨[{ id := 1, pocket := some 1 }, { id := 2, pocket := some 2 },
      { id := 1, pocket := some 7 }, { id := 3, pocket := some 2 }]⟩
    let layers : Layers := ⟨library, Table.ofList [(3, .outOfMagazine), (5, .inPocket 2)],
      Table.ofList [(6, .inPocket 1)]⟩
    ∃ plan, layers.plan 8 1 (.inPocket 2) = .ok plan ∧
      [1, 2, 3, 5, 6].map (plan.apply layers).pocketOf = [some 2, some 1, none, none, none] := by
  intro library layers
  have accepted : layers.plan 8 1 (.inPocket 2) = .ok (layers.draft 1 (.inPocket 2)) :=
    plan_eq_ok_iff.mpr ⟨by decide, fun pocket same => by cases same; decide, rfl⟩
  refine ⟨_, accepted, ?_⟩
  rw [funext (pocketOf_apply_plan accepted).1]
  decide

end Layers
end ToolChanger
