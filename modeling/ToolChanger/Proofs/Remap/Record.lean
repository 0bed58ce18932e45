import ToolChanger.Proofs.Library.Sync
import ToolChanger.Proofs.Remap.Swap

/-!
# What a move leaves on record

In the library a move writes the pockets that it decides about and clears every other record that names a pocket
given away, hidden behind an override or not.
-/

namespace ToolChanger

theorem Library.pocketOf_update_of_mem {library : Library} {updates : List (ToolId × Option Pocket)}
    {tool : ToolId} {pocket : Option Pocket} (nodup : (updates.map (·.1)).Nodup)
    (member : (tool, pocket) ∈ updates) :
    (library.update updates).pocketOf tool = if library.contains tool then pocket else none := by
  cases known : library.contains tool with
  | true =>
    exact pocketOf_update_of_agree known member fun other listed =>
      congrArg Prod.snd (List.inj_on_of_nodup_map nodup listed member rfl)
  | false => exact pocketOf_eq_none_of_contains ((contains_update _ _ _).trans known)

/-- The pockets that a plan names, wherever it does. -/
def Plan.pockets (plan : Plan) : List Pocket :=
  plan.displaced.filterMap (·.2) ++ plan.libraryUpdates.filterMap (·.2) ++
    (plan.persistedUpdates ++ plan.sessionUpdates).filterMap fun update => update.2.bind Override.pocket?

namespace Layers

variable {layers : Layers} {tool other : ToolId} {target decided : Override} {pocket : Pocket}

/-! ### The pockets given away -/

/-- The pocket that the first tool in the way of a move gets from the moved one. -/
def handedOver? (layers : Layers) (tool : ToolId) (target : Override) : Option Pocket :=
  target.pocket?.bind fun pocket => (layers.firstSitter? tool pocket).bind fun _ => layers.vacated tool pocket

theorem pocketOf_of_handedOver (handed : layers.handedOver? tool target = some pocket) :
    layers.pocketOf tool = some pocket := by
  obtain ⟨place, -, someone⟩ := Option.bind_eq_some_iff.mp handed
  obtain ⟨first, -, left⟩ := Option.bind_eq_some_iff.mp someone
  exact (vacated_eq_some left).1

theorem given_eq (layers : Layers) (tool : ToolId) (target : Override) :
    layers.given tool target = target.pocket?.toList ++ (layers.handedOver? tool target).toList := by
  unfold handedOver?
  rcases free_or_taken layers tool target with free | ⟨pocket, first, rest, asked, taken⟩
  · rw [given_of_free free]
    cases asked : target.pocket? with
    | none => rfl
    | some pocket =>
      rw [Option.bind_some, ← head?_sitters, free pocket asked]
      rfl
  · rw [given_of_pocket asked taken, asked, Option.bind_some, ← head?_sitters, taken]
    rfl

theorem mem_given : pocket ∈ layers.given tool target ↔
    target.pocket? = some pocket ∨ layers.handedOver? tool target = some pocket := by
  rw [given_eq, List.mem_append, Option.mem_toList, Option.mem_toList]

theorem given_eq_filterMap_moves (layers : Layers) (tool : ToolId) (target : Override) :
    layers.given tool target = (layers.moves tool target).filterMap (·.2.pocket?) := by
  unfold given moves
  rw [List.filterMap_cons, List.filterMap_map]
  simp only [Function.comp_def, Override.pocket?_ofPocket?]
  cases target.pocket? <;> rfl

theorem mem_given_of_mem_moves (member : (other, decided) ∈ layers.moves tool target)
    (gets : decided.pocket? = some pocket) : pocket ∈ layers.given tool target := by
  rw [given_eq_filterMap_moves]
  exact List.mem_filterMap.mpr ⟨(other, decided), member, gets⟩

theorem decided_of_mem_updates {update : ToolId × Option Override}
    (listed : update ∈ (layers.draft tool target).persistedUpdates ++ (layers.draft tool target).sessionUpdates)
    (states : update.2 = some decided) : (update.1, decided) ∈ layers.moves tool target := by
  unfold draft at listed
  rcases List.mem_append.mp listed with stored | held
  · obtain ⟨⟨moved, decision⟩, member, made⟩ := List.mem_filterMap.mp stored
    simp only [persistedUpdate?] at made
    split at made
    · obtain rfl := Option.some.inj made
      exact Option.some.inj states ▸ member
    · split at made
      · obtain rfl := Option.some.inj made
        cases states
      · cases made
  · obtain ⟨⟨moved, decision⟩, member, made⟩ := List.mem_filterMap.mp held
    simp only [sessionUpdate?] at made
    split at made
    · split at made
      · obtain rfl := Option.some.inj made
        cases states
      · cases made
    · split at made
      · obtain rfl := Option.some.inj made
        exact Option.some.inj states ▸ member
      · obtain rfl := Option.some.inj made
        cases states

theorem traced_of_mem_moves (member : (other, decided) ∈ layers.moves tool target)
    (gets : decided.pocket? = some pocket) :
    (other = tool ∧ target.pocket? = some pocket) ∨
      ∃ place, target.pocket? = some place ∧ layers.firstSitter? tool place = some other ∧
        layers.vacated tool place = some pocket := by
  rcases free_or_taken layers tool target with free | ⟨place, first, rest, asked, taken⟩
  · rw [moves_of_free free, List.mem_singleton] at member
    obtain ⟨rfl, rfl⟩ := Prod.mk.inj member
    exact .inl ⟨rfl, gets⟩
  · rw [moves_of_pocket asked taken, List.mem_cons, List.mem_cons] at member
    rcases member with moved | handed | leaves
    · obtain ⟨rfl, rfl⟩ := Prod.mk.inj moved
      exact .inl ⟨rfl, gets⟩
    · obtain ⟨rfl, rfl⟩ := Prod.mk.inj handed
      rw [Override.pocket?_ofPocket?] at gets
      exact .inr ⟨place, asked, by rw [← head?_sitters, taken, List.head?_cons], gets⟩
    · obtain ⟨loser, -, same⟩ := List.mem_map.mp leaves
      obtain ⟨-, rfl⟩ := Prod.mk.inj same
      cases gets

theorem eq_of_mem_moves {a b : ToolId} {decidedA decidedB : Override}
    (memberA : (a, decidedA) ∈ layers.moves tool target) (getsA : decidedA.pocket? = some pocket)
    (memberB : (b, decidedB) ∈ layers.moves tool target) (getsB : decidedB.pocket? = some pocket) :
    a = b := by
  rcases traced_of_mem_moves memberA getsA with ⟨rfl, askedA⟩ | ⟨place, asked, firstA, left⟩
  · rcases traced_of_mem_moves memberB getsB with ⟨rfl, -⟩ | ⟨place, asked, -, left⟩
    · rfl
    · exact absurd (Option.some.inj (askedA.symm.trans asked)) (vacated_eq_some left).2
  · rcases traced_of_mem_moves memberB getsB with ⟨rfl, askedB⟩ | ⟨place', asked', firstB, -⟩
    · exact absurd (Option.some.inj (askedB.symm.trans asked)) (vacated_eq_some left).2
    · obtain rfl := Option.some.inj (asked.symm.trans asked')
      exact Option.some.inj (firstA.symm.trans firstB)

/-! ### The records after a move -/

theorem mem_strays {moved : List ToolId} {given : List Pocket} {update : ToolId × Option Pocket} :
    update ∈ layers.strays moved given ↔ update.2 = none ∧ update.1 ∉ moved ∧
      ∃ pocket ∈ given, layers.library.pocketOf update.1 = some pocket := by
  obtain ⟨stray, place⟩ := update
  simp only [strays, List.mem_map, List.mem_filter, Bool.and_eq_true, Option.any_eq_true,
    List.contains_eq_mem, decide_eq_true_eq, Bool.not_eq_eq_eq_not, Bool.not_true,
    decide_eq_false_iff_not, Prod.mk.injEq]
  constructor
  · rintro ⟨record, ⟨listed, apart, pocket, held, gives⟩, rfl, rfl⟩
    refine ⟨rfl, apart, pocket, gives, ?_⟩
    rw [Library.pocketOf, Library.mem_indexed_iff.mp listed]
    exact held
  · rintro ⟨rfl, apart, pocket, gives, placed⟩
    obtain ⟨record, found, held⟩ := Option.bind_eq_some_iff.mp placed
    obtain rfl := Library.id_eq_of_get? found
    exact ⟨record, ⟨Library.mem_indexed_of_get? found, apart, pocket, held, gives⟩, rfl, rfl⟩

/-- A plan names the pockets that its move gives away and no others. -/
theorem mem_pockets_draft :
    pocket ∈ (layers.draft tool target).pockets ↔ pocket ∈ layers.given tool target := by
  unfold Plan.pockets
  rw [List.mem_append, List.mem_append]
  constructor
  · rintro ((displaced | recorded) | overrides)
    · exact List.mem_append_right _ displaced
    · obtain ⟨update, listed, names⟩ := List.mem_filterMap.mp recorded
      rcases List.mem_append.mp listed with moved | stray
      · obtain ⟨⟨other, decided⟩, member, made⟩ := List.mem_filterMap.mp moved
        simp only [libraryUpdate?] at made
        split at made
        · obtain rfl := Option.some.inj made
          exact mem_given_of_mem_moves member names
        · cases made
      · rw [(mem_strays.mp stray).1] at names
        cases names
    · obtain ⟨update, listed, names⟩ := List.mem_filterMap.mp overrides
      obtain ⟨decided, states, gets⟩ := Option.bind_eq_some_iff.mp names
      exact mem_given_of_mem_moves (decided_of_mem_updates listed states) gets
  · intro gives
    rcases List.mem_append.mp gives with asked | displaced
    · have gets := Option.mem_toList.mp asked
      refine .inr (List.mem_filterMap.mpr ⟨(tool, some target), ?_, gets⟩)
      -- The moved tool is always decided about, in the settings or in the session.
      have first : (tool, target) ∈ layers.moves tool target := List.mem_cons_self
      cases known : layers.library.contains tool with
      | true =>
        refine List.mem_append_left _ (List.mem_filterMap.mpr ⟨_, first, ?_⟩)
        simp [persistedUpdate?, known]
      | false =>
        refine List.mem_append_right _ (List.mem_filterMap.mpr ⟨_, first, ?_⟩)
        simp [sessionUpdate?, known]
    · exact .inl (.inl displaced)

theorem strays_eq_map (layers : Layers) (moved : List ToolId) (given : List Pocket) :
    layers.strays moved given = ((layers.strays moved given).map (·.1)).map (·, none) := by
  rw [List.map_map]
  refine (List.map_id _).symm.trans (List.map_congr_left fun update listed => ?_)
  exact Prod.ext rfl (mem_strays.mp listed).1

theorem library_after (layers : Layers) (tool : ToolId) (target : Override) :
    (layers.after tool target).library =
      (layers.library.update ((layers.moves tool target).filterMap
        fun (moved, decided) => layers.libraryUpdate? moved decided)).update
      (((layers.strays ((layers.moves tool target).map (·.1)) (layers.given tool target)).map
        (·.1)).map (·, none)) := by
  rw [← strays_eq_map, ← Library.update_append]
  rfl

theorem pocketOf_library_after_of_mem (member : (other, decided) ∈ layers.moves tool target) :
    (layers.after tool target).library.pocketOf other =
      if layers.library.contains other then decided.pocket? else none := by
  have notStray : other ∉
      (layers.strays ((layers.moves tool target).map (·.1)) (layers.given tool target)).map (·.1) := by
    rintro listed
    obtain ⟨update, cleared, rfl⟩ := List.mem_map.mp listed
    exact (mem_strays.mp cleared).2.1 (List.mem_map_of_mem member)
  rw [library_after, Library.pocketOf_update_none, if_neg notStray]
  cases made : layers.libraryUpdate? other decided with
  | none =>
    have idle := notMem_tools_filterMap layers.libraryUpdate?_keyed (nodup_moves layers tool target)
      member made
    rw [Library.pocketOf_update_of_notMem idle]
    unfold libraryUpdate? at made
    cases known : layers.library.contains other with
    | true =>
      have recorded : layers.library.pocketOf other = decided.pocket? := by simpa [known] using made
      simp [recorded]
    | false => simp [Library.pocketOf_eq_none_of_contains known]
  | some update =>
    have nodup : (((layers.moves tool target).filterMap
        fun entry => layers.libraryUpdate? entry.1 entry.2).map (·.1)).Nodup :=
      (nodup_moves layers tool target).sublist (sublist_tools_filterMap layers.libraryUpdate?_keyed _)
    have written : (other, decided.pocket?) = update := by
      unfold libraryUpdate? at made
      split at made
      · exact Option.some.inj made
      · cases made
    exact Library.pocketOf_update_of_mem nodup
      (List.mem_filterMap.mpr ⟨(other, decided), member, written ▸ made⟩)

theorem pocketOf_library_after_of_notMem (absent : other ∉ (layers.moves tool target).map (·.1)) :
    (layers.after tool target).library.pocketOf other =
      (layers.library.pocketOf other).filter (· ∉ layers.given tool target) := by
  have unwritten : other ∉ ((layers.moves tool target).filterMap
      fun entry => layers.libraryUpdate? entry.1 entry.2).map (·.1) := fun listed =>
    absent ((sublist_tools_filterMap layers.libraryUpdate?_keyed _).subset listed)
  rw [library_after, Library.pocketOf_update_none, Library.pocketOf_update_of_notMem unwritten]
  cases placed : layers.library.pocketOf other with
  | none => simp
  | some pocket =>
    have stray : other ∈ (layers.strays ((layers.moves tool target).map (·.1))
        (layers.given tool target)).map (·.1) ↔ pocket ∈ layers.given tool target := by
      constructor
      · intro listed
        obtain ⟨update, cleared, rfl⟩ := List.mem_map.mp listed
        obtain ⟨-, -, place, gives, held⟩ := mem_strays.mp cleared
        exact Option.some.inj (held.symm.trans placed) ▸ gives
      · intro gives
        exact List.mem_map.mpr ⟨(other, none), mem_strays.mpr ⟨rfl, absent, pocket, gives, placed⟩, rfl⟩
    rw [Option.filter_some]
    by_cases gives : pocket ∈ layers.given tool target
    · rw [if_pos (stray.mpr gives), if_neg (by simpa using gives)]
    · rw [if_neg (mt stray.mp gives), if_pos (by simpa using gives)]

theorem pocketOf_library_after_eq_some
    (held : (layers.after tool target).library.pocketOf other = some pocket) :
    (∃ decided, (other, decided) ∈ layers.moves tool target ∧ decided.pocket? = some pocket) ∨
      (layers.library.pocketOf other = some pocket ∧ pocket ∉ layers.given tool target) := by
  by_cases moved : other ∈ (layers.moves tool target).map (·.1)
  · obtain ⟨⟨_, decided⟩, member, rfl⟩ := List.mem_map.mp moved
    rw [pocketOf_library_after_of_mem member] at held
    split at held
    · exact .inl ⟨decided, member, held⟩
    · cases held
  · rw [pocketOf_library_after_of_notMem moved] at held
    obtain ⟨before, kept⟩ := Option.filter_eq_some_iff.mp held
    exact .inr ⟨before, by simpa using kept⟩

theorem oneToolPerPocket_library_after (unshared : layers.library.OneToolPerPocket) (tool : ToolId)
    (target : Override) : (layers.after tool target).library.OneToolPerPocket := by
  rw [Library.oneToolPerPocket_iff] at unshared ⊢
  intro a b pocket heldA heldB
  rcases pocketOf_library_after_eq_some heldA with ⟨decidedA, memberA, getsA⟩ | ⟨keptA, stays⟩
  · rcases pocketOf_library_after_eq_some heldB with ⟨decidedB, memberB, getsB⟩ | ⟨-, stays⟩
    · exact eq_of_mem_moves memberA getsA memberB getsB
    · exact absurd (mem_given_of_mem_moves memberA getsA) stays
  · rcases pocketOf_library_after_eq_some heldB with ⟨decidedB, memberB, getsB⟩ | ⟨keptB, -⟩
    · exact absurd (mem_given_of_mem_moves memberB getsB) stays
    · exact unshared a b pocket keptA keptB

theorem libraryUpdates_draft_of_empty (unread : layers.library = .empty) (tool : ToolId)
    (target : Override) : (layers.draft tool target).libraryUpdates = [] := by
  obtain ⟨library, persisted, session⟩ := layers
  subst unread
  have unwritten : (Layers.mk .empty persisted session |>.moves tool target).filterMap
      (fun (moved, decided) => Layers.mk .empty persisted session |>.libraryUpdate? moved decided) = [] :=
    List.filterMap_eq_nil_iff.mpr fun _ _ => rfl
  unfold draft
  simp only [unwritten]
  rfl

/-- A plan may have been made from an empty library where there was none to be read. -/
theorem oneToolPerPocket_update_draft {library : Library} (unshared : library.OneToolPerPocket)
    (seen : layers.library = library ∨ layers.library = .empty) (tool : ToolId) (target : Override) :
    (library.update (layers.draft tool target).libraryUpdates).OneToolPerPocket := by
  rcases seen with rfl | unread
  · exact oneToolPerPocket_library_after unshared tool target
  · rw [libraryUpdates_draft_of_empty unread]
    exact unshared

/-! ### Each tool is updated once -/

theorem nodup_libraryUpdates (layers : Layers) (tool : ToolId) (target : Override) :
    ((layers.draft tool target).libraryUpdates.map (·.1)).Nodup := by
  unfold draft
  rw [List.map_append, List.nodup_append]
  have moved := sublist_tools_filterMap layers.libraryUpdate?_keyed (layers.moves tool target)
  refine ⟨(nodup_moves layers tool target).sublist moved, ?_, ?_⟩
  · unfold strays
    rw [List.map_map]
    exact (Library.nodup_ids layers.library).sublist (List.filter_sublist.map _)
  · rintro other listed _ stray rfl
    obtain ⟨update, cleared, rfl⟩ := List.mem_map.mp stray
    exact (mem_strays.mp cleared).2.1 (moved.subset listed)

theorem nodup_persistedUpdates (layers : Layers) (tool : ToolId) (target : Override) :
    ((layers.draft tool target).persistedUpdates.map (·.1)).Nodup :=
  (nodup_moves layers tool target).sublist (sublist_tools_filterMap layers.persistedUpdate?_keyed _)

theorem nodup_sessionUpdates (layers : Layers) (tool : ToolId) (target : Override) :
    ((layers.draft tool target).sessionUpdates.map (·.1)).Nodup :=
  (nodup_moves layers tool target).sublist
    (sublist_tools_filterMap (layers.sessionUpdate?_keyed (· = tool)) _)

end Layers
end ToolChanger
