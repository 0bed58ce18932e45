import ToolChanger.Proofs.Remap.Agreement

/-!
# Independent moves

Where no pocket is shared a move decides about the tools at its two ends only, and clears only records that name
one of them. Two moves of different tools without a common end decide the same in either order.
-/

namespace ToolChanger
namespace Layers

variable {layers : Layers} {capacity : UInt32} {tool other first a b : ToolId}
  {target decided s t : Override} {pocket : Pocket}

/-- The pockets between which a move goes. -/
def ends (layers : Layers) (tool : ToolId) (target : Override) : List Pocket :=
  target.pocket?.toList ++ (layers.pocketOf tool).toList

/-- What the layers say about one tool, each on its own. -/
def account (layers : Layers) (tool : ToolId) : Option Pocket × Option Override × Option Override :=
  (layers.library.pocketOf tool, layers.persisted.get? tool, layers.session.get? tool)

theorem mem_ends :
    pocket ∈ layers.ends tool target ↔ target.pocket? = some pocket ∨ layers.pocketOf tool = some pocket := by
  simp [ends]

theorem mem_ends_of_mem_given (gives : pocket ∈ layers.given tool target) :
    pocket ∈ layers.ends tool target :=
  mem_ends.mpr ((mem_given.mp gives).imp_right pocketOf_of_handedOver)

/-! ### What the layers say after a move -/

theorem account_after_of_mem (member : (other, decided) ∈ layers.moves tool target) :
    (layers.after tool target).account other =
      if layers.library.contains other then (decided.pocket?, some decided, none)
      else (none, none, if other = tool ∨ decided.pocket?.isSome then some decided else none) := by
  rw [account, pocketOf_library_after_of_mem member, get?_persisted_after member, get?_session_after member]
  cases layers.library.contains other <;> rfl

theorem account_after_of_notMem (absent : other ∉ (layers.moves tool target).map (·.1)) :
    (layers.after tool target).account other =
      ((layers.account other).1.filter (· ∉ layers.given tool target), (layers.account other).2) := by
  rw [account, pocketOf_library_after_of_notMem absent, get?_persisted_after_of_notMem absent,
    get?_session_after_of_notMem absent]
  rfl

/-- Moves change nothing of a record but its pocket, so what they leave of the layers is seen tool by
tool. -/
theorem after_after_ext (same : ∀ other,
      ((layers.after a s).after b t).account other = ((layers.after b t).after a s).account other) :
    (layers.after a s).after b t = (layers.after b t).after a s := by
  have library : ((layers.after a s).after b t).library = ((layers.after b t).after a s).library := by
    have joined (a b : ToolId) (s t : Override) : ((layers.after a s).after b t).library =
        layers.library.update
          ((layers.draft a s).libraryUpdates ++ ((layers.after a s).draft b t).libraryUpdates) :=
      (Library.update_append _ _ _).symm
    have pockets other := congrArg Prod.fst (same other)
    simp only [account, joined] at pockets
    rw [joined, joined]
    exact Library.update_congr pockets
  have persisted : ((layers.after a s).after b t).persisted = ((layers.after b t).after a s).persisted :=
    Table.ext_get? fun other => congrArg (·.2.1) (same other)
  have session : ((layers.after a s).after b t).session = ((layers.after b t).after a s).session :=
    Table.ext_get? fun other => congrArg (·.2.2) (same other)
  have whole (layers : Layers) : layers = ⟨layers.library, layers.persisted, layers.session⟩ := rfl
  rw [whole ((layers.after a s).after b t), library, persisted, session]

/-! ### Where no pocket is shared -/

section

variable (unshared : layers.OneToolPerPocket)
include unshared

theorem counterpart?_eq_some_iff :
    layers.counterpart? tool target = some first ↔
      first ≠ tool ∧ ∃ pocket, target.pocket? = some pocket ∧ layers.pocketOf first = some pocket := by
  constructor
  · intro met
    obtain ⟨pocket, asked, sits, different⟩ := counterpart?_eq_some met
    exact ⟨different, pocket, asked, sits⟩
  · rintro ⟨different, pocket, asked, sits⟩
    exact counterpart?_of_sits unshared asked sits different

theorem moves_of_unshared (tool : ToolId) (target : Override) :
    layers.moves tool target = (tool, target) :: (layers.counterpart? tool target).toList.map
      fun first => (first, .ofPocket? (layers.pocketOf tool)) := by
  rcases free_or_taken layers tool target with free | ⟨pocket, first, rest, asked, taken⟩
  · have alone : layers.counterpart? tool target = none := by
      rw [counterpart?]
      cases asked : target.pocket? with
      | none => rfl
      | some pocket => rw [Option.bind_some, ← head?_sitters, free pocket asked, List.head?_nil]
    rw [moves_of_free free, alone]
    rfl
  · have sitter {other : ToolId} (listed : other ∈ first :: rest) :
        other ≠ tool ∧ layers.pocketOf other = some pocket := mem_sitters.mp (taken ▸ listed)
    obtain ⟨different, sits⟩ := sitter List.mem_cons_self
    have nobodyElse : rest ++ layers.bystanders tool pocket = [] := by
      refine List.eq_nil_iff_forall_not_mem.mpr fun other further => ?_
      rcases List.mem_append.mp further with listed | stands
      · have same := unshared _ _ pocket (sitter (List.mem_cons_of_mem first listed)).2 sits
        have distinct := taken ▸ nodup_sitters layers tool pocket
        exact (List.nodup_cons.mp distinct).1 (same ▸ listed)
      · obtain ⟨stays, old, left, held⟩ := mem_bystanders.mp stands
        exact stays (unshared _ _ old held (vacated_eq_some left).1)
    rw [moves_of_pocket asked taken, nobodyElse, vacated_of_sits unshared sits different,
      counterpart?_of_sits unshared asked sits different]
    rfl

theorem at_ends_of_mem_moves (moved : other ∈ (layers.moves tool target).map (·.1)) :
    other = tool ∨ ∃ pocket ∈ layers.ends tool target, layers.pocketOf other = some pocket := by
  rw [moves_of_unshared unshared, List.map_cons, List.mem_cons, List.map_map, List.mem_map] at moved
  rcases moved with same | ⟨first, met, rfl⟩
  · exact .inl same
  · obtain ⟨pocket, asked, sits, -⟩ := counterpart?_eq_some (Option.mem_toList.mp met)
    exact .inr ⟨pocket, mem_ends.mpr (.inl asked), sits⟩

theorem pocketOf_after_eq_some_iff (apart : pocket ∉ layers.ends tool target) :
    (layers.after tool target).pocketOf other = some pocket ↔ layers.pocketOf other = some pocket := by
  rw [mem_ends, not_or] at apart
  rw [pocketOf_after, swapped_of_unshared unshared]
  split
  · rename_i moved
    subst moved
    simp [apart.1, apart.2]
  · split
    · rename_i inWay
      rw [inWay.2]
      simp [apart.1, apart.2]
    · rfl

/-! ### Two moves without a common end -/

section

variable (different : a ≠ b) (apart : (layers.ends a s).Disjoint (layers.ends b t))
include different apart

theorem moves_after : (layers.after a s).moves b t = layers.moves b t := by
  have stays : (layers.after a s).pocketOf b = layers.pocketOf b := by
    rw [pocketOf_after, swapped_of_unshared unshared, if_neg different.symm, if_neg]
    rintro ⟨somewhere, inWay⟩
    obtain ⟨pocket, held⟩ := Option.ne_none_iff_exists'.mp somewhere
    exact apart (mem_ends.mpr (.inl (inWay.symm.trans held))) (mem_ends.mpr (.inr held))
  have meets : (layers.after a s).counterpart? b t = layers.counterpart? b t := by
    refine Option.ext fun first => ?_
    rw [counterpart?_eq_some_iff (oneToolPerPocket_after unshared a s), counterpart?_eq_some_iff unshared]
    refine and_congr_right fun _ => exists_congr fun pocket => and_congr_right fun asked => ?_
    exact pocketOf_after_eq_some_iff unshared fun atEnd => apart atEnd (mem_ends.mpr (.inl asked))
  rw [moves_of_unshared (oneToolPerPocket_after unshared a s), moves_of_unshared unshared, stays, meets]

theorem given_after : (layers.after a s).given b t = layers.given b t := by
  rw [given_eq_filterMap_moves, moves_after unshared different apart, ← given_eq_filterMap_moves]

theorem notMem_moves_of_mem (moved : other ∈ (layers.moves b t).map (·.1)) :
    other ∉ (layers.moves a s).map (·.1) := by
  intro alsoMoved
  rcases at_ends_of_mem_moves unshared alsoMoved with rfl | ⟨pocket, atEnd, held⟩
  · rcases at_ends_of_mem_moves unshared moved with same | ⟨pocket, atEnd, held⟩
    · exact different same
    · exact apart (mem_ends.mpr (.inr held)) atEnd
  · rcases at_ends_of_mem_moves unshared moved with rfl | ⟨place, atEnd', held'⟩
    · exact apart atEnd (mem_ends.mpr (.inr held))
    · obtain rfl := Option.some.inj (held.symm.trans held')
      exact apart atEnd atEnd'

theorem account_after_after_of_mem (moved : other ∈ (layers.moves b t).map (·.1)) :
    ((layers.after a s).after b t).account other = ((layers.after b t).after a s).account other := by
  have apart' := List.disjoint_comm.mp apart
  have untouched : other ∉ ((layers.after b t).moves a s).map (·.1) := by
    rw [moves_after unshared different.symm apart']
    exact notMem_moves_of_mem unshared different apart moved
  obtain ⟨⟨other, decided⟩, member, rfl⟩ := List.mem_map.mp moved
  have kept : decided.pocket?.filter (· ∉ layers.given a s) = decided.pocket? := by
    cases gets : decided.pocket? with
    | none => rfl
    | some pocket =>
      have atEnd := mem_ends_of_mem_given (mem_given_of_mem_moves member gets)
      rw [Option.filter_some, if_pos]
      simpa using fun gives => apart (mem_ends_of_mem_given gives) atEnd
  have memberAfter : (other, decided) ∈ (layers.after a s).moves b t := by
    rw [moves_after unshared different apart]
    exact member
  rw [account_after_of_mem memberAfter, account_after_of_notMem untouched, account_after_of_mem member,
    given_after unshared different.symm apart', contains_after]
  cases layers.library.contains other with
  | true => simp only [if_true, kept]
  | false => rfl

theorem account_after_after_of_notMem (absentA : other ∉ (layers.moves a s).map (·.1))
    (absentB : other ∉ (layers.moves b t).map (·.1)) :
    ((layers.after a s).after b t).account other =
      (((layers.account other).1.filter (· ∉ layers.given a s)).filter (· ∉ layers.given b t),
        (layers.account other).2) := by
  have absent : other ∉ ((layers.after a s).moves b t).map (·.1) := by
    rw [moves_after unshared different apart]
    exact absentB
  rw [account_after_of_notMem absent, account_after_of_notMem absentA, given_after unshared different apart]

theorem after_after_comm : (layers.after a s).after b t = (layers.after b t).after a s := by
  have apart' := List.disjoint_comm.mp apart
  refine after_after_ext fun other => ?_
  -- a tool is decided about by one of the moves at most; the other one cannot tell when that happens
  by_cases movedB : other ∈ (layers.moves b t).map (·.1)
  · exact account_after_after_of_mem unshared different apart movedB
  by_cases movedA : other ∈ (layers.moves a s).map (·.1)
  · exact (account_after_after_of_mem unshared different.symm apart' movedA).symm
  · rw [account_after_after_of_notMem unshared different apart movedA movedB,
      account_after_after_of_notMem unshared different.symm apart' movedB movedA, Option.filter_filter,
      Option.filter_filter]
    simp only [Bool.and_comm]

end

end

/-! ### Planned one after the other -/

/-- Two moves of different tools that go between different pockets come to the same in either order, each
planned on what the one before it left: the same records, the same stored overrides and the same ones of
the session. -/
theorem apply_plan_comm (unshared : layers.OneToolPerPocket) (isToolA : a ≠ 0) (isToolB : b ≠ 0)
    (different : a ≠ b)
    (allowedA : ∀ pocket, s.pocket? = some pocket → Magazine.has capacity pocket = true)
    (allowedB : ∀ pocket, t.pocket? = some pocket → Magazine.has capacity pocket = true)
    (apart : (layers.ends a s).Disjoint (layers.ends b t)) :
    ∃ planA planB planB' planA',
      layers.plan capacity a s = .ok planA ∧ (planA.apply layers).plan capacity b t = .ok planB ∧
      layers.plan capacity b t = .ok planB' ∧ (planB'.apply layers).plan capacity a s = .ok planA' ∧
      planB.apply (planA.apply layers) = planA'.apply (planB'.apply layers) := by
  have accepted (layers : Layers) {tool : ToolId} {target : Override} (isTool : tool ≠ 0)
      (allowed : ∀ pocket, target.pocket? = some pocket → Magazine.has capacity pocket = true) :
      layers.plan capacity tool target = .ok (layers.draft tool target) :=
    plan_eq_ok_iff.mpr ⟨isTool, allowed, rfl⟩
  exact ⟨_, _, _, _, accepted layers isToolA allowedA, accepted (layers.after a s) isToolB allowedB,
    accepted layers isToolB allowedB, accepted (layers.after b t) isToolA allowedA,
    after_after_comm unshared different apart⟩

/-- Tool 1 trades places with tool 60, which only the session knows; tool 2 goes from pocket 3, where a
stored override has put it, to pocket 5, which is free. The records of tools 3 and 4 name pockets given away
by the one move and by the other, behind overrides; the one of tool 2 names a pocket given away by the
first move. -/
theorem apply_plan_comm_strays :
    let library : Library := ⟨[{ id := 1, pocket := some 1 }, { id := 2, pocket := some 4 },
      { id := 3, pocket := some 4 }, { id := 4, pocket := some 5 }, { id := 2, pocket := some 4 }]⟩
    let layers : Layers := ⟨library,
      Table.ofList [(2, .inPocket 3), (3, .outOfMagazine), (4, .inPocket 7)],
      Table.ofList [(60, .inPocket 4)]⟩
    layers.ends 1 (.inPocket 4) = [4, 1] ∧ layers.ends 2 (.inPocket 5) = [5, 3] ∧
    ∃ planA planB planB' planA',
      layers.plan 8 1 (.inPocket 4) = .ok planA ∧
      (planA.apply layers).plan 8 2 (.inPocket 5) = .ok planB ∧
      layers.plan 8 2 (.inPocket 5) = .ok planB' ∧
      (planB'.apply layers).plan 8 1 (.inPocket 4) = .ok planA' ∧
      planB.apply (planA.apply layers) = planA'.apply (planB'.apply layers) := by
  intro library layers
  have unshared : layers.OneToolPerPocket := oneToolPerPocket_iff.mpr (by decide)
  have endsA : layers.ends 1 (.inPocket 4) = [4, 1] := by decide
  have endsB : layers.ends 2 (.inPocket 5) = [5, 3] := by decide
  have apart : (layers.ends 1 (.inPocket 4)).Disjoint (layers.ends 2 (.inPocket 5)) := by
    simp [endsA, endsB]
  exact ⟨endsA, endsB, apply_plan_comm unshared (by decide) (by decide) (by decide)
    (fun pocket asked => by cases asked; decide) (fun pocket asked => by cases asked; decide) apart⟩

end Layers
end ToolChanger
