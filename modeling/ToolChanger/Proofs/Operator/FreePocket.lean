import ToolChanger.Proofs.Load.Status
import ToolChanger.Proofs.Remap.Commuting

namespace ToolChanger

open Program (Reference)

theorem Magazine.has_of_mem_pockets {capacity : UInt32} {pocket : Pocket}
    (listed : pocket ∈ Magazine.pockets capacity) : Magazine.has capacity pocket = true := by
  obtain ⟨n, below, rfl⟩ := List.mem_map.mp listed
  have small : n + 1 < 2 ^ 32 := Nat.lt_of_le_of_lt (List.mem_range.mp below) capacity.toNat_lt
  have value : (n + 1).toUInt32.toNat = n + 1 := UInt32.toNat_ofNat_of_lt' small
  rw [has_eq_true_iff, UInt32.le_iff_toNat_le, UInt32.le_iff_toNat_le, value, UInt32.toNat_one]
  exact ⟨Nat.le_add_left 1 n, List.mem_range.mp below⟩

namespace Layers

variable {layers : Layers} {capacity : UInt32} {tool other : ToolId} {target : Override} {pocket : Pocket}

theorem bucket_reference_after (absent : other ∉ (layers.moves tool target).map (·.1)) (line : Nat) :
    ((layers.after tool target).reference (line, other)).bucket = (layers.reference (line, other)).bucket := by
  have entry : ((layers.after tool target).reference (line, other)).entry.isSome =
      (layers.reference (line, other)).entry.isSome := contains_after layers tool target other
  have overridden : ((layers.after tool target).reference (line, other)).overridden =
      (layers.reference (line, other)).overridden := by
    simp only [reference, Table.contains, get?_overrides, override?, get?_session_after_of_notMem absent,
      get?_persisted_after_of_notMem absent]
  have pocket : ((layers.after tool target).reference (line, other)).pocket =
      (layers.reference (line, other)).pocket := pocketOf_after_of_notMem absent
  rw [Reference.bucket, Reference.bucket, pocket, entry, overridden]

section

variable {program fileName : String}
  (free : pocket ∈ (Summary.mk fileName (analyze program layers.library layers.overrides) capacity
    layers.session).freePockets)
include free

theorem pocketOf_ne_of_free {change : Nat × ToolId} (listed : change ∈ Program.changes program) :
    layers.pocketOf change.2 ≠ some pocket := by
  intro held
  have unused := (List.mem_filter.mp free).2
  simp only [Bool.not_eq_true', List.contains_eq_mem, decide_eq_false_iff_not, mem_used, all_analyze] at unused
  exact unused ⟨layers.reference change, List.mem_map_of_mem listed, held⟩

/-- Whoever makes room in a free pocket is no tool of the program. -/
theorem notMem_moves_of_free (unshared : layers.OneToolPerPocket) {change : Nat × ToolId}
    (listed : change ∈ Program.changes program) (stays : change.2 ≠ tool) :
    change.2 ∉ (layers.moves tool (.inPocket pocket)).map (·.1) := by
  intro moved
  rw [moves_of_unshared unshared, List.map_cons, List.mem_cons, List.map_map, List.mem_map] at moved
  rcases moved with same | ⟨first, met, same⟩
  · exact stays same
  · obtain ⟨place, asked, sits, -⟩ := counterpart?_eq_some (Option.mem_toList.mp met)
    obtain rfl := Option.some.inj asked
    exact pocketOf_ne_of_free free listed (same ▸ sits)

/-- Where no pocket is shared, any tool can be moved into a pocket that a summary lists as free. Whatever has to
make room there, every other tool of the program is in the bucket and in the pocket where it was. -/
theorem plan_into_free (unshared : layers.OneToolPerPocket) (isTool : tool ≠ 0) :
    ∃ plan, layers.plan capacity tool (.inPocket pocket) = .ok plan ∧
      List.Forall₂ (fun told shown : Reference => shown.line = told.line ∧ shown.tool = told.tool ∧
          (told.tool = tool → shown.bucket = .inMagazine ∧ shown.pocket = some pocket) ∧
          (told.tool ≠ tool → shown.bucket = told.bucket ∧ shown.pocket = told.pocket))
        (analyze program layers.library layers.overrides).all
        (analyze program (plan.apply layers).library (plan.apply layers).overrides).all := by
  have inside : Magazine.has capacity pocket = true :=
    Magazine.has_of_mem_pockets (List.mem_filter.mp free).1
  have accepted : layers.plan capacity tool (.inPocket pocket) = .ok (layers.draft tool (.inPocket pocket)) :=
    plan_eq_ok_iff.mpr ⟨isTool, fun place asked => Option.some.inj asked ▸ inside, rfl⟩
  refine ⟨_, accepted, ?_⟩
  rw [all_analyze, all_analyze, List.forall₂_map_left_iff, List.forall₂_map_right_iff, List.forall₂_same]
  rintro ⟨line, other⟩ listed
  refine ⟨rfl, rfl, fun moved => ?_, fun stays => ?_⟩
  · obtain rfl : other = tool := moved
    have placed : (layers.after other (.inPocket pocket)).pocketOf other = some pocket :=
      pocketOf_after_of_mem List.mem_cons_self
    have bucket : ((layers.after other (.inPocket pocket)).reference (line, other)).bucket = .inMagazine := by
      rw [Reference.bucket, reference, placed]
      rfl
    exact ⟨bucket, placed⟩
  · have absent := notMem_moves_of_free free unshared listed stays
    exact ⟨bucket_reference_after absent line, pocketOf_after_of_notMem absent⟩

end

/-- The program calls tools 1, 2, 70 and 9. Tool 3 is not called, so pocket 3, where it is, is free. Tool 1 moves
there and tool 3 gets pocket 1; the others stay, also tool 2, whose record names pocket 3 behind an override. -/
theorem plan_into_free_occupied :
    let library : Library := ⟨[{ id := 1, pocket := some 1 }, { id := 2, pocket := some 3 },
      { id := 3, pocket := some 3 }]⟩
    let layers : Layers := ⟨library, Table.ofList [(2, .inPocket 2)], Table.ofList [(70, .inPocket 4)]⟩
    let shown (layers : Layers) := (analyze "M6 T1\nM6 T2\nM6 T70\nM6 T9" layers.library layers.overrides).all.map
      fun reference => (reference.tool, reference.bucket, reference.pocket)
    layers.pocketOf 3 = some 3 ∧ ∃ plan, layers.plan 8 1 (.inPocket 3) = .ok plan ∧
      (plan.apply layers).pocketOf 3 = some 1 ∧ shown (plan.apply layers) =
        [(1, .inMagazine, some 3), (2, .inMagazine, some 2), (70, .inMagazine, some 4), (9, .unknown, none)] := by
  intro library layers shown
  have unshared : layers.OneToolPerPocket := oneToolPerPocket_iff.mpr (by decide)
  have free : 3 ∈ (Summary.mk "part.nc" (analyze "M6 T1\nM6 T2\nM6 T70\nM6 T9" layers.library layers.overrides) 8
      layers.session).freePockets := by
    decide +kernel
  have isTool : (1 : ToolId) ≠ 0 := by decide
  obtain ⟨plan, accepted, agree⟩ := plan_into_free free unshared isTool
  have swaps := (pocketOf_apply_plan accepted).1 3
  refine ⟨by decide, plan, accepted, swaps.trans (by decide), ?_⟩
  have told : shown layers =
      [(1, .inMagazine, some 1), (2, .inMagazine, some 2), (70, .inMagazine, some 4), (9, .unknown, none)] := by
    decide +kernel
  have moved : shown (plan.apply layers) =
      (shown layers).map fun row => if row.1 = 1 then (1, .inMagazine, some 3) else row := by
    rw [List.map_map, ← List.forall₂_eq_eq_eq, List.forall₂_map_left_iff, List.forall₂_map_right_iff]
    refine agree.flip.imp fun after before ⟨_, same, toPocket, stays⟩ => ?_
    by_cases isMoved : before.tool = 1
    · simp [isMoved, same, toPocket isMoved]
    · simp [isMoved, same, stays isMoved]
  rw [moved, told]
  decide

end Layers

end ToolChanger
