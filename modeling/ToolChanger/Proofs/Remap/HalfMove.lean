import ToolChanger.Proofs.Remap.Record
import ToolChanger.Proofs.Remap.Standing

/-!
# A move that stops halfway

A move writes the records first and the stored overrides after them. If of the two tools that swap only one follows
its record, a move that stops in between leaves both with a claim on one pocket, or the one has left and the other
one has not come; settling leaves the tool that follows its record without a pocket (`LeftOut`).
-/

namespace ToolChanger
namespace Layers

variable {layers : Layers} {capacity : UInt32} {tool other first loser keeper : ToolId}
  {target : Override} {pocket : Pocket}

/-- A tool of the library that no override decides about. -/
def FollowsRecord (layers : Layers) (tool : ToolId) : Prop :=
  layers.library.contains tool = true ∧ layers.override? tool = none

instance (layers : Layers) (tool : ToolId) : Decidable (layers.FollowsRecord tool) :=
  inferInstanceAs (Decidable (_ ∧ _))

/-- The layers where a move's records are written and its overrides are not. -/
def halfway (layers : Layers) (tool : ToolId) (target : Override) : Layers :=
  { layers with library := (layers.after tool target).library }

/-- The layers as the next round has them: the session is reconciled once more. -/
def reread (layers : Layers) (capacity : UInt32) : Layers :=
  { layers with
    session := reconcile layers.session layers.session layers.library layers.persisted capacity }

/-- The tool that a move swaps with. -/
def counterpart? (layers : Layers) (tool : ToolId) (target : Override) : Option ToolId :=
  target.pocket?.bind (layers.firstSitter? tool)

/-- The tool that a move leaves without a pocket if it stops halfway: of the two that swap it alone follows
its record, and it had a pocket. -/
def LeftOut (layers : Layers) (tool : ToolId) (target : Override) (loser : ToolId) : Prop :=
  ∃ first, layers.counterpart? tool target = some first ∧
    ((loser = first ∧ layers.FollowsRecord first ∧ ¬ layers.FollowsRecord tool) ∨
      (loser = tool ∧ layers.FollowsRecord tool ∧ ¬ layers.FollowsRecord first ∧
        layers.pocketOf tool ≠ none))

theorem reread_eq_settleAll (within : layers.SessionWithin capacity)
    (noTool : layers.session.get? 0 = none) :
    layers.reread capacity = settleAll layers.session capacity layers := by
  unfold reread
  rw [layers_reconcile, filter_admissible within noTool]

/-! ### Who follows the record -/

theorem followsRecord_of_pocketOf (free : layers.override? tool = none)
    (held : layers.pocketOf tool = some pocket) : layers.FollowsRecord tool := by
  refine ⟨?_, free⟩
  have recorded : layers.library.pocketOf tool = some pocket := by
    rw [pocketOf, free] at held
    exact held
  cases known : layers.library.contains tool with
  | true => rfl
  | false =>
    rw [Library.pocketOf_eq_none_of_contains known] at recorded
    cases recorded

theorem rank_of_followsRecord (follows : layers.FollowsRecord tool) :
    layers.rank layers.session tool = 3 := by
  obtain ⟨session, persisted⟩ := Option.or_eq_none_iff.mp follows.2
  unfold rank Table.contains
  rw [session, persisted]
  rfl

theorem rank_lt_of_not_followsRecord (decided : ¬ layers.FollowsRecord tool)
    (held : layers.pocketOf tool = some pocket) : layers.rank layers.session tool < 3 := by
  cases inForce : layers.override? tool with
  | none => exact absurd (followsRecord_of_pocketOf inForce held) decided
  | some override =>
    unfold rank
    rcases Option.or_eq_some_iff.mp inForce with session | ⟨session, persisted⟩
    · rw [session]
      simp
    · rw [session]
      simp [Table.contains, persisted]

/-- Halfway, the tools that follow their records have moved and the others have not. -/
theorem pocketOf_halfway (layers : Layers) (tool : ToolId) (target : Override) (other : ToolId) :
    (layers.halfway tool target).pocketOf other =
      if layers.FollowsRecord other then layers.swapped tool target other
      else layers.pocketOf other := by
  have sameOverride : (layers.halfway tool target).override? other = layers.override? other := rfl
  cases inForce : layers.override? other with
  | some decided =>
    have overruled : ¬ layers.FollowsRecord other := fun follows => by
      rw [follows.2] at inForce
      cases inForce
    rw [if_neg overruled, pocketOf, pocketOf, sameOverride, inForce]
  | none =>
    have now : (layers.halfway tool target).pocketOf other =
        (layers.after tool target).library.pocketOf other := by
      rw [pocketOf, sameOverride, inForce]
      rfl
    have before : layers.pocketOf other = layers.library.pocketOf other := by
      rw [pocketOf, inForce]
    rw [now]
    cases known : layers.library.contains other with
    | false =>
      have unknown := (contains_after layers tool target other).trans known
      rw [if_neg (fun follows => by simp [follows.1] at known), before,
        Library.pocketOf_eq_none_of_contains known, Library.pocketOf_eq_none_of_contains unknown]
    | true =>
      rw [if_pos ⟨known, inForce⟩, ← pocketOf_after]
      by_cases moved : other ∈ (layers.moves tool target).map (·.1)
      · obtain ⟨⟨_, decided⟩, member, rfl⟩ := List.mem_map.mp moved
        rw [pocketOf_library_after_of_mem member, pocketOf_after_of_mem member, if_pos known]
      · rw [pocketOf_library_after_of_notMem moved, pocketOf_after_of_notMem moved, before]
        cases placed : layers.library.pocketOf other with
        | none => rfl
        | some pocket =>
          have kept : pocket ∉ layers.given tool target := fun gives =>
            pocketOf_ne_given moved gives (before.trans placed)
          rw [Option.filter_some, if_pos (by simpa using kept)]

/-! ### The swap where no pocket is shared -/

theorem swapped_of_alone (alone : layers.counterpart? tool target = none) (different : other ≠ tool) :
    layers.swapped tool target other = layers.pocketOf other := by
  unfold swapped
  rw [if_neg different]
  cases asked : target.pocket? with
  | none => rfl
  | some pocket =>
    have nobody : layers.firstSitter? tool pocket = none := by
      rw [counterpart?, asked] at alone
      exact alone
    simp only [nobody]

theorem counterpart?_eq_some (met : layers.counterpart? tool target = some first) :
    ∃ pocket, target.pocket? = some pocket ∧ layers.pocketOf first = some pocket ∧ first ≠ tool := by
  obtain ⟨pocket, asked, found⟩ := Option.bind_eq_some_iff.mp met
  have sits := List.find?_some found
  simp only [ne_eq, decide_not, Bool.and_eq_true, Bool.not_eq_eq_eq_not, Bool.not_true,
    decide_eq_false_iff_not, decide_eq_true_eq] at sits
  exact ⟨pocket, asked, sits.2, sits.1⟩

theorem vacated_of_sits (unshared : layers.OneToolPerPocket) (sits : layers.pocketOf other = some pocket)
    (different : other ≠ tool) : layers.vacated tool pocket = layers.pocketOf tool := by
  unfold vacated
  cases held : layers.pocketOf tool with
  | none => rfl
  | some old =>
    have apart : old ≠ pocket := fun same => different (unshared _ _ pocket sits (same ▸ held))
    rw [Option.filter_some, if_pos (by simpa using apart)]

theorem swapped_of_counterpart (unshared : layers.OneToolPerPocket)
    (met : layers.counterpart? tool target = some first) (other : ToolId) :
    layers.swapped tool target other =
      if other = tool then target.pocket?
      else if other = first then layers.pocketOf tool
      else layers.pocketOf other := by
  obtain ⟨pocket, asked, sits, different⟩ := counterpart?_eq_some met
  have found : layers.firstSitter? tool pocket = some first := by
    rw [counterpart?, asked] at met
    exact met
  have leaves := vacated_of_sits unshared sits different
  unfold swapped
  split
  · rfl
  rename_i stays
  simp only [asked, found, leaves]
  split
  · rfl
  rename_i bystander
  split
  · rename_i touched
    rcases touched with inWay | inLeft
    · exact absurd (unshared _ _ pocket inWay sits) bystander
    · cases held : layers.pocketOf other with
      | none => rfl
      | some old =>
        rw [held] at inLeft
        exact absurd (unshared _ _ old held inLeft.symm) stays
  · rfl

/-! ### Settling what is left halfway -/

/-- One tool has come too many, into a pocket where its claim is the lower one: it alone has to leave. -/
theorem pocketOf_settleAll_of_loser (unshared : layers.OneToolPerPocket) {now : Layers}
    (capacity : UInt32) (others : ∀ other, other ≠ loser → now.pocketOf other = layers.pocketOf other)
    (different : keeper ≠ loser) (keeps : now.pocketOf keeper = some pocket)
    (claims : now.pocketOf loser = some pocket)
    (below : now.rank now.session keeper < now.rank now.session loser) (other : ToolId) :
    (settleAll now.session capacity now).pocketOf other =
      if other = loser then none else layers.pocketOf other := by
  have apart {a b : ToolId} {place : Pocket} (staysA : a ≠ loser) (staysB : b ≠ loser)
      (heldA : now.pocketOf a = some place) (heldB : now.pocketOf b = some place) : a = b := by
    rw [others _ staysA] at heldA
    rw [others _ staysB] at heldB
    exact unshared a b place heldA heldB
  refine Option.ext fun place => ?_
  rw [pocketOf_settleAll_session]
  by_cases same : other = loser
  · subst same
    rw [if_pos rfl]
    refine ⟨fun holds => ?_, by simp⟩
    have held := mem_claimants.mp (mem_claimants_of_holder? holds)
    obtain rfl := Option.some.inj (held.symm.trans claims)
    have least := rank_le_of_holder? holds keeps
    omega
  · rw [if_neg same, ← others other same]
    refine ⟨fun holds => mem_claimants.mp (mem_claimants_of_holder? holds), fun held => ?_⟩
    refine holder?_of_rank_lt held fun rival claimed unlike => ?_
    by_cases isLoser : rival = loser
    · subst isLoser
      obtain rfl := Option.some.inj (claimed.symm.trans claims)
      exact apart same different held keeps ▸ below
    · exact absurd (apart isLoser same claimed held) unlike

section

variable (unshared : layers.OneToolPerPocket)
include unshared

theorem pocketOf_halfway_of_ne (met : layers.counterpart? tool target = some first)
    (notTool : other ≠ tool) (notFirst : other ≠ first) :
    (layers.halfway tool target).pocketOf other = layers.pocketOf other := by
  have stays : layers.swapped tool target other = layers.pocketOf other := by
    rw [swapped_of_counterpart unshared met, if_neg notTool, if_neg notFirst]
  rw [pocketOf_halfway, stays, ite_self]

theorem pocketOf_settle_of_counterpart (met : layers.counterpart? tool target = some first)
    (follows : layers.FollowsRecord first) (overruled : ¬ layers.FollowsRecord tool)
    (capacity : UInt32) (other : ToolId) :
    (settleAll layers.session capacity (layers.halfway tool target)).pocketOf other =
      if other = first then none else layers.pocketOf other := by
  obtain ⟨pocket, asked, sits, different⟩ := counterpart?_eq_some met
  have toolStays : (layers.halfway tool target).pocketOf tool = layers.pocketOf tool := by
    rw [pocketOf_halfway, if_neg overruled]
  have firstLeaves : (layers.halfway tool target).pocketOf first = layers.pocketOf tool := by
    rw [pocketOf_halfway, if_pos follows, swapped_of_counterpart unshared met, if_neg different, if_pos rfl]
  have others {other : ToolId} (unlike : other ≠ first) :
      (layers.halfway tool target).pocketOf other = layers.pocketOf other := by
    by_cases same : other = tool
    · rw [same, toolStays]
    · exact pocketOf_halfway_of_ne unshared met same unlike
  -- The counterpart has followed its record to where the tool still is, if that is anywhere.
  cases held : layers.pocketOf tool with
  | none =>
    rw [held] at firstLeaves
    have apart : (layers.halfway tool target).OneToolPerPocket := by
      intro a b place heldA heldB
      by_cases isFirstA : a = first
      · rw [isFirstA, firstLeaves] at heldA
        cases heldA
      by_cases isFirstB : b = first
      · rw [isFirstB, firstLeaves] at heldB
        cases heldB
      rw [others isFirstA] at heldA
      rw [others isFirstB] at heldB
      exact unshared a b place heldA heldB
    rw [settleAll_of_unshared apart]
    split
    · rename_i isFirst
      rw [isFirst, firstLeaves]
    · rename_i unlike
      exact others unlike
  | some old =>
    have below : layers.rank layers.session tool < layers.rank layers.session first := by
      rw [rank_of_followsRecord follows]
      exact rank_lt_of_not_followsRecord overruled held
    exact pocketOf_settleAll_of_loser unshared capacity (fun _ => others) different.symm
      (toolStays.trans held) (firstLeaves.trans held) below other

theorem pocketOf_settle_of_tool (met : layers.counterpart? tool target = some first)
    (follows : layers.FollowsRecord tool) (overruled : ¬ layers.FollowsRecord first)
    (capacity : UInt32) (other : ToolId) :
    (settleAll layers.session capacity (layers.halfway tool target)).pocketOf other =
      if other = tool then none else layers.pocketOf other := by
  obtain ⟨pocket, asked, sits, different⟩ := counterpart?_eq_some met
  have firstStays : (layers.halfway tool target).pocketOf first = layers.pocketOf first := by
    rw [pocketOf_halfway, if_neg overruled]
  have toolComes : (layers.halfway tool target).pocketOf tool = some pocket := by
    rw [pocketOf_halfway, if_pos follows, swapped_of_counterpart unshared met, if_pos rfl, asked]
  have others {other : ToolId} (unlike : other ≠ tool) :
      (layers.halfway tool target).pocketOf other = layers.pocketOf other := by
    by_cases same : other = first
    · rw [same, firstStays]
    · exact pocketOf_halfway_of_ne unshared met unlike same
  -- The tool has followed its record to where the counterpart is kept, and has to give way.
  have below : layers.rank layers.session first < layers.rank layers.session tool := by
    rw [rank_of_followsRecord follows]
    exact rank_lt_of_not_followsRecord overruled sits
  exact pocketOf_settleAll_of_loser unshared capacity (fun _ => others) different
    (firstStays.trans sits) toolComes below other

theorem pocketOf_halfway_of_together
    (together : ∀ first, layers.counterpart? tool target = some first →
      (layers.FollowsRecord first ↔ layers.FollowsRecord tool)) :
    (∀ other, (layers.halfway tool target).pocketOf other = layers.pocketOf other) ∨
      ∀ other, (layers.halfway tool target).pocketOf other = layers.swapped tool target other := by
  have others {other : ToolId} (notTool : other ≠ tool)
      (notFirst : layers.counterpart? tool target ≠ some other) :
      layers.swapped tool target other = layers.pocketOf other := by
    cases met : layers.counterpart? tool target with
    | none => exact swapped_of_alone met notTool
    | some first =>
      have unlike : other ≠ first := fun same => notFirst (same ▸ met)
      rw [swapped_of_counterpart unshared met, if_neg notTool, if_neg unlike]
  by_cases follows : layers.FollowsRecord tool
  · refine .inr fun other => ?_
    rw [pocketOf_halfway]
    split
    · rfl
    rename_i overruled
    have notTool : other ≠ tool := fun same => overruled (same ▸ follows)
    have notFirst : layers.counterpart? tool target ≠ some other := fun met =>
      overruled ((together other met).mpr follows)
    exact (others notTool notFirst).symm
  · refine .inl fun other => ?_
    rw [pocketOf_halfway]
    split
    · rename_i moves
      have notTool : other ≠ tool := fun same => follows (same ▸ moves)
      have notFirst : layers.counterpart? tool target ≠ some other := fun met =>
        follows ((together other met).mp moves)
      exact others notTool notFirst
    · rfl

theorem settle_halfway_of_together
    (together : ∀ first, layers.counterpart? tool target = some first →
      (layers.FollowsRecord first ↔ layers.FollowsRecord tool)) (previous : Overrides) :
    settleAll previous capacity (layers.halfway tool target) = layers.halfway tool target := by
  refine settleAll_of_unshared ?_ previous
  intro a b place heldA heldB
  rcases pocketOf_halfway_of_together unshared together with before | after
  · rw [before] at heldA heldB
    exact unshared a b place heldA heldB
  · rw [after] at heldA heldB
    exact eq_of_swapped_of_swapped unshared heldA heldB

/-- What is seen of a move that stopped halfway, once what it left has been settled. -/
theorem pocketOf_settle_halfway (capacity : UInt32) (tool : ToolId) (target : Override) :
    let next := settleAll layers.session capacity (layers.halfway tool target)
    (∀ loser, layers.LeftOut tool target loser →
      ∀ other, next.pocketOf other = if other = loser then none else layers.pocketOf other) ∧
    ((¬ ∃ loser, layers.LeftOut tool target loser) →
      (∀ other, next.pocketOf other = layers.pocketOf other) ∨
      ∀ other, next.pocketOf other = layers.swapped tool target other) := by
  intro next
  constructor
  · rintro loser ⟨first, met, ⟨rfl, follows, overruled⟩ | ⟨rfl, follows, overruled, -⟩⟩
    · exact pocketOf_settle_of_counterpart unshared met follows overruled capacity
    · exact pocketOf_settle_of_tool unshared met follows overruled capacity
  · intro nobody
    -- A tool that had no pocket may come alone: it then has none again, and the move is undone.
    by_cases alone : ∃ first, layers.counterpart? tool target = some first ∧
        layers.FollowsRecord tool ∧ ¬ layers.FollowsRecord first
    · obtain ⟨first, met, follows, overruled⟩ := alone
      have empty : layers.pocketOf tool = none := by
        by_contra held
        exact nobody ⟨tool, first, met, .inr ⟨rfl, follows, overruled, held⟩⟩
      refine .inl fun other => ?_
      rw [pocketOf_settle_of_tool unshared met follows overruled capacity]
      split
      · rename_i same
        rw [same, empty]
      · rfl
    · have together (first : ToolId) (met : layers.counterpart? tool target = some first) :
          layers.FollowsRecord first ↔ layers.FollowsRecord tool := by
        constructor
        · intro follows
          by_contra overruled
          exact nobody ⟨first, first, met, .inl ⟨rfl, follows, overruled⟩⟩
        · intro follows
          by_contra overruled
          exact alone ⟨first, met, follows, overruled⟩
      have settled : next = layers.halfway tool target := settle_halfway_of_together unshared together _
      rw [settled]
      exact pocketOf_halfway_of_together unshared together

theorem LeftOut.neither (left : layers.LeftOut tool target loser) {next : ToolId → Option Pocket}
    (settled : ∀ other, next other = if other = loser then none else layers.pocketOf other) :
    (¬ ∀ other, next other = layers.pocketOf other) ∧
      ¬ ∀ other, next other = layers.swapped tool target other := by
  obtain ⟨first, met, cases⟩ := left
  obtain ⟨pocket, asked, sits, different⟩ := counterpart?_eq_some met
  have toolComes : layers.swapped tool target tool = some pocket := by
    rw [swapped_of_counterpart unshared met, if_pos rfl, asked]
  have lost : next loser = none := by rw [settled, if_pos rfl]
  constructor
  · intro undone
    have held := (undone loser).symm.trans lost
    rcases cases with ⟨rfl, -⟩ | ⟨rfl, -, -, had⟩
    · rw [sits] at held
      cases held
    · exact had held
  · intro done
    have came := (done tool).trans toolComes
    rw [settled] at came
    split at came
    · cases came
    · exact different (unshared _ _ pocket sits came)

end

end Layers
end ToolChanger
