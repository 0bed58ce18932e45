import ToolChanger.Remap.Layers

/-!
# Reconciling a session

Of the overrides that an operator hands back those for no tool and those outside the magazine are dropped; then
each pocket that two tools or more resolve to is settled, the lowest first (`settle`). That gives no tool a pocket
that another one holds, so in the end no pocket is contested (`contested_settleAll`).
-/

namespace ToolChanger

namespace Layers

def namedPockets (layers : Layers) : List Pocket :=
  Magazine.ascending <|
    layers.library.indexed.filterMap (·.pocket) ++
      layers.overrides.entries.filterMap (·.2.pocket?)

def placedIn (layers : Layers) (pocket : Pocket) : List ToolId :=
  let naming (overrides : Overrides) := overrides.filter fun _ decided => decided.pocket? = some pocket
  ((naming layers.persisted).overlay (naming layers.session)).ids

/-- The tools that resolve to a pocket: those on record for it, then those that an override puts there. -/
def claimants (layers : Layers) (pocket : Pocket) : List ToolId :=
  let recorded := layers.library.occupants pocket
  let others := (layers.placedIn pocket).filter fun tool => !recorded.contains tool
  (recorded ++ others).filter fun tool => layers.pocketOf tool = some pocket

def contested (layers : Layers) : List Pocket :=
  layers.namedPockets.filter fun pocket => 1 < (layers.claimants pocket).length

/-- How recent a tool's claim is, the most recent being zero: a session override that is new, one that
was there before, a stored override, the library's record. -/
def rank (layers : Layers) (previous : Overrides) (tool : ToolId) : Nat :=
  match layers.session.get? tool with
  | some decided => if previous.get? tool = some decided then 1 else 0
  | none => if layers.persisted.contains tool then 2 else 3

/-- Gives the first loser the winner's old pocket, if there is one to give; the others lose theirs. -/
def evictAll (layers : Layers) (handoff : Option Pocket) : List ToolId → Layers
  | [] => layers
  | first :: rest =>
    rest.foldl evict <|
      match handoff with
      | some old => layers.assign first (.inPocket old)
      | none => layers.evict first

/-- The pocket that the winner of a pocket held before, if it is another one, within the magazine, and
now free. -/
def handoff (layers : Layers) (previous : Overrides) (capacity : UInt32) (pocket : Pocket)
    (winner : ToolId) : Option Pocket :=
  ({ layers with session := previous }.pocketOf winner).filter fun old =>
    old ≠ pocket && Magazine.has capacity old && (layers.claimants old).isEmpty

/-- Leaves a pocket to the tool with the most recent claim, of several the first. -/
def settle (layers : Layers) (previous : Overrides) (capacity : UInt32) (pocket : Pocket) : Layers :=
  match (layers.claimants pocket).minOn? (layers.rank previous) with
  | none => layers
  | some winner =>
    layers.evictAll (layers.handoff previous capacity pocket winner)
      ((layers.claimants pocket).filter (· ≠ winner))

/-! ### Claimants and contested pockets -/

theorem mem_placedIn {layers : Layers} {pocket : Pocket} {tool : ToolId} {decided : Override}
    (inForce : layers.override? tool = some decided) (names : decided.pocket? = some pocket) :
    tool ∈ layers.placedIn pocket := by
  rw [placedIn, Table.mem_ids, Table.contains_iff]
  simp only [Table.get?_overlay, Table.get?_filter]
  rcases Option.or_eq_some_iff.mp inForce with session | ⟨-, persisted⟩
  · exact ⟨decided, by simp [session, names]⟩
  · rw [persisted]
    simp only [Option.filter_some, names, decide_true, if_true]
    cases (layers.session.get? tool).filter fun decided => decide (decided.pocket? = some pocket) with
    | none => exact ⟨decided, rfl⟩
    | some other => exact ⟨other, rfl⟩

theorem mem_claimants {layers : Layers} {pocket : Pocket} {tool : ToolId} :
    tool ∈ layers.claimants pocket ↔ layers.pocketOf tool = some pocket := by
  simp only [claimants, List.mem_filter, List.mem_append, decide_eq_true_eq, and_iff_right_iff_imp]
  intro held
  by_cases recorded : tool ∈ layers.library.occupants pocket
  · exact .inl recorded
  · refine .inr ⟨?_, by simpa using recorded⟩
    rw [pocketOf] at held
    cases found : layers.override? tool with
    | none =>
      rw [found] at held
      exact absurd (Library.mem_occupants_iff.mpr held) recorded
    | some decided =>
      rw [found] at held
      exact mem_placedIn found held

theorem nodup_claimants (layers : Layers) (pocket : Pocket) : (layers.claimants pocket).Nodup := by
  refine List.Pairwise.filter _ (List.nodup_append.mpr ⟨Library.nodup_occupants _ _,
    List.Pairwise.filter _ (Table.nodup_ids _), ?_⟩)
  rintro tool recorded other decided rfl
  simp [recorded] at decided

theorem mem_namedPockets {layers : Layers} {pocket : Pocket} {tool : ToolId}
    (held : layers.pocketOf tool = some pocket) : pocket ∈ layers.namedPockets := by
  rw [namedPockets, Magazine.mem_ascending, List.mem_append, List.mem_filterMap, List.mem_filterMap]
  rw [pocketOf] at held
  cases found : layers.override? tool with
  | some decided =>
    rw [found] at held
    have inForce := (layers.get?_overrides tool).trans found
    exact .inr ⟨(tool, decided), Table.get?_eq_some_iff.mp inForce, held⟩
  | none =>
    rw [found] at held
    obtain ⟨record, known, pocketed⟩ := Option.bind_eq_some_iff.mp held
    exact .inl ⟨record, Library.mem_indexed_of_get? known, pocketed⟩

theorem one_lt_length_iff {tools : List ToolId} (nodup : tools.Nodup) :
    1 < tools.length ↔ ∃ a b, a ≠ b ∧ a ∈ tools ∧ b ∈ tools := by
  match tools with
  | [] => simp
  | [a] =>
    simp only [List.length_singleton, Nat.lt_irrefl, List.mem_singleton, false_iff]
    rintro ⟨x, y, different, rfl, rfl⟩
    exact different rfl
  | a :: b :: rest =>
    simp only [List.length_cons, Nat.lt_add_left_iff_pos, Nat.zero_lt_succ, true_iff]
    refine ⟨a, b, fun same => ?_, by simp, by simp⟩
    simp [same] at nodup

theorem mem_contested {layers : Layers} {pocket : Pocket} :
    pocket ∈ layers.contested ↔
      ∃ a b, a ≠ b ∧ layers.pocketOf a = some pocket ∧ layers.pocketOf b = some pocket := by
  rw [contested, List.mem_filter, decide_eq_true_eq, one_lt_length_iff (nodup_claimants _ _)]
  simp only [mem_claimants]
  constructor
  · exact fun claimed => claimed.2
  · rintro ⟨a, b, different, first, second⟩
    exact ⟨mem_namedPockets first, a, b, different, first, second⟩

theorem mem_contested_iff_length {layers : Layers} {pocket : Pocket} :
    pocket ∈ layers.contested ↔ 1 < (layers.claimants pocket).length := by
  rw [mem_contested, one_lt_length_iff (nodup_claimants _ _)]
  simp only [mem_claimants]

theorem sorted_contested (layers : Layers) : layers.contested.Pairwise (· < ·) :=
  List.Pairwise.filter _ (Magazine.sorted_ascending _)

theorem nodup_contested (layers : Layers) : layers.contested.Nodup :=
  (sorted_contested layers).imp UInt32.ne_of_lt

/-! ### Settling -/

theorem pocketOf_foldl_evict (tools : List ToolId) (layers : Layers) (tool : ToolId) :
    (tools.foldl evict layers).pocketOf tool = if tool ∈ tools then none else layers.pocketOf tool := by
  induction tools generalizing layers with
  | nil => simp
  | cons first rest ih =>
    rw [List.foldl_cons, ih, pocketOf_evict]
    by_cases later : tool ∈ rest
    · simp [later]
    · simp [later]

theorem pocketOf_evictAll (layers : Layers) (handoff : Option Pocket) (first : ToolId)
    (rest : List ToolId) (tool : ToolId) (nodup : (first :: rest).Nodup) :
    (layers.evictAll handoff (first :: rest)).pocketOf tool =
      if tool = first then handoff else if tool ∈ rest then none else layers.pocketOf tool := by
  have absent : first ∉ rest := (List.nodup_cons.mp nodup).1
  unfold evictAll
  rw [pocketOf_foldl_evict]
  by_cases isFirst : tool = first
  · subst isFirst
    cases handoff <;> simp [absent, pocketOf_assign, pocketOf_evict, Override.pocket?]
  · cases handoff <;> simp [isFirst, pocketOf_assign, pocketOf_evict]

/-- After settling a pocket a tool has what it had, or none, or it is the first loser and has a pocket
that was free. -/
theorem pocketOf_settle {layers : Layers} (previous : Overrides) (capacity : UInt32)
    {pocket : Pocket} (taken : pocket ∈ layers.contested) :
    ∃ winner first, winner ≠ first ∧
      (∀ tool other, (layers.settle previous capacity pocket).pocketOf tool = some other →
        (layers.pocketOf tool = some other ∧ (other = pocket → tool = winner)) ∨
        (tool = first ∧ other ≠ pocket ∧ ∀ x, layers.pocketOf x ≠ some other)) := by
  have crowd : 1 < (layers.claimants pocket).length := mem_contested_iff_length.mp taken
  rw [settle]
  cases least : (layers.claimants pocket).minOn? (layers.rank previous) with
  | none =>
    cases listed : layers.claimants pocket with
    | nil => simp [listed] at crowd
    | cons head rest => rw [listed] at least; simp [List.minOn?] at least
  | some winner =>
    have losing : ∃ first rest, (layers.claimants pocket).filter (· ≠ winner) = first :: rest := by
      obtain ⟨a, b, different, inA, inB⟩ := (one_lt_length_iff (nodup_claimants _ _)).mp crowd
      have someLoser : ∃ x, x ∈ (layers.claimants pocket).filter (· ≠ winner) := by
        by_cases same : a = winner
        · exact ⟨b, List.mem_filter.mpr ⟨inB, by simpa using fun h => different (same.trans h.symm)⟩⟩
        · exact ⟨a, List.mem_filter.mpr ⟨inA, by simpa using same⟩⟩
      cases losers : (layers.claimants pocket).filter (· ≠ winner) with
      | nil =>
        rw [losers] at someLoser
        simp at someLoser
      | cons first rest => exact ⟨first, rest, rfl⟩
    obtain ⟨first, rest, losers⟩ := losing
    have nodup : (first :: rest).Nodup := losers ▸ List.Pairwise.filter _ (nodup_claimants _ _)
    have firstLoses : first ≠ winner := by
      have member : first ∈ (layers.claimants pocket).filter (· ≠ winner) :=
        losers ▸ List.mem_cons_self
      simpa using (List.mem_filter.mp member).2
    refine ⟨winner, first, firstLoses.symm, fun tool other held => ?_⟩
    simp only [losers] at held
    rw [pocketOf_evictAll _ _ _ _ _ nodup] at held
    split at held
    · rename_i isFirst
      have given := (Option.filter_eq_some_iff.mp held).2
      simp only [Bool.and_eq_true, List.isEmpty_iff, ne_eq, decide_not,
        Bool.not_eq_eq_eq_not, Bool.not_true, decide_eq_false_iff_not] at given
      refine .inr ⟨isFirst, given.1.1, fun x claims => ?_⟩
      have member := mem_claimants.mpr claims
      rw [given.2] at member
      exact absurd member List.not_mem_nil
    · split at held
      · simp at held
      · rename_i notFirst notRest
        refine .inl ⟨held, fun same => ?_⟩
        subst same
        have member := mem_claimants.mpr held
        by_cases isWinner : tool = winner
        · exact isWinner
        · have loses : tool ∈ (layers.claimants other).filter (· ≠ winner) :=
            List.mem_filter.mpr ⟨member, by simpa using isWinner⟩
          rw [losers] at loses
          rcases List.mem_cons.mp loses with same | later
          · exact absurd same notFirst
          · exact absurd later notRest

theorem settle_of_not_contested {layers : Layers} (previous : Overrides) (capacity : UInt32)
    {pocket : Pocket} (clear : pocket ∉ layers.contested) :
    layers.settle previous capacity pocket = layers := by
  rw [mem_contested_iff_length] at clear
  rw [settle]
  match listed : layers.claimants pocket with
  | [] => simp [List.minOn?]
  | [only] => simp [List.minOn?, evictAll]
  | _ :: _ :: _ => simp [listed] at clear

theorem contested_settle {layers : Layers} {previous : Overrides} {capacity : UInt32}
    {pocket other : Pocket}
    (still : other ∈ (layers.settle previous capacity pocket).contested) :
    other ≠ pocket ∧ other ∈ layers.contested := by
  by_cases taken : pocket ∈ layers.contested
  · obtain ⟨winner, first, -, outcome⟩ := pocketOf_settle previous capacity taken
    obtain ⟨a, b, different, heldA, heldB⟩ := mem_contested.mp still
    rcases outcome a other heldA with ⟨keptA, winsA⟩ | ⟨isFirstA, -, freeA⟩
    · rcases outcome b other heldB with ⟨keptB, winsB⟩ | ⟨isFirstB, -, freeB⟩
      · refine ⟨fun same => different ((winsA same).trans (winsB same).symm), ?_⟩
        exact mem_contested.mpr ⟨a, b, different, keptA, keptB⟩
      · exact absurd keptA (freeB a)
    · rcases outcome b other heldB with ⟨keptB, -⟩ | ⟨isFirstB, -, -⟩
      · exact absurd keptB (freeA b)
      · exact absurd (isFirstA.trans isFirstB.symm) different
  · rw [settle_of_not_contested previous capacity taken] at still
    exact ⟨fun same => taken (same ▸ still), still⟩

theorem length_contested_settle_lt {layers : Layers} (previous : Overrides) (capacity : UInt32)
    {pocket : Pocket} (taken : pocket ∈ layers.contested) :
    (layers.settle previous capacity pocket).contested.length < layers.contested.length := by
  have absent : pocket ∉ (layers.settle previous capacity pocket).contested := fun still =>
    (contested_settle still).1 rfl
  have nodup : (pocket :: (layers.settle previous capacity pocket).contested).Nodup :=
    List.nodup_cons.mpr ⟨absent, nodup_contested _⟩
  have subset : pocket :: (layers.settle previous capacity pocket).contested ⊆ layers.contested := by
    intro other member
    rcases List.mem_cons.mp member with rfl | still
    · exact taken
    · exact (contested_settle still).2
  exact nodup.length_le_of_subset subset

/-! ### The whole session -/

def settleEach (previous : Overrides) (capacity : UInt32) (layers : Layers) (pockets : List Pocket) :
    Layers :=
  pockets.foldl (fun layers pocket => layers.settle previous capacity pocket) layers

def settleAll (previous : Overrides) (capacity : UInt32) (layers : Layers) : Layers :=
  settleEach previous capacity layers layers.namedPockets

theorem contested_settleEach {previous : Overrides} {capacity : UInt32} {layers : Layers}
    {pockets : List Pocket} {other : Pocket}
    (still : other ∈ (settleEach previous capacity layers pockets).contested) :
    other ∉ pockets ∧ other ∈ layers.contested := by
  induction pockets generalizing layers with
  | nil => exact ⟨List.not_mem_nil, still⟩
  | cons pocket rest ih =>
    obtain ⟨unsettled, left⟩ := ih still
    obtain ⟨different, before⟩ := contested_settle left
    exact ⟨List.not_mem_cons_of_ne_of_not_mem different unsettled, before⟩

theorem contested_subset_namedPockets (layers : Layers) : layers.contested ⊆ layers.namedPockets :=
  fun _ member => (List.mem_filter.mp member).1

theorem sorted_namedPockets (layers : Layers) : layers.namedPockets.Pairwise (· < ·) :=
  Magazine.sorted_ascending _

theorem contested_settleAll (previous : Overrides) (capacity : UInt32) (layers : Layers) :
    (settleAll previous capacity layers).contested = [] :=
  List.eq_nil_iff_forall_not_mem.mpr fun _ still =>
    (contested_settleEach still).1 (contested_subset_namedPockets layers (contested_settleEach still).2)

theorem settleEach_of_contested (previous : Overrides) (capacity : UInt32) {layers : Layers}
    {lowest : Pocket} {others pockets : List Pocket} (disputes : layers.contested = lowest :: others)
    (sorted : pockets.Pairwise (· < ·)) (complete : layers.contested ⊆ pockets) :
    ∃ later : List Pocket, later.Pairwise (· < ·) ∧
      (layers.settle previous capacity lowest).contested ⊆ later ∧
      settleEach previous capacity layers pockets =
        settleEach previous capacity (layers.settle previous capacity lowest) later := by
  induction pockets with
  | nil => simp [disputes] at complete
  | cons pocket rest ih =>
    obtain ⟨above, tail⟩ := List.pairwise_cons.mp sorted
    by_cases taken : pocket ∈ layers.contested
    · have isLowest : pocket = lowest := by
        have ordered := List.pairwise_cons.mp (disputes ▸ sorted_contested layers)
        rcases List.mem_cons.mp (disputes ▸ taken) with same | later
        · exact same
        · have listed : lowest ∈ pocket :: rest := complete (by simp [disputes])
          rcases List.mem_cons.mp listed with same | behind
          · exact same.symm
          · exact absurd (UInt32.lt_trans (above _ behind) (ordered.1 _ later)) (UInt32.lt_irrefl _)
      subst isLowest
      refine ⟨rest, tail, fun other still => ?_, rfl⟩
      obtain ⟨different, before⟩ := contested_settle still
      exact (List.mem_cons.mp (complete before)).resolve_left different
    · have shorter : layers.contested ⊆ rest := fun other member =>
        (List.mem_cons.mp (complete member)).resolve_left fun same => taken (same ▸ member)
      have skipped : settleEach previous capacity layers (pocket :: rest) =
          settleEach previous capacity layers rest := by
        rw [settleEach, List.foldl_cons, settle_of_not_contested previous capacity taken, settleEach]
      rw [skipped]
      exact ih tail shorter

/-- Two passes over ascending pockets that leave out no contested one come to the same. -/
theorem settleEach_eq_settleEach (previous : Overrides) (capacity : UInt32) (layers : Layers)
    {pockets pockets' : List Pocket}
    (sorted : pockets.Pairwise (· < ·)) (complete : layers.contested ⊆ pockets)
    (sorted' : pockets'.Pairwise (· < ·)) (complete' : layers.contested ⊆ pockets') :
    settleEach previous capacity layers pockets = settleEach previous capacity layers pockets' := by
  match disputes : layers.contested with
  | [] =>
    have unchanged (pockets : List Pocket) : settleEach previous capacity layers pockets = layers := by
      induction pockets with
      | nil => rfl
      | cons pocket rest ih =>
        rw [settleEach, List.foldl_cons,
          settle_of_not_contested previous capacity (disputes ▸ List.not_mem_nil)]
        exact ih
    rw [unchanged, unchanged]
  | lowest :: others =>
    obtain ⟨later, laterSorted, laterComplete, equal⟩ :=
      settleEach_of_contested previous capacity disputes sorted complete
    obtain ⟨later', laterSorted', laterComplete', equal'⟩ :=
      settleEach_of_contested previous capacity disputes sorted' complete'
    rw [equal, equal']
    have : (layers.settle previous capacity lowest).contested.length < layers.contested.length :=
      length_contested_settle_lt previous capacity (disputes ▸ List.mem_cons_self)
    exact settleEach_eq_settleEach previous capacity _ laterSorted laterComplete laterSorted'
      laterComplete'
termination_by layers.contested.length

/-- One pass is the same as settling the lowest contested pocket and starting over. -/
theorem settleAll_of_contested (previous : Overrides) (capacity : UInt32) {layers : Layers}
    {lowest : Pocket} {others : List Pocket} (disputes : layers.contested = lowest :: others) :
    settleAll previous capacity layers =
      settleAll previous capacity (layers.settle previous capacity lowest) := by
  obtain ⟨later, sorted, complete, equal⟩ := settleEach_of_contested previous capacity disputes
    (sorted_namedPockets layers) (contested_subset_namedPockets layers)
  rw [settleAll, equal]
  exact settleEach_eq_settleEach previous capacity _ sorted complete (sorted_namedPockets _)
    (contested_subset_namedPockets _)

theorem settleAll_of_contested_eq_nil (previous : Overrides) (capacity : UInt32) {layers : Layers}
    (clear : layers.contested = []) : settleAll previous capacity layers = layers :=
  settleEach_eq_settleEach previous capacity layers (sorted_namedPockets _)
    (contested_subset_namedPockets layers) .nil (by simp [clear])

end Layers

def Override.isAdmissible (capacity : UInt32) (tool : ToolId) (decided : Override) : Bool :=
  tool ≠ 0 && decided.pocket?.all (Magazine.has capacity)

/-- The overrides handed back for a session, reconciled with each other and with the layers below.
`previous` are the session's overrides so far. -/
def reconcile (incoming previous : Overrides) (library : Library) (persisted : Overrides)
    (capacity : UInt32) : Overrides :=
  (Layers.settleAll previous capacity
    ⟨library, persisted, incoming.filter (Override.isAdmissible capacity)⟩).session

end ToolChanger
