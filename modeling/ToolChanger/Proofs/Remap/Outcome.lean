import ToolChanger.Proofs.Remap.Precedence
import ToolChanger.Proofs.Remap.Settling

/-!
# The outcome of reconciling

Settling a pocket decides on its losers only, who claim no other pocket, and hands over only what nobody claims. So
neither the claims on a later pocket nor their ranks change before it is settled (`Underway`).
-/

namespace ToolChanger
namespace Layers

variable {start now : Layers} {previous : Overrides} {capacity : UInt32} {tool other winner : ToolId}
  {pocket place old : Pocket} {done : List Pocket}

/-- Nobody claims a pocket when another one is settled: nobody did in the beginning, and no loser of a lower
pocket has been given it. -/
def Unclaimed (start settled : Layers) (previous : Overrides) (pocket old : Pocket) : Prop :=
  (∀ tool, start.pocketOf tool ≠ some old) ∧
    ∀ lower tool, lower < pocket → start.LosesFirst previous lower tool → settled.pocketOf tool ≠ some old

/-- What the winner of a pocket had before, if it can be handed over. -/
def Offered (start settled : Layers) (previous : Overrides) (capacity : UInt32) (pocket : Pocket)
    (winner : ToolId) (old : Pocket) : Prop :=
  ({ start with session := previous } : Layers).pocketOf winner = some old ∧ old ≠ pocket ∧
    Magazine.has capacity old = true ∧ start.Unclaimed settled previous pocket old

/-- Some pockets are settled: their losers have what they are to have, and nothing else is decided. -/
structure Underway (start : Layers) (previous : Overrides) (capacity : UInt32) (done : List Pocket)
    (now : Layers) : Prop where
  library : now.library = start.library
  persisted : now.persisted = start.persisted
  stands : ∀ tool, (∀ pocket ∈ done, ¬ start.Loses previous pocket tool) →
    now.session.get? tool = start.session.get? tool
  yields : ∀ pocket ∈ done, ∀ winner tool, start.Wins previous pocket winner →
    start.Loses previous pocket tool → ∀ old, now.pocketOf tool = some old ↔
      start.LosesFirst previous pocket tool ∧ start.Offered now previous capacity pocket winner old

theorem not_loses_of_claims (claims : start.pocketOf tool = some pocket) (unsettled : pocket ∉ done) :
    ∀ settled ∈ done, ¬ start.Loses previous settled tool := by
  intro settled member loses
  obtain rfl := Option.some.inj (claims.symm.trans loses.1)
  exact unsettled member

theorem Wins.not_loses_any (wins : start.Wins previous pocket winner) :
    ∀ settled ∈ done, ¬ start.Loses previous settled winner := by
  intro settled _ loses
  obtain rfl := Option.some.inj (wins.claims.symm.trans loses.1)
  exact loses.2 wins

namespace Underway

theorem refl (start : Layers) (previous : Overrides) (capacity : UInt32) :
    Underway start previous capacity [] start where
  library := rfl
  persisted := rfl
  stands := fun _ _ => rfl
  yields := fun _ member => nomatch member

variable (underway : Underway start previous capacity done now)
include underway

theorem pocketOf_of_stands (stands : ∀ pocket ∈ done, ¬ start.Loses previous pocket tool) :
    now.pocketOf tool = start.pocketOf tool :=
  pocketOf_congr underway.library underway.persisted (underway.stands tool stands)

theorem exists_claims (claims : start.pocketOf tool = some pocket) :
    ∃ holder, now.pocketOf holder = some pocket := by
  obtain ⟨winner, wins⟩ := exists_wins previous claims
  exact ⟨winner, (underway.pocketOf_of_stands (wins.not_loses_any)).trans wins.claims⟩

theorem origin (held : now.pocketOf tool = some place) : start.pocketOf tool = some place ∨
    ∃ pocket ∈ done, start.LosesFirst previous pocket tool ∧
      start.Unclaimed now previous pocket place := by
  by_cases stands : ∀ pocket ∈ done, ¬ start.Loses previous pocket tool
  · exact .inl ((underway.pocketOf_of_stands stands).symm.trans held)
  · obtain ⟨pocket, member, loses⟩ : ∃ pocket ∈ done, start.Loses previous pocket tool := by
      simpa using stands
    obtain ⟨winner, wins⟩ := exists_wins previous loses.1
    obtain ⟨first, offered⟩ := (underway.yields pocket member winner tool wins loses place).mp held
    exact .inr ⟨pocket, member, first, offered.2.2.2⟩

theorem claims_iff (claimed : ∃ holder, start.pocketOf holder = some pocket) (unsettled : pocket ∉ done)
    (tool : ToolId) : now.pocketOf tool = some pocket ↔ start.pocketOf tool = some pocket := by
  constructor
  · intro held
    rcases underway.origin held with claims | ⟨_, _, _, free, _⟩
    · exact claims
    · obtain ⟨holder, claims⟩ := claimed
      exact absurd claims (free holder)
  · intro claims
    rw [underway.pocketOf_of_stands (not_loses_of_claims claims unsettled), claims]

theorem wins_iff (claimed : ∃ holder, start.pocketOf holder = some pocket) (unsettled : pocket ∉ done)
    (tool : ToolId) : now.Wins previous pocket tool ↔ start.Wins previous pocket tool :=
  wins_congr underway.library (underway.claims_iff claimed unsettled)
    (fun _ claims => rank_congr underway.persisted
      (underway.stands _ (not_loses_of_claims claims unsettled))) tool

theorem claimed_of_loses (loses : now.Loses previous pocket tool) :
    ∃ holder, start.pocketOf holder = some pocket := by
  by_contra unclaimed
  obtain ⟨winner, wins⟩ := exists_wins previous loses.1
  have given {tool : ToolId} (held : now.pocketOf tool = some pocket) :=
    (underway.origin held).resolve_left fun claims => unclaimed ⟨tool, claims⟩
  obtain ⟨low, -, firstLow, -, laterLow⟩ := given loses.1
  obtain ⟨high, -, firstHigh, -, laterHigh⟩ := given wins.claims
  by_cases same : low = high
  · subst same
    exact loses.2 (firstLow.unique firstHigh ▸ wins)
  · rcases UInt32.lt_or_lt_of_ne same with less | more
    · exact laterHigh low tool less firstLow loses.1
    · exact laterLow high winner more firstHigh wins.claims

theorem loses_iff (unsettled : pocket ∉ done) (tool : ToolId) :
    now.Loses previous pocket tool ↔ start.Loses previous pocket tool := by
  constructor
  · intro loses
    have claimed := underway.claimed_of_loses loses
    exact ⟨(underway.claims_iff claimed unsettled tool).mp loses.1,
      fun wins => loses.2 ((underway.wins_iff claimed unsettled tool).mpr wins)⟩
  · intro loses
    have claimed : ∃ holder, start.pocketOf holder = some pocket := ⟨tool, loses.1⟩
    exact ⟨(underway.claims_iff claimed unsettled tool).mpr loses.1,
      fun wins => loses.2 ((underway.wins_iff claimed unsettled tool).mp wins)⟩

theorem losesFirst_iff (unsettled : pocket ∉ done) (tool : ToolId) :
    now.LosesFirst previous pocket tool ↔ start.LosesFirst previous pocket tool := by
  have precedes (a b : ToolId) : now.Precedes pocket a b ↔ start.Precedes pocket a b := by
    rw [Precedes, Precedes, underway.library]
  have loses := underway.loses_iff unsettled
  constructor
  · intro heard
    refine ⟨(loses tool).mp heard.loses, fun other rival different => ?_⟩
    exact (precedes tool other).mp (heard.first other ((loses other).mpr rival) different)
  · intro heard
    refine ⟨(loses tool).mpr heard.loses, fun other rival different => ?_⟩
    exact (precedes tool other).mpr (heard.first other ((loses other).mp rival) different)

theorem unclaimed_iff (next : ∀ lower tool, start.Loses previous lower tool → (lower ∈ done ↔ lower < pocket)) :
    (∀ tool, now.pocketOf tool ≠ some old) ↔ start.Unclaimed now previous pocket old := by
  constructor
  · intro free
    refine ⟨fun tool claims => ?_, fun _ tool _ _ => free tool⟩
    obtain ⟨holder, held⟩ := underway.exists_claims claims
    exact free holder held
  · rintro ⟨unclaimed, ungiven⟩ tool held
    rcases underway.origin held with claims | ⟨lower, member, first, -⟩
    · exact unclaimed tool claims
    · exact ungiven lower tool ((next lower tool first.loses).mp member) first held

/-! ### One pocket after the other -/

theorem settle (above : ∀ settled ∈ done, settled < pocket)
    (next : ∀ other tool, start.Loses previous other tool → other ∈ done ∨ pocket ≤ other) :
    Underway start previous capacity (done ++ [pocket]) (now.settle previous capacity pocket) := by
  have unsettled : pocket ∉ done := fun member => UInt32.lt_irrefl _ (above pocket member)
  have stays {tool : ToolId} (keeps : ¬ start.Loses previous pocket tool) :
      (now.settle previous capacity pocket).session.get? tool = now.session.get? tool :=
    session_settle fun loses => keeps ((underway.loses_iff unsettled tool).mp loses)
  have library := (library_settle previous capacity now pocket).trans underway.library
  have persisted := (persisted_settle previous capacity now pocket).trans underway.persisted
  have rests {tool : ToolId} (keeps : ¬ start.Loses previous pocket tool) :
      (now.settle previous capacity pocket).pocketOf tool = now.pocketOf tool :=
    pocketOf_congr (library_settle previous capacity now pocket)
      (persisted_settle previous capacity now pocket) (stays keeps)
  -- The losers of lower pockets are no losers of this one, so what they were given stays.
  have settledLower {settled : Pocket} (below : settled < pocket) {loser : ToolId}
      (loses : start.Loses previous settled loser) : ¬ start.Loses previous pocket loser := by
    intro again
    obtain rfl := Option.some.inj (loses.1.symm.trans again.1)
    exact UInt32.lt_irrefl _ below
  have unclaimed {settled : Pocket} (most : settled ≤ pocket) (old : Pocket) :
      start.Unclaimed (now.settle previous capacity pocket) previous settled old ↔
        start.Unclaimed now previous settled old := by
    refine and_congr Iff.rfl (forall_congr' fun lower => forall_congr' fun tool =>
      imp_congr_right fun less => imp_congr_right fun first => ?_)
    rw [rests (settledLower (UInt32.lt_of_lt_of_le less most) first.loses)]
  refine ⟨library, persisted, fun tool stands => ?_,
    fun place member winner tool wins loses old => ?_⟩
  · rw [stays (stands pocket (List.mem_append_right _ (List.mem_singleton_self _)))]
    exact underway.stands tool fun settled member => stands settled (List.mem_append_left _ member)
  · rcases List.mem_append.mp member with earlier | last
    · have below := above place earlier
      rw [rests (settledLower below loses), underway.yields place earlier winner tool wins loses old,
        Offered, Offered, unclaimed (UInt32.le_of_lt below)]
    · obtain rfl := List.mem_singleton.mp last
      have claimed : ∃ holder, start.pocketOf holder = some place := ⟨winner, wins.claims⟩
      have lower (other : Pocket) (tool : ToolId) (loses : start.Loses previous other tool) :
          other ∈ done ↔ other < place :=
        ⟨above other, fun less => (next other tool loses).resolve_right (UInt32.not_le.mpr less)⟩
      rw [pocketOf_settle_of_loses ((underway.wins_iff claimed unsettled winner).mpr wins)
        ((underway.loses_iff unsettled tool).mpr loses), handoff_eq_some_iff,
        underway.losesFirst_iff unsettled, underway.unclaimed_iff lower, Offered,
        unclaimed (UInt32.le_refl _)]
      have before : ({ now with session := previous } : Layers).pocketOf winner =
          ({ start with session := previous } : Layers).pocketOf winner :=
        pocketOf_congr underway.library underway.persisted rfl
      rw [before]

theorem settleEach {rest : List Pocket} (sorted : (done ++ rest).Pairwise (· < ·))
    (complete : ∀ pocket tool, start.Loses previous pocket tool → pocket ∈ done ++ rest) :
    Underway start previous capacity (done ++ rest) (Layers.settleEach previous capacity now rest) := by
  induction rest generalizing done now with
  | nil =>
    rw [List.append_nil]
    exact underway
  | cons pocket rest ih =>
    have ordered := List.pairwise_append.mp sorted
    have above := (List.pairwise_cons.mp ordered.2.1).1
    have next (other : Pocket) (tool : ToolId) (loses : start.Loses previous other tool) :
        other ∈ done ∨ pocket ≤ other := by
      rcases List.mem_append.mp (complete other tool loses) with earlier | later
      · exact .inl earlier
      · rcases List.mem_cons.mp later with same | behind
        · exact .inr (UInt32.le_of_eq same.symm)
        · exact .inr (UInt32.le_of_lt (above other behind))
    have settled := underway.settle
      (fun settled member => ordered.2.2 settled member pocket List.mem_cons_self) next
    rw [List.append_cons] at sorted complete ⊢
    exact ih settled sorted complete

end Underway

theorem underway_settleAll (previous : Overrides) (capacity : UInt32) (layers : Layers) :
    Underway layers previous capacity layers.namedPockets (settleAll previous capacity layers) :=
  (Underway.refl layers previous capacity).settleEach (sorted_namedPockets layers)
    fun _ _ loses => mem_namedPockets loses.1

/-! ### The outcome -/

theorem pocketOf_settleAll_of_wins (wins : start.Wins previous pocket winner) (tool : ToolId) :
    (settleAll previous capacity start).pocketOf tool = some pocket ↔ tool = winner := by
  have underway := underway_settleAll previous capacity start
  constructor
  · intro held
    by_contra different
    rcases underway.origin held with claims | ⟨_, _, _, free, _⟩
    · have loses : start.Loses previous pocket tool := ⟨claims, fun alike => different (wins.unique alike)⟩
      obtain ⟨-, -, apart, -⟩ :=
        (underway.yields pocket (mem_namedPockets claims) winner tool wins loses pocket).mp held
      exact apart rfl
    · exact free winner wins.claims
  · rintro rfl
    exact (underway.pocketOf_of_stands wins.not_loses_any).trans wins.claims

theorem session_settleAll_of_stands (stands : ∀ pocket, ¬ start.Loses previous pocket tool) :
    (settleAll previous capacity start).session.get? tool = start.session.get? tool :=
  (underway_settleAll previous capacity start).stands tool fun pocket _ => stands pocket

theorem pocketOf_settleAll_of_loses (wins : start.Wins previous pocket winner)
    (loses : start.Loses previous pocket tool) :
    (settleAll previous capacity start).pocketOf tool = some old ↔
      start.LosesFirst previous pocket tool ∧
        start.Offered (settleAll previous capacity start) previous capacity pocket winner old :=
  (underway_settleAll previous capacity start).yields pocket (mem_namedPockets loses.1) winner tool wins
    loses old

/-! ### An entry that is dropped -/

/-- The layers are settled ones where the session lost its entry for one tool. -/
structure Without (dropped : ToolId) (settled now : Layers) : Prop where
  library : now.library = settled.library
  persisted : now.persisted = settled.persisted
  gone : now.session.get? dropped = none
  others : ∀ other, other ≠ dropped → now.session.get? other = settled.session.get? other

section

variable {dropped : ToolId} (without : Without dropped (settleAll previous capacity start) now)
include without

theorem Without.pocketOf_of_ne (different : other ≠ dropped) :
    now.pocketOf other = (settleAll previous capacity start).pocketOf other :=
  pocketOf_congr without.library without.persisted (without.others other different)

/-- The claim of the winner is as high as it was, or higher now that it is not new. -/
theorem Without.outranks (wins : start.Wins previous pocket winner)
    (loses : start.Loses previous pocket dropped) (absent : start.session.get? dropped = none) :
    let earlier := (settleAll previous capacity start).session
    now.rank earlier winner < now.rank earlier dropped ∨
      now.rank earlier winner = now.rank earlier dropped ∧ now.Precedes pocket winner dropped := by
  intro earlier
  have different : winner ≠ dropped := fun same => loses.2 (same ▸ wins)
  have persisted : now.persisted = start.persisted := by rw [without.persisted, settleAll_eq]
  have stands : earlier.get? winner = start.session.get? winner :=
    session_settleAll_of_stands (wins.not_loses_any · (List.mem_singleton_self _))
  have kept : now.session.get? winner = earlier.get? winner := without.others winner different
  have level : now.rank earlier dropped = start.rank previous dropped := by
    rw [rank, rank, without.gone, absent, persisted]
  have order : now.Precedes pocket winner dropped ↔ start.Precedes pocket winner dropped := by
    rw [Precedes, Precedes, without.library, settleAll_eq]
  rw [order, level]
  cases inSession : start.session.get? winner with
  | none =>
    have same : now.rank earlier winner = start.rank previous winner := by
      rw [rank, rank, kept, stands, inSession, persisted]
    rw [same]
    exact wins.highest dropped loses.1 different.symm
  | some decided =>
    have old : now.rank earlier winner = 1 := by
      rw [rank, kept, stands, inSession]
      simp
    have low : 1 < start.rank previous dropped := by
      rw [rank, absent]
      simp only
      split <;> omega
    exact .inl (old ▸ low)

/-- Without the decision on its loser a pocket that was lost is claimed again, and lost again. -/
theorem Wins.again (wins : start.Wins previous pocket winner) (loses : start.Loses previous pocket dropped)
    (absent : start.session.get? dropped = none) :
    let earlier := (settleAll previous capacity start).session
    now.Wins earlier pocket winner ∧ now.Loses earlier pocket dropped := by
  intro earlier
  have different : winner ≠ dropped := fun same => loses.2 (same ▸ wins)
  have library : now.library = start.library := by rw [without.library, settleAll_eq]
  have persisted : now.persisted = start.persisted := by rw [without.persisted, settleAll_eq]
  have claims : now.pocketOf dropped = some pocket :=
    (pocketOf_congr library persisted (without.gone.trans absent.symm)).trans loses.1
  have again : now.Wins earlier pocket winner := by
    refine ⟨?_, fun other held unlike => ?_⟩
    · rw [without.pocketOf_of_ne different, pocketOf_settleAll_of_wins wins]
    · have isDropped : other = dropped := by
        by_contra apart
        rw [without.pocketOf_of_ne apart] at held
        exact unlike ((pocketOf_settleAll_of_wins wins other).mp held)
      exact isDropped ▸ without.outranks wins loses absent
  exact ⟨again, claims, fun alike => different (alike.unique again)⟩

theorem Without.not_loses (losesAgain : now.Loses (settleAll previous capacity start).session pocket dropped)
    (different : other ≠ dropped) (place : Pocket) :
    ¬ now.Loses (settleAll previous capacity start).session place other := by
  rintro ⟨claims, beaten⟩
  obtain ⟨holder, holds⟩ := exists_wins (settleAll previous capacity start).session claims
  have notDropped : holder ≠ dropped := by
    rintro rfl
    obtain rfl := Option.some.inj (holds.claims.symm.trans losesAgain.1)
    exact losesAgain.2 holds
  have held := without.pocketOf_of_ne different ▸ claims
  have kept := without.pocketOf_of_ne notDropped ▸ holds.claims
  exact beaten (oneToolPerPocket_settleAll previous capacity start _ _ _ held kept ▸ holds)

/-- Where settling had to decide on a tool, settling again without that decision leaves the tool without a
pocket and all others where they are. -/
theorem Without.pocketOf_settleAll (absent : start.session.get? dropped = none)
    (decided : (settleAll previous capacity start).session.get? dropped ≠ none) (other : ToolId) :
    (settleAll (settleAll previous capacity start).session capacity now).pocketOf other =
      if other = dropped then none else (settleAll previous capacity start).pocketOf other := by
  obtain ⟨pocket, loses⟩ : ∃ pocket, start.Loses previous pocket dropped := by
    by_contra stands
    rw [not_exists] at stands
    exact decided ((session_settleAll_of_stands stands).trans absent)
  obtain ⟨winner, wins⟩ := exists_wins previous loses.1
  obtain ⟨winsAgain, losesAgain⟩ := wins.again without loses absent
  split
  · rename_i same
    subst same
    refine Option.eq_none_iff_forall_ne_some.mpr fun old held => ?_
    obtain ⟨-, before, apart, -⟩ := (pocketOf_settleAll_of_loses winsAgain losesAgain).mp held
    have same : ({ now with session := (settleAll previous capacity start).session } : Layers) =
        settleAll previous capacity start := by
      rw [without.library, without.persisted]
    rw [same, (pocketOf_settleAll_of_wins wins winner).mpr rfl] at before
    exact apart (Option.some.inj before).symm
  · rename_i different
    rw [← without.pocketOf_of_ne different, settleAll_eq]
    exact pocketOf_congr rfl rfl
      (session_settleAll_of_stands (without.not_loses losesAgain different))

end

end Layers

open Layers

variable (incoming previous : Overrides) (library : Library) (persisted : Overrides) (capacity : UInt32)

/-- What reconciling comes to, in terms of the session that was handed back. Each pocket that is claimed stays
with its winner alone. A tool that loses no pocket keeps its entry in the session, or none. A tool that loses
one is left without, unless it is heard first of the losers and the winner had another pocket of the magazine
before, which nobody claims when this one is settled: then it has that one. -/
theorem reconcile_outcome :
    let start : Layers := ⟨library, persisted, incoming.filter (Override.isAdmissible capacity)⟩
    let session := reconcile incoming previous library persisted capacity
    let settled : Layers := ⟨library, persisted, session⟩
    (∀ pocket claimant, start.pocketOf claimant = some pocket →
      ∃ winner, start.Wins previous pocket winner ∧
        ∀ tool, settled.pocketOf tool = some pocket ↔ tool = winner) ∧
    (∀ tool, (∀ pocket, ¬ start.Loses previous pocket tool) →
      session.get? tool = start.session.get? tool) ∧
    ∀ pocket winner loser, start.Wins previous pocket winner → start.Loses previous pocket loser →
      (∃ first, start.LosesFirst previous pocket first) ∧
      ∀ old, settled.pocketOf loser = some old ↔
        start.LosesFirst previous pocket loser ∧
          (Layers.mk library persisted previous).pocketOf winner = some old ∧ old ≠ pocket ∧
          (1 ≤ old ∧ old ≤ capacity) ∧ start.Unclaimed settled previous pocket old := by
  intro start session settled
  have reached : settled = settleAll previous capacity start := layers_reconcile _ _ _ _ _
  refine ⟨fun pocket claimant claims => ?_, fun tool stands => ?_, fun pocket winner loser wins loses => ?_⟩
  · obtain ⟨winner, wins⟩ := exists_wins previous claims
    rw [reached]
    exact ⟨winner, wins, pocketOf_settleAll_of_wins wins⟩
  · exact session_settleAll_of_stands stands
  · refine ⟨wins.exists_losesFirst loses, fun old => ?_⟩
    rw [reached, pocketOf_settleAll_of_loses wins loses, Offered, Magazine.has_eq_true_iff]

/-- Tool 80 takes pocket 3 from tool 1, on record for it, and from tool 70, which an older decision put there.
Tool 70 has the higher claim of the two, yet tool 1 is heard first and gets the pocket that tool 80 left. -/
example :
    let library : Library := ⟨[{ id := 1, pocket := some 3 }]⟩
    let previous := Table.ofList [(70, .inPocket 3), (80, .inPocket 5)]
    let incoming := Table.ofList [(70, .inPocket 3), (80, .inPocket 3)]
    reconcile incoming previous library Table.empty 8 =
      Table.ofList [(1, .inPocket 5), (80, .inPocket 3)] := by
  decide

/-! ### Number zero -/

/-- Number zero can have an entry in a session only where it had to leave a pocket. No entry for it is taken
over, so when the session is reconciled again it claims that pocket and has to leave once more, this time
without getting another one. -/
theorem pocketOf_reconcile_of_zero
    (decided : (reconcile incoming previous library persisted capacity).get? 0 ≠ none) (other : ToolId) :
    let session := reconcile incoming previous library persisted capacity
    (Layers.mk library persisted (reconcile session session library persisted capacity)).pocketOf other =
      if other = 0 then none else (Layers.mk library persisted session).pocketOf other := by
  intro session
  have reached := layers_reconcile incoming previous library persisted capacity
  have within : (Layers.mk library persisted session).SessionWithin capacity :=
    sessionWithin_reconcile incoming previous library persisted capacity
  have without : Without 0 (Layers.mk library persisted session)
      ⟨library, persisted, session.filter (Override.isAdmissible capacity)⟩ :=
    ⟨rfl, rfl, get?_zero_filter_admissible _ _, fun _ => get?_filter_admissible within⟩
  rw [reached] at without
  have outcome := without.pocketOf_settleAll (get?_zero_filter_admissible _ _) (reached ▸ decided) other
  rw [← reached] at outcome
  rw [layers_reconcile session session]
  exact outcome

end ToolChanger
