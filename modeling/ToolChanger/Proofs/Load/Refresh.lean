import ToolChanger.Proofs.Load.Move

/-!
# A refresh without edits

Overrides that come of reconciling are settled already (`reconcile_reconcile`), so a refresh that hands nothing
back leads to the same round. That takes documents without a tool zero: a decision on it would be made by the first
pass and dropped by the second one.
-/

namespace ToolChanger

open Store (libraryIn settingsIn viewIn)

/-! ### Reconciling again -/

section

variable {incoming previous : Overrides} {library : Library} {persisted : Overrides} {capacity : UInt32}

/-- Where no layer names tool zero, neither does what comes of reconciling. -/
theorem get?_reconcile_zero (noRecord : library.contains 0 = false) (noStored : persisted.contains 0 = false) :
    (reconcile incoming previous library persisted capacity).get? 0 = none := by
  let admitted := incoming.filter (Override.isAdmissible capacity)
  have dropped : admitted.get? 0 = none := by simp [admitted, Override.isAdmissible]
  have free : (Layers.mk library persisted admitted).pocketOf 0 = none := by
    have noOverride : persisted.get? 0 = none := by simpa [Table.contains] using noStored
    simp [Layers.pocketOf_eq, dropped, noOverride, Library.pocketOf_eq_none_of_contains noRecord]
  exact (Layers.session_settleAll_of_free previous capacity free).trans dropped

theorem reconcile_reconcile (noRecord : library.contains 0 = false) (noStored : persisted.contains 0 = false)
    (later : Overrides) :
    reconcile (reconcile incoming previous library persisted capacity) later library persisted capacity =
      reconcile incoming previous library persisted capacity :=
  reconcile_of_settled later (get?_reconcile_zero noRecord noStored)
    (sessionWithin_reconcile incoming previous library persisted capacity)
    (oneToolPerPocket_reconcile incoming previous library persisted capacity)

end

/-! ### Cutting a load at a summary -/

namespace Operator

variable {m : Type → Type} [Monad m]

/-- What is left of an operator once a summary is answered. -/
def rest : Operator m → Summary → Operator m
  | gone, _ => gone
  | ready _ _ next, summary => next summary

/-- What is left of an operator to whom some summaries were shown. -/
def after (operator : Operator m) (shown : List Summary) : Operator m := shown.foldl rest operator

def edit : Operator m → m Unit
  | gone => pure ()
  | ready meanwhile _ _ => meanwhile

end Operator

variable {σ : Type} [Store (StateM σ)] {job : Job} {operator : Operator (StateM σ)}

theorem goOn_ready_run (meanwhile : StateM σ Unit) (answer : Summary → Option Decision)
    (next : Summary → Operator (StateM σ)) (job : Job) (round : Round) (state : σ) :
    ((Operator.ready meanwhile answer next).goOn get job (.waiting round)).run state =
      let edited := (meanwhile.run state).2
      let answered := (round.answer job (answer round.summary) : StateM σ _).run edited
      let visit := ((next round.summary).goOn get job answered.1).run answered.2
      (⟨⟨round.summary, state, answer round.summary⟩ :: visit.1.shown, visit.1.outcome⟩, visit.2) := rfl

/-- Where a summary is shown, a load can be cut: the rest of it is a load of its own, of the round that the
summary is of, by what is left of the operator. -/
theorem goOn_cut {I : Progress → σ → Prop}
    (step : ∀ (round : Round) decision (edited : σ),
      let answered := (round.answer job decision : StateM σ _).run edited
      I answered.1 answered.2)
    {progress : Progress} {state : σ} (holds : I progress state) {before later : List (Shown σ)}
    {shown : Shown σ}
    (split : ((operator.goOn get job progress).run state).1.shown = before ++ shown :: later) :
    ∃ round, I (.waiting round) shown.noted ∧ shown.summary = round.summary ∧
      let visit := (operator.goOn get job progress).run state
      let rest := ((operator.after (before.map (·.summary))).goOn get job (.waiting round)).run shown.noted
      rest.1.shown = shown :: later ∧ rest.1.outcome = visit.1.outcome ∧ rest.2 = visit.2 := by
  -- on what was shown before the cut; operator, round and state move along with it
  induction before generalizing operator progress state with
  | nil =>
    cases progress with
    | finished outcome => cases operator <;> cases split
    | waiting round =>
      obtain ⟨decision, rest, first⟩ := exists_shown get job operator round state
      obtain ⟨rfl, -⟩ := List.cons.inj (first.symm.trans split)
      exact ⟨round, holds, rfl, split, rfl, rfl⟩
  | cons head before ih =>
    cases progress with
    | finished outcome => cases operator <;> cases split
    | waiting round =>
      cases operator with
      | gone =>
        have alone : [] = before ++ shown :: later := (List.cons.inj split).2
        cases before <;> cases alone
      | ready meanwhile answer next =>
        rw [goOn_ready_run] at split ⊢
        obtain ⟨rfl, rest⟩ := List.cons.inj split
        exact ih (step round _ _) rest

/-! ### The round after a refresh -/

section

variable [Store.Steady σ]

theorem reflects_start (job : Job) (state : σ) :
    let began := (job.start : StateM σ _).run state
    began.1.Reflects job (viewIn began.2) := by
  intro began
  have ran : began = _ := start_run job state
  rw [ran]
  simp only
  split
  · trivial
  · split
    · trivial
    · exact ⟨Table.empty, Table.empty, rfl⟩

theorem reflects_answer (round : Round) (decision : Option Decision) (edited : σ) :
    let answered := (round.answer job decision : StateM σ _).run edited
    answered.1.Reflects job (viewIn answered.2) := by
  intro answered
  have reflects (incoming previous : Overrides) (state : σ) :
      let again := (job.again incoming previous : StateM σ _).run state
      again.1.Reflects job (viewIn again.2) := by
    rw [again_run]
    exact ⟨incoming, previous, rfl⟩
  rcases decision with _ | _ | _ | _ | ⟨tool, target⟩ | ⟨session⟩
  · trivial
  · trivial
  · trivial
  · trivial
  · exact reflects _ _ _
  · exact reflects _ _ _

theorem answer_refresh_run {round : Round} {state : σ}
    (reflects : (Progress.waiting round).Reflects job (viewIn state))
    (noRecord : (libraryIn state).contains 0 = false)
    (noStored : (settingsIn state).overrides.contains 0 = false) :
    round = job.roundIn state round.summary.session ∧
      (round.answer job (some (.refresh none)) : StateM σ _).run state = (.waiting round, state) := by
  obtain ⟨incoming, previous, rfl⟩ := reflects
  refine ⟨rfl, ?_⟩
  unfold Round.answer
  simp only
  rw [again_run]
  exact congrArg (fun session => (Progress.waiting ((viewIn state).round job session), state))
    (reconcile_reconcile noRecord noStored _)

end

/-! ### A load with a refresh in it -/

/-- A refresh hands nothing back, while it was awaited nothing changed, and the documents name no tool zero. -/
structure IdleRefresh (operator : Operator (StateM σ)) (before : List (Shown σ)) (shown : Shown σ) : Prop where
  asked : shown.decision = some (.refresh none)
  unedited : ((operator.after (before.map (·.summary))).edit.run shown.noted).2 = shown.noted
  noRecord : (libraryIn shown.noted).contains 0 = false
  noStored : (settingsIn shown.noted).overrides.contains 0 = false

section

variable [Store.Steady σ] {store : σ} {before later : List (Shown σ)} {shown next : Shown σ}

theorem load_refresh
    (split : ((load get job operator).run store).1.shown = before ++ shown :: later)
    (idle : IdleRefresh operator before shown) :
    let visit := (load get job operator).run store
    let round := job.roundIn shown.noted shown.summary.session
    let rest := ((operator.after ((before ++ [shown]).map (·.summary))).goOn get job
      (.waiting round)).run shown.noted
    shown.summary = round.summary ∧
      visit.1.shown = before ++ shown :: rest.1.shown ∧ visit.1.outcome = rest.1.outcome ∧
      visit.2 = rest.2 := by
  intro visit
  obtain ⟨round, reflects, summary, whole, outcome, final⟩ :=
    goOn_cut (I := fun progress state => progress.Reflects job (viewIn state)) reflects_answer
      (reflects_start job store) split
  obtain ⟨asked, unedited, noRecord, noStored⟩ := idle
  obtain ⟨shows, comesBack⟩ := answer_refresh_run reflects noRecord noStored
  have left : operator.after ((before ++ [shown]).map (·.summary)) =
      (operator.after (before.map (·.summary))).rest shown.summary := by
    simp [Operator.after]
  rw [left, summary, ← shows]
  cases remaining : operator.after (before.map (·.summary)) with
  | gone =>
    rw [remaining] at whole
    have first := (List.cons.inj whole).1
    rw [← first] at asked
    cases asked
  | ready meanwhile answer next =>
    rw [remaining] at unedited
    rw [remaining, goOn_ready_run] at whole outcome final
    obtain ⟨first, others⟩ := List.cons.inj whole
    have answered : answer round.summary = some (.refresh none) := by rw [← asked, ← first]
    have untouched : (meanwhile.run shown.noted).2 = shown.noted := unedited
    simp only [answered, untouched, comesBack] at others outcome final
    exact ⟨rfl, by rw [show visit.1.shown = _ from split, ← others]; rfl, outcome.symm, final.symm⟩

theorem shown_after_refresh
    (split : ((load get job operator).run store).1.shown = before ++ shown :: later)
    (idle : IdleRefresh operator before shown) :
    ∃ again others, later = again :: others ∧ again.summary = shown.summary ∧ again.noted = shown.noted := by
  obtain ⟨shows, visits, -⟩ := load_refresh split idle
  obtain ⟨decision, others, first⟩ := exists_shown get job
    (operator.after ((before ++ [shown]).map (·.summary)))
    (job.roundIn shown.noted shown.summary.session) shown.noted
  rw [first] at visits
  obtain ⟨-, rest⟩ := List.cons.inj (List.append_cancel_left (split.symm.trans visits))
  exact ⟨_, others, rest, shows.symm, rfl⟩

theorem shown_after_refreshes {refreshes : List (Shown σ)}
    (split : ((load get job operator).run store).1.shown = before ++ (refreshes ++ next :: later))
    (idle : ∀ done shown more, refreshes = done ++ shown :: more →
      IdleRefresh operator (before ++ done) shown) :
    ∀ shown ∈ refreshes, shown.summary = next.summary ∧ shown.noted = next.noted := by
  induction refreshes generalizing before with
  | nil => exact fun shown none => absurd none List.not_mem_nil
  | cons first more ih =>
    have quiet := idle [] first more rfl
    rw [List.append_nil] at quiet
    obtain ⟨again, others, rest, summary, noted⟩ := shown_after_refresh split quiet
    have goesOn : ((load get job operator).run store).1.shown =
        (before ++ [first]) ++ (more ++ next :: later) := by
      simpa using split
    have same := ih goesOn fun done shown more' cut => by
      have quiet := idle (first :: done) shown more' (by rw [cut]; rfl)
      simpa using quiet
    have start : first.summary = next.summary ∧ first.noted = next.noted := by
      cases more with
      | nil =>
        obtain ⟨rfl, -⟩ := List.cons.inj rest
        exact ⟨summary.symm, noted.symm⟩
      | cons second more =>
        obtain ⟨rfl, -⟩ := List.cons.inj rest
        obtain ⟨laterSummary, laterNoted⟩ := same second List.mem_cons_self
        exact ⟨summary.symm.trans laterSummary, noted.symm.trans laterNoted⟩
    intro shown listed
    rcases List.mem_cons.mp listed with rfl | listed
    · exact start
    · exact same shown listed

/-- Overrides that are settled with the layers below are taken over as they are, so reconciling a second time
changes nothing. A load that is asked to refresh, with nothing handed back and nothing edited, therefore goes on
as the rest of the operator would from the round that was shown, in the same state; and of any number of such
refreshes in a row each is shown the same as whatever follows them. -/
theorem refresh_idle :
    (∀ (incoming previous persisted : Overrides) (library : Library) (capacity : UInt32),
      incoming.get? 0 = none → (Layers.mk library persisted incoming).SessionWithin capacity →
      (Layers.mk library persisted incoming).OneToolPerPocket →
      reconcile incoming previous library persisted capacity = incoming) ∧
    (∀ (incoming previous later persisted : Overrides) (library : Library) (capacity : UInt32),
      library.contains 0 = false → persisted.contains 0 = false →
      let session := reconcile incoming previous library persisted capacity
      reconcile session later library persisted capacity = session) ∧
    ∀ (job : Job) (operator : Operator (StateM σ)) (store : σ),
      let visit := (load get job operator).run store
      (∀ before shown later, visit.1.shown = before ++ shown :: later →
        IdleRefresh operator before shown →
        let round := job.roundIn shown.noted shown.summary.session
        let rest := ((operator.after ((before ++ [shown]).map (·.summary))).goOn get job
          (.waiting round)).run shown.noted
        shown.summary = round.summary ∧ visit.1.shown = before ++ shown :: rest.1.shown ∧
          visit.1.outcome = rest.1.outcome ∧ visit.2 = rest.2) ∧
      ∀ before refreshes next later, visit.1.shown = before ++ (refreshes ++ next :: later) →
        (∀ done shown more, refreshes = done ++ shown :: more →
          IdleRefresh operator (before ++ done) shown) →
        ∀ shown ∈ refreshes, shown.summary = next.summary ∧ shown.noted = next.noted := by
  refine ⟨?_, ?_, fun job operator store => ⟨?_, ?_⟩⟩
  · intro incoming previous persisted library capacity noTool within unshared
    exact reconcile_of_settled previous noTool within unshared
  · intro incoming previous later persisted library capacity noRecord noStored
    exact reconcile_reconcile noRecord noStored later
  · intro before shown later split idle
    exact load_refresh split idle
  · intro before refreshes next later split idle
    exact shown_after_refreshes split idle

omit [Store (StateM σ)] [Store.Steady σ] in
/-- Tool 60 is put in the pocket of tool 1, which has to leave; meanwhile tool 2 is moved by other hands. A
refresh without edits follows, and the program is renumbered with what was shown before it. -/
theorem refresh_idle_displaced :
    let memory : Memory := { tools := [{ id := 1, pocket := some 1 }, { id := 2, pocket := some 2 }] }
    let job : Job := ⟨"part.nc", "M6 T1\nM6 T60\nM6 T2"⟩
    let operator : Operator (StateM Memory) := Operator.ofScript
      [(modify fun memory => { memory with settings := { overrides := Table.ofList [(2, .inPocket 5)] } },
          some (.refresh (some (Table.ofList [(60, .inPocket 1)])))),
        (pure (), some (.refresh none)), (pure (), some .map)]
    ∃ first shown next, ((load get job operator).run memory).1.shown = [first, shown, next] ∧
      IdleRefresh operator [first] shown ∧ next.summary = shown.summary ∧ next.noted = shown.noted ∧
      shown.summary.session.entries = [(1, .outOfMagazine), (60, .inPocket 1)] ∧
      shown.summary.classification.all.map (·.pocket) = [none, some 1, some 5] ∧
      reconcile shown.summary.session Table.empty ⟨memory.tools⟩ (Table.ofList [(2, .inPocket 5)]) 8 =
        shown.summary.session := by
  intro memory job operator
  have length : ((load get job operator).run memory).1.shown.length = 3 := by decide +kernel
  have noted : (((load get job operator).run memory).1.shown[1]?).map (fun shown =>
      (shown.decision, (libraryIn shown.noted).contains 0,
        (settingsIn shown.noted).overrides.contains 0)) =
      some (some (.refresh none), false, false) := by decide +kernel
  have shows : (((load get job operator).run memory).1.shown[1]?).map (fun shown =>
      (shown.summary.session.entries, shown.summary.classification.all.map (·.pocket))) =
      some ([(1, .outOfMagazine), (60, .inPocket 1)], [none, some 1, some 5]) := by decide +kernel
  have came : (((load get job operator).run memory).1.shown[1]?).map (·.summary.session) =
      some (reconcile (Table.ofList [(60, .inPocket 1)]) Table.empty ⟨memory.tools⟩
        (Table.ofList [(2, .inPocket 5)]) 8) := by decide +kernel
  obtain ⟨first, shown, next, all⟩ := List.length_eq_three.mp length
  simp only [all, List.getElem?_cons_succ, List.getElem?_cons_zero, Option.map_some, Option.some.injEq,
    Prod.mk.injEq] at noted shows came
  obtain ⟨asked, noRecord, noStored⟩ := noted
  have idle : IdleRefresh operator [first] shown := ⟨asked, rfl, noRecord, noStored⟩
  obtain ⟨-, again, loads⟩ := refresh_idle (σ := Memory)
  have only (done more : List (Shown Memory)) (other : Shown Memory) (cut : [shown] = done ++ other :: more) :
      IdleRefresh operator ([first] ++ done) other := by
    rcases done with _ | ⟨head, done⟩
    · obtain ⟨rfl, -⟩ := List.cons.inj cut
      exact idle
    · have short := congrArg List.length cut
      simp at short
  obtain ⟨summary, same⟩ := (loads job operator memory).2 [first] [shown] next [] all
    (fun done other more => only done more other) shown List.mem_cons_self
  refine ⟨first, shown, next, all, idle, summary.symm, same.symm, shows.1, shows.2, ?_⟩
  rw [came]
  exact again _ _ Table.empty _ _ _ (by decide) (by decide)

end

end ToolChanger
