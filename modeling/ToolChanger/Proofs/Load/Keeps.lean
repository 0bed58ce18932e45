import ToolChanger.Proofs.Load.Steady

/-!
# What a load keeps

A load touches the documents in five ways: it reads one of the three, carries out a move, or brings the library up
to date. A property of the state that each of these keeps holds after the load if it held before.
-/

namespace ToolChanger

variable {σ α β : Type}

/-- Where a property of the state holds before an action, it holds after it. -/
def Keeps (P : σ → Prop) (action : StateM σ α) : Prop := ∀ state, P state → P (action.run state).2

variable {P : σ → Prop}

theorem Keeps.of_run {action : StateM σ α} (keeps : Keeps P action) {state final : σ} {value : α}
    (ran : action.run state = (value, final)) (holds : P state) : P final := by
  have after := keeps state holds
  rwa [ran] at after

theorem keeps_pure (value : α) : Keeps P (pure value : StateM σ α) := fun _ holds => holds

theorem run_bind_snd {action : StateM σ α} {next : α → StateM σ β} {state : σ}
    (first : P (action.run state).2) (later : ∀ value, Keeps P (next value)) :
    P ((action >>= next).run state).2 := by
  rcases ran : action.run state with ⟨value, final⟩
  rw [ran] at first
  rw [run_bind ran]
  exact later value final first

theorem Keeps.bind {action : StateM σ α} {next : α → StateM σ β} (first : Keeps P action)
    (later : ∀ value, Keeps P (next value)) : Keeps P (action >>= next) :=
  fun state holds => run_bind_snd (first state holds) later

theorem run_bind_except_snd {ε : Type} {action : ExceptT ε (StateM σ) α}
    {next : α → ExceptT ε (StateM σ) β} {state : σ} (first : P (action.run.run state).2)
    (later : ∀ value, Keeps P (next value).run) : P ((action >>= next).run.run state).2 := by
  rw [ExceptT.run_bind]
  refine run_bind_snd first fun result => ?_
  cases result with
  | error error => exact keeps_pure _
  | ok value => exact later value

variable [Store (StateM σ)]

/-! ### What happens meanwhile -/

namespace Operator

variable {R : σ → σ → Prop}

/-- As a load goes on from here, whatever happens while a summary is shown leads from one state to another
as `R` says. -/
def Edits (R : σ → σ → Prop) (note : StateM σ α) (job : Job) : Operator (StateM σ) → Progress → σ → Prop
  | ready meanwhile answer next, .waiting round, state =>
    let noted := (note.run state).2
    let edited := (meanwhile.run noted).2
    let answered := (round.answer job (answer round.summary) : StateM σ _).run edited
    R noted edited ∧ (next round.summary).Edits R note job answered.1 answered.2
  | _, _, _ => True

/-- All through a load, whatever happens while a summary is shown leads from one state to another as `R`
says. -/
def EditsLoad (R : σ → σ → Prop) (note : StateM σ α) (job : Job) (operator : Operator (StateM σ))
    (state : σ) : Prop :=
  let began := (job.start : StateM σ _).run state
  operator.Edits R note job began.1 began.2

theorem edits_mono {S : σ → σ → Prop} (implies : ∀ before after, R before after → S before after)
    {note : StateM σ α} {job : Job} {operator : Operator (StateM σ)} {progress : Progress} {state : σ}
    (edits : operator.Edits R note job progress state) : operator.Edits S note job progress state := by
  induction operator generalizing progress state with
  | gone => cases progress <;> trivial
  | ready meanwhile answer next ih =>
    cases progress with
    | finished outcome => trivial
    | waiting round => exact ⟨implies _ _ edits.1, ih _ edits.2⟩

/-- Whatever is shown and answered, everything that may happen meanwhile satisfies `P`. -/
def Meanwhile {m : Type → Type} (P : m Unit → Prop) : Operator m → Prop
  | gone => True
  | ready meanwhile _ next => P meanwhile ∧ ∀ summary, (next summary).Meanwhile P

theorem edits_of_meanwhile (note : StateM σ α) (job : Job) {operator : Operator (StateM σ)}
    (all : operator.Meanwhile fun edit => ∀ state, R state (edit.run state).2) (progress : Progress)
    (state : σ) : operator.Edits R note job progress state := by
  induction operator generalizing progress state with
  | gone => cases progress <;> trivial
  | ready meanwhile answer next ih =>
    cases progress with
    | finished outcome => trivial
    | waiting round => exact ⟨all.1 _, ih _ (all.2 _) _ _⟩

end Operator

/-- Every reading of a document keeps the property. -/
structure Store.KeepReading (P : σ → Prop) : Prop where
  library : Keeps P (libraryOrEmpty : StateM σ _)
  settings : Keeps P (settingsOrDefault : StateM σ _)
  capacity : Keeps P (capacityOrDefault : StateM σ _)

structure Store.Keep (P : σ → Prop) : Prop extends Store.KeepReading P where
  move : ∀ tool target capacity session, Keeps P (moveStored tool target capacity session : StateM σ _)
  sync : ∀ classification, Keeps P (syncStored classification : StateM σ _)

/-! ### One round -/

namespace Store.KeepReading

variable (keep : Store.KeepReading P)
include keep

theorem reconcileStored (incoming previous : Overrides) :
    Keeps P (reconcileStored incoming previous : StateM σ _) :=
  keep.library.bind fun _ => keep.settings.bind fun _ => keep.capacity.bind fun _ => keeps_pure _

theorem analyzeStored (program : String) (session : Overrides) :
    Keeps P (analyzeStored program session : StateM σ _) :=
  keep.library.bind fun _ => keep.settings.bind fun _ => keeps_pure _

theorem ask (job : Job) (settings : Settings) (session : Overrides) (classification : Classification) :
    Keeps P (job.ask settings session classification : StateM σ _) :=
  keep.capacity.bind fun _ => keeps_pure _

theorem again (job : Job) (incoming previous : Overrides) :
    Keeps P (job.again incoming previous : StateM σ _) :=
  (keep.reconcileStored incoming previous).bind fun session =>
    keep.settings.bind fun settings =>
      (keep.analyzeStored job.program session).bind fun classification =>
        keep.ask job settings session classification

theorem start (job : Job) : Keeps P (job.start : StateM σ _) := by
  refine keep.settings.bind fun settings => ?_
  cases settings.enabled with
  | false => exact keeps_pure _
  | true =>
    refine (keep.reconcileStored _ _).bind fun session => ?_
    refine (keep.analyzeStored job.program session).bind fun classification => ?_
    cases classification.isEmpty with
    | true => exact keeps_pure _
    | false => exact keep.ask job settings session classification

theorem answer_of_reading (job : Job) (round : Round) {decision : Option Decision}
    (noMap : decision ≠ some .map) (noMove : ∀ tool target, decision ≠ some (.remap tool target)) :
    Keeps P (round.answer job decision : StateM σ _) := by
  rcases decision with _ | _ | _ | _ | ⟨tool, target⟩ | ⟨session⟩
  · exact keeps_pure _
  · exact keeps_pure _
  · exact keeps_pure _
  · exact absurd rfl noMap
  · exact absurd rfl (noMove tool target)
  · exact keep.again job _ _

end Store.KeepReading

section

variable (keep : Store.Keep P) {job : Job}
include keep

theorem Store.Keep.answer_leads {Q : Progress → σ → Prop}
    (finishes : ∀ outcome state, P state → Q (.finished outcome) state)
    (goesOn : ∀ incoming previous state, P state →
      let went := (job.again incoming previous : StateM σ _).run state
      Q went.1 went.2)
    (round : Round) (decision : Option Decision) (state : σ) (holds : P state) :
    let answered := (round.answer job decision : StateM σ _).run state
    Q answered.1 answered.2 := by
  rcases decision with _ | _ | _ | _ | ⟨tool, target⟩ | ⟨session⟩
  · exact finishes _ _ holds
  · exact finishes _ _ holds
  · exact finishes _ _ holds
  · have accepting : Keeps P
        (accept job.program round.settings.label round.summary.classification : StateM σ _) :=
      (keep.sync _).bind fun _ => keeps_pure _
    exact finishes _ _ (accepting state holds)
  · exact goesOn _ _ _ (keep.move tool target _ _ state holds)
  · exact goesOn _ _ _ holds

theorem Store.Keep.answer (job : Job) (round : Round) (decision : Option Decision) :
    Keeps P (round.answer job decision : StateM σ _) :=
  keep.answer_leads (Q := fun _ => P) (fun _ _ => id) (fun incoming previous => keep.again job incoming previous)
    round decision

end

/-! ### The whole load -/

section

variable {note : StateM σ α} (noting : Keeps P note) (job : Job) {operator : Operator (StateM σ)}
include noting

theorem goOn_keeps {progress : Progress} {state : σ}
    (edits : operator.Edits (fun before after => P before → P after) note job progress state)
    (answers : ∀ shown ∈ ((operator.goOn note job progress).run state).1.shown, ∀ round : Round,
      Keeps P (round.answer job shown.decision : StateM σ _))
    (holds : P state) : P ((operator.goOn note job progress).run state).2 := by
  induction operator generalizing progress state with
  | gone =>
    cases progress with
    | finished outcome => exact holds
    | waiting round =>
      refine run_bind_snd (noting state holds) fun noted => ?_
      exact (keeps_pure _).bind fun progress => by cases progress <;> exact keeps_pure _
  | ready meanwhile answer next ih =>
    cases progress with
    | finished outcome => exact holds
    | waiting round =>
      obtain ⟨harmless, later⟩ := edits
      have after := harmless (noting state holds)
      have given := answers _ (List.mem_cons_self ..) round
      exact ih round.summary later (fun shown listed => answers shown (List.mem_cons_of_mem _ listed))
        (given _ after)

theorem load_keeps {state : σ}
    (edits : operator.EditsLoad (fun before after => P before → P after) note job state)
    (starts : Keeps P (job.start : StateM σ _))
    (answers : ∀ shown ∈ ((load note job operator).run state).1.shown, ∀ round : Round,
      Keeps P (round.answer job shown.decision : StateM σ _))
    (holds : P state) : P ((load note job operator).run state).2 := by
  rcases began : (job.start : StateM σ _).run state with ⟨progress, now⟩
  have started := starts state holds
  unfold Operator.EditsLoad at edits
  unfold ToolChanger.load at answers ⊢
  rw [began] at started edits
  rw [run_bind began] at answers ⊢
  exact goOn_keeps noting job edits answers started

theorem Store.KeepReading.load (keep : Store.KeepReading P) {state : σ}
    (edits : operator.EditsLoad (fun before after => P before → P after) note job state)
    (reading : ∀ shown ∈ ((ToolChanger.load note job operator).run state).1.shown,
      shown.decision ≠ some .map ∧ ∀ tool target, shown.decision ≠ some (.remap tool target))
    (holds : P state) : P ((ToolChanger.load note job operator).run state).2 :=
  load_keeps noting job edits (keep.start job)
    (fun shown listed round => keep.answer_of_reading job round (reading shown listed).1
      (reading shown listed).2) holds

theorem Store.Keep.load (keep : Store.Keep P) {state : σ}
    (edits : operator.EditsLoad (fun before after => P before → P after) note job state)
    (holds : P state) : P ((ToolChanger.load note job operator).run state).2 :=
  load_keeps noting job edits (keep.start job) (fun shown _ round => keep.answer job round shown.decision) holds

end

end ToolChanger
