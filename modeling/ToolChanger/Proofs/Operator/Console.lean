import ToolChanger.Operator.Console
import ToolChanger.Proofs.Load.Rounds
import ToolChanger.Proofs.Text.Words
import ToolChanger.Store.Memory
import ToolChanger.Text.Utf8

/-!
# Typing is answering

Lines that are no command are answered at the console and never reach a load, and no line is read before it is
asked for (`goOn_typed`).
-/

namespace ToolChanger

/-! ### The word for help -/

namespace Text

theorem toLower_of_isBlank {c : Char} (blank : isBlank c = true) : c.toLower = c := by
  have range := toNat_of_isBlank blank
  unfold Char.toLower
  rw [dif_neg]
  rintro ⟨first, last⟩
  have first : 65 ≤ c.toNat := first
  have last : c.toNat ≤ 90 := last
  omega

end Text

namespace Console

open Text

theorem parse_help (capacity : UInt32) {line : List Char}
    (asks : sameIgnoringCase (trim line) "help".toList = true) :
    parse capacity line = .error (.unknown "help") := by
  have spelled : (trim line).map Char.toLower = "help".toList := eq_of_beq asks
  have solid (c : Char) (listed : c ∈ trim line) : isBlank c = false := by
    rw [Bool.eq_false_iff]
    intro blank
    have letter : c ∈ "help".toList := by
      rw [← spelled, ← toLower_of_isBlank blank]
      exact List.mem_map_of_mem listed
    have none : "help".toList.all (fun letter => !isBlank letter) = true := by decide
    have solid := List.all_eq_true.mp none c letter
    rw [blank] at solid
    cases solid
  have nonempty : trim line ≠ [] := by
    intro none
    rw [none] at spelled
    cases spelled
  have alone : words line = [trim line] := (words_trim line).symm.trans (words_of_solid nonempty solid)
  rw [parse, alone]
  simp only [readDecision, spelled]
  rfl

theorem react_of_parse_ok {capacity : UInt32} {line : List Char} {decision : Decision}
    (reads : parse capacity line = .ok decision) : react capacity line = .decided decision := by
  unfold react
  split
  · rename_i asks
    rw [parse_help capacity asks] at reads
    cases reads
  · rw [reads]

theorem react_of_parse_error {capacity : UInt32} {line : List Char} {error : CommandError}
    (refuses : parse capacity line = .error error) : ∃ text, react capacity line = .reply text := by
  unfold react
  split
  · exact ⟨_, rfl⟩
  · rw [refuses]
    exact ⟨_, rfl⟩

/-! ### Lines of UTF-8 -/

theorem cutAfter_append {α : Type} [DecidableEq α] {stop : α} {head : List α} (nonempty : head ≠ [])
    (within : stop ∉ head) (rest : List α) :
    cutAfter stop (head ++ rest) = match cutAfter stop rest with
      | [] => [head]
      | line :: later => (head ++ line) :: later := by
  induction head with
  | nil => exact absurd rfl nonempty
  | cons c tail ih =>
    obtain ⟨other, within⟩ := not_or.mp (mt List.mem_cons.mpr within)
    rw [List.cons_append, cutAfter, if_neg (Ne.symm other)]
    cases tail with
    | nil =>
      rw [List.nil_append]
      cases cutAfter stop rest <;> rfl
    | cons d more =>
      rw [ih (List.cons_ne_nil d more) within]
      cases cutAfter stop rest <;> rfl

theorem cutAfter_flatMap_utf8EncodeChar (text : List Char) :
    cutAfter 10 (text.flatMap String.utf8EncodeChar) =
      (cutAfter '\n' text).map (List.flatMap String.utf8EncodeChar) := by
  induction text with
  | nil => rfl
  | cons c rest ih =>
    rw [List.flatMap_cons, cutAfter]
    split
    · rename_i newline
      subst newline
      rw [show String.utf8EncodeChar '\n' = [10] by decide, List.singleton_append, cutAfter, if_pos rfl, ih]
      rfl
    · rename_i other
      have within : (10 : UInt8) ∉ String.utf8EncodeChar c := by
        intro listed
        exact other (Char.toNat_inj.mp (toNat_of_mem_utf8EncodeChar (by decide) listed))
      rw [cutAfter_append String.utf8EncodeChar_ne_nil within, ih]
      cases cutAfter '\n' rest <;> simp

theorem readLines_toUTF8 (text : String) :
    readLines text.toUTF8 = (cutAfter '\n' text.toList).map some := by
  have bytes : text.toUTF8.data.toList = text.toList.flatMap String.utf8EncodeChar := by
    rw [← String.ofList_toList (s := text), String.toUTF8, String.toByteArray_ofList, List.utf8Encode,
      List.data_toByteArray, String.toList_ofList]
  rw [readLines, bytes, cutAfter_flatMap_utf8EncodeChar, List.map_map]
  refine List.map_congr_left fun line _ => ?_
  simp [fromUTF8?_flatMap]

end Console

/-! ### From answer to answer -/

def Operator.answering {m : Type → Type} [Monad m] (decisions : List Decision) : Operator m :=
  .ofScript (decisions.map fun decision => (pure (), some decision))

namespace Console

open Operator (answering)

/-- The commands among some lines. Each line is read with the capacity that the round shows in which it is
read, and a command ends the round. -/
def commands : (Nat → UInt32) → List (List Char) → List Decision
  | _, [] => []
  | capacity, line :: rest =>
    match parse (capacity 0) line with
    | .ok decision => decision :: commands (fun round => capacity (round + 1)) rest
    | .error _ => commands capacity rest

theorem commands_const (capacity : UInt32) (lines : List (List Char)) :
    commands (fun _ => capacity) lines = lines.filterMap fun line => (parse capacity line).toOption := by
  induction lines with
  | nil => rfl
  | cons line rest ih =>
    rw [commands, List.filterMap_cons]
    cases parse capacity line with
    | ok decision => exact congrArg (decision :: ·) ih
    | error error => exact ih

section

variable {σ α : Type} [Store (StateM σ)] (note : StateM σ α) (job : Job)

theorem goOn_ready_of_none {answer : Summary → Option Decision} (next : Summary → Operator (StateM σ))
    {round : Round} (silent : answer round.summary = none) :
    (Operator.ready (pure ()) answer next).goOn note job (.waiting round) =
      Operator.gone.goOn note job (.waiting round) := by
  simp only [Operator.goOn, silent, Round.answer, pure_bind]

theorem goOn_operator {input : List Line} (nonempty : input ≠ []) (round : Round) :
    (operator input : Operator (StateM σ)).goOn note job (.waiting round) = do
      let noted ← note
      let asked := readOn round.summary.capacity input
      let visit ← (operator asked.rest).goOn note job (← round.answer job asked.decision)
      return ⟨⟨round.summary, noted, asked.decision⟩ :: visit.shown, visit.outcome⟩ := by
  rw [operator, dif_neg nonempty]
  simp only [Operator.goOn, pure_bind]
  rfl

theorem goOn_reply {line : List Char} {round : Round} {text : String}
    (replies : react round.summary.capacity line = .reply text) (rest : List Line) :
    (operator (some line :: rest) : Operator (StateM σ)).goOn note job (.waiting round) =
      (operator rest).goOn note job (.waiting round) := by
  cases rest with
  | nil =>
    rw [operator, dif_neg (List.cons_ne_nil _ _), operator, dif_pos rfl]
    refine goOn_ready_of_none note job _ ?_
    simp [ask, readOn, replies]
  | cons second more =>
    rw [goOn_operator note job (List.cons_ne_nil _ _), goOn_operator note job (List.cons_ne_nil _ _)]
    simp only [readOn, replies]

theorem goOn_finished (operator : Operator (StateM σ)) (outcome : Outcome) :
    operator.goOn note job (.finished outcome) = pure ⟨[], outcome⟩ := by
  cases operator <;> rfl

theorem goOn_cons {line : List Char} {round : Round} {decision : Decision}
    (decides : react round.summary.capacity line = .decided decision) (rest : List Line) (state : σ) :
    ((operator (some line :: rest)).goOn note job (.waiting round)).run state =
      let noted := note.run state
      let answered := (round.answer job (some decision) : StateM σ _).run noted.2
      let visit := ((operator rest).goOn note job answered.1).run answered.2
      (⟨⟨round.summary, noted.1, some decision⟩ :: visit.1.shown, visit.1.outcome⟩, visit.2) := by
  rw [goOn_operator note job (List.cons_ne_nil _ _)]
  simp only [readOn, decides]
  rfl

/-- Typing the rest of the lines comes to the same as answering with their commands. The capacities by which
the commands are read are those that are shown, be it to the one who types or to the one who answers. -/
theorem goOn_typed (lines : List (List Char)) (capacity : Nat → UInt32) (progress : Progress) (state : σ)
    {one : Operator (StateM σ)}
    (either : one = operator (lines.map some) ∨ one = answering (commands capacity lines))
    (seen : ∀ i shown, ((one.goOn note job progress).run state).1.shown[i]? = some shown →
      shown.summary.capacity = capacity i) :
    ((answering (commands capacity lines)).goOn note job progress).run state =
      ((operator (lines.map some)).goOn note job progress).run state := by
  -- A line that is a command leads to the next round, any other line only to the next line.
  induction lines generalizing capacity progress state one with
  | nil =>
    rw [List.map_nil, operator, dif_pos rfl]
    rfl
  | cons line rest ih =>
    cases progress with
    | finished outcome => rw [goOn_finished, goOn_finished]
    | waiting round =>
      have current : round.summary.capacity = capacity 0 := by
        obtain ⟨decision, later, shows⟩ := exists_shown note job one round state
        exact seen 0 _ (by rw [shows]; rfl)
      rw [commands, ← current] at either ⊢
      cases reads : parse round.summary.capacity line with
      | ok decision =>
        have typed := goOn_cons note job (react_of_parse_ok reads) (rest.map some) state
        rw [reads] at either
        rw [List.map_cons, typed]
        refine congrArg (fun visit : Visit α × σ =>
          ((⟨⟨round.summary, (note.run state).1, some decision⟩ :: visit.1.shown, visit.1.outcome⟩ : Visit α),
            visit.2)) ?_
        rcases either with rfl | rfl
        · rw [List.map_cons, typed] at seen
          exact ih (fun i => capacity (i + 1)) _ _ (.inl rfl) fun i shown found => seen (i + 1) shown found
        · exact ih (fun i => capacity (i + 1)) _ _ (.inr rfl) fun i shown found => seen (i + 1) shown found
      | error error =>
        obtain ⟨text, replies⟩ := react_of_parse_error reads
        rw [reads] at either
        rw [List.map_cons, goOn_reply note job replies]
        rcases either with rfl | rfl
        · rw [List.map_cons, goOn_reply note job replies] at seen
          exact ih capacity (.waiting round) state (.inl rfl) seen
        · exact ih capacity (.waiting round) state (.inr rfl) seen

/-- A load from typed text is the load where the commands of the text are answered, each read by the summary
that is shown when it is due, and nothing after the last one: it shows the same, before each answer the world
is the same, and it ends alike. As long as the magazine keeps its size these are simply the lines that can be
read as commands. -/
theorem load_typed (text : String) (state : σ) :
    let run (operator : Operator (StateM σ)) := (load note job operator).run state
    let typed := run (operator (readLines text.toUTF8))
    let lines := cutAfter '\n' text.toList
    let capacity (i : Nat) := (typed.1.shown[i]?.map (·.summary.capacity)).getD 0
    run (answering (commands capacity lines)) = typed ∧
      ∀ size, let replayed := run (answering (lines.filterMap fun line => (parse size line).toOption))
        (∀ shown ∈ replayed.1.shown, shown.summary.capacity = size) → replayed = typed := by
  intro run typed lines capacity
  rcases began : (job.start : StateM σ _).run state with ⟨progress, now⟩
  have goesOn (operator : Operator (StateM σ)) : run operator = (operator.goOn note job progress).run now := by
    unfold run
    rw [load, run_bind began]
  have same (capacity : Nat → UInt32) (one : Operator (StateM σ))
      (either : one = operator (lines.map some) ∨ one = answering (commands capacity lines))
      (seen : ∀ i shown, (run one).1.shown[i]? = some shown → shown.summary.capacity = capacity i) :
      run (answering (commands capacity lines)) = typed := by
    unfold typed
    rw [readLines_toUTF8, goesOn, goesOn]
    rw [goesOn] at seen
    exact goOn_typed note job lines capacity progress now either seen
  constructor
  · refine same capacity _ (.inl rfl) fun i shown found => ?_
    rw [← readLines_toUTF8] at found
    change _ = (typed.1.shown[i]?.map (·.summary.capacity)).getD 0
    rw [show typed.1.shown[i]? = some shown from found]
    rfl
  · intro size replayed all
    unfold replayed at all ⊢
    rw [← commands_const] at all ⊢
    exact same _ _ (.inr rfl) fun i shown found => all shown (List.mem_of_getElem? found)

end

/-- Help is given, an empty line and a pocket beyond the magazine are refused, and the last line has no end. -/
theorem load_typed_remap :
    let memory : Memory := { tools := [{ id := 12, pocket := some 1 }, { id := 3 }] }
    let job : Job := ⟨"part.nc", "M6 T12\nM6 T3"⟩
    let run (operator : Operator (StateM Memory)) := (load get job operator).run memory
    let text := "Help\n\nremap 3 99\nremap T3 2\nmap"
    let typed := run (operator (readLines text.toUTF8))
    typed.1.shown.map (·.decision) = [some (.remap 3 (.inPocket 2)), some .map] ∧
      run (answering [.remap 3 (.inPocket 2), .map]) = typed := by
  intro memory job run text typed
  have reads : (cutAfter '\n' text.toList).filterMap (fun line => (parse 8 line).toOption) =
      [.remap 3 (.inPocket 2), .map] := by decide +kernel
  have replayed : run (answering [.remap 3 (.inPocket 2), .map]) = typed := by
    rw [← reads]
    exact (load_typed get job text memory).2 8 (by decide +kernel)
  rw [← replayed]
  exact ⟨by decide +kernel, rfl⟩

end Console
end ToolChanger
