import ToolChanger.Operator.Console
import ToolChanger.Proofs.Override.Reading
import ToolChanger.Proofs.Remap.Swap
import ToolChanger.Proofs.Text.Words

/-!
# Which lines move a tool

`Commands` lists the lines that are commands. The console checks a place as the planner does, so a move that is
read can be planned whatever the tools and overrides are.
-/

namespace ToolChanger.Console

open Text

variable {capacity n : UInt32} {line word : List Char} {parts rest : List (List Char)} {target : Override}
  {decision : Decision}

/-! ### Tools and places -/

/-- A word names a number, which may have the letter of a tool before it. -/
inductive Names : List Char → UInt32 → Prop where
  | plain {word : List Char} {n : UInt32} : Denotes word n.toNat → Names word n
  | lettered {letter : Char} {word : List Char} {n : UInt32} : letter = 'T' ∨ letter = 't' →
      Denotes word n.toNat → Names (letter :: word) n

/-- A word names a place: a pocket of the magazine, or none. -/
inductive Places (capacity : UInt32) : List Char → Override → Prop where
  | none {word : List Char} : sameIgnoringCase word "none".toList = true → Places capacity word .outOfMagazine
  | dash : Places capacity ['-'] .outOfMagazine
  | pocket {word : List Char} {pocket : Pocket} : Names word pocket → 1 ≤ pocket → pocket ≤ capacity →
      Places capacity word (.inPocket pocket)

theorem not_denotes_cons {letter : Char} (isLetter : letter = 'T' ∨ letter = 't') {value : Int} :
    ¬ Denotes (letter :: word) value := by
  intro denotes
  rcases isLetter with rfl | rfl <;> cases denotes with
  | plain reads => exact ne_cons_of_digitsValue reads (by decide) word rfl

theorem not_denotes_dash {value : Int} : ¬ Denotes ['-'] value := by
  intro denotes
  cases denotes with
  | plain reads => exact ne_cons_of_digitsValue reads (by decide) [] rfl
  | negative reads => cases reads

theorem readNumber_eq_some_iff (positive : n ≠ 0) : readNumber word = some n ↔ Names word n := by
  unfold readNumber
  split
  · rename_i rest
    rw [readUInt32_eq_some_iff positive]
    constructor
    · exact .lettered (.inl rfl)
    · rintro (plain | ⟨-, number⟩)
      · exact absurd plain (not_denotes_cons (.inl rfl))
      · exact number
  · rename_i rest
    rw [readUInt32_eq_some_iff positive]
    constructor
    · exact .lettered (.inr rfl)
    · rintro (plain | ⟨-, number⟩)
      · exact absurd plain (not_denotes_cons (.inr rfl))
      · exact number
  · rename_i upper lower
    rw [readUInt32_eq_some_iff positive]
    constructor
    · exact .plain
    · rintro (plain | ⟨rfl | rfl, number⟩)
      · exact plain
      · exact absurd rfl (upper _)
      · exact absurd rfl (lower _)

theorem Names.not_place (names : Names word n) :
    (sameIgnoringCase word "none".toList || word == ['-']) = false := by
  rw [Bool.or_eq_false_iff, beq_eq_false_iff_ne]
  cases names with
  | plain number =>
    refine ⟨number.not_none.2, ?_⟩
    rintro rfl
    exact not_denotes_dash number
  | lettered isLetter number =>
    constructor
    · rcases isLetter with rfl | rfl <;> exact beq_eq_false_iff_ne.mpr fun same => by cases same
    · rintro ⟨⟩
      exact absurd isLetter (by decide)

theorem readTool_eq_some_iff {tool : ToolId} :
    (readNumber word).filter (· ≠ 0) = some tool ↔ Names word tool ∧ tool ≠ 0 := by
  rw [Option.filter_eq_some_iff, decide_eq_true_iff]
  exact and_congr_left readNumber_eq_some_iff

theorem readPocket_eq_some_iff {pocket : Pocket} :
    (readNumber word).filter (Magazine.has capacity) = some pocket ↔
      Names word pocket ∧ 1 ≤ pocket ∧ pocket ≤ capacity := by
  rw [Option.filter_eq_some_iff, Magazine.has_eq_true_iff]
  refine and_congr_left fun range => readNumber_eq_some_iff ?_
  rintro rfl
  exact absurd range.1 (by decide)

theorem readTarget_eq_ok_iff : readTarget capacity word = .ok target ↔ Places capacity word target := by
  unfold readTarget
  by_cases out : (sameIgnoringCase word "none".toList || word == ['-']) = true
  · rw [if_pos out]
    constructor
    · rintro ⟨⟩
      rcases Bool.or_eq_true_iff.mp out with none | dash
      · exact .none none
      · rw [eq_of_beq dash]
        exact .dash
    · rintro (_ | _ | ⟨names, -, -⟩)
      · rfl
      · rfl
      · rw [names.not_place] at out
        cases out
  · rw [if_neg out]
    constructor
    · intro read
      split at read
      · rename_i pocket found
        cases read
        obtain ⟨names, low, high⟩ := readPocket_eq_some_iff.mp found
        exact .pocket names low high
      · cases read
    · rintro (none | _ | ⟨names, low, high⟩)
      · rw [none] at out
        exact absurd rfl out
      · exact absurd rfl out
      · rw [readPocket_eq_some_iff.mpr ⟨names, low, high⟩]

theorem Places.range (places : Places capacity word target) {pocket : Pocket}
    (given : target.pocket? = some pocket) : 1 ≤ pocket ∧ pocket ≤ capacity := by
  cases places with
  | none => cases given
  | dash => cases given
  | pocket names low high =>
    cases given
    exact ⟨low, high⟩

/-! ### Commands -/

def plainCommands : List (String × Decision) :=
  [("map", .map), ("m", .map), ("bypass", .bypass), ("b", .bypass), ("cancel", .cancel), ("c", .cancel),
    ("refresh", .refresh none), ("r", .refresh none)]

/-- Some words are the command for a decision. -/
inductive Commands (capacity : UInt32) : List (List Char) → Decision → Prop where
  | plain {command : List Char} {name : String} {decision : Decision} : (name, decision) ∈ plainCommands →
      sameIgnoringCase command name.toList = true → Commands capacity [command] decision
  | remap {command number place : List Char} {tool : ToolId} {target : Override} :
      sameIgnoringCase command "remap".toList = true → Names number tool → tool ≠ 0 →
      Places capacity place target → Commands capacity [command, number, place] (.remap tool target)

theorem sameIgnoringCase_iff {name : String} (lower : name.toList.map Char.toLower = name.toList) :
    sameIgnoringCase word name.toList = true ↔ String.ofList (word.map Char.toLower) = name := by
  rw [sameIgnoringCase, beq_iff_eq, lower, ← String.toList_inj, String.toList_ofList]

theorem lower_of_plain {name : String} (listed : (name, decision) ∈ plainCommands) :
    name.toList.map Char.toLower = name.toList := by
  have all : ∀ entry ∈ plainCommands, entry.1.toList.map Char.toLower = entry.1.toList := by decide
  exact all _ listed

theorem Commands.readDecision (commands : Commands capacity parts decision) (rest : List (List Char)) :
    readDecision capacity (parts ++ rest) = .ok (decision, rest) := by
  cases commands with
  | @plain command name _ listed same =>
    have spelled := (sameIgnoringCase_iff (lower_of_plain listed)).mp same
    simp only [List.singleton_append, Console.readDecision, spelled]
    simp only [plainCommands, List.mem_cons, Prod.mk.injEq, List.not_mem_nil, or_false] at listed
    rcases listed with ⟨rfl, rfl⟩ | ⟨rfl, rfl⟩ | ⟨rfl, rfl⟩ | ⟨rfl, rfl⟩ | ⟨rfl, rfl⟩ | ⟨rfl, rfl⟩ |
      ⟨rfl, rfl⟩ | ⟨rfl, rfl⟩ <;> rfl
  | @remap command number place tool target same names isTool places =>
    have spelled := (sameIgnoringCase_iff (by decide)).mp same
    simp only [List.cons_append, List.nil_append, Console.readDecision, spelled,
      readTool_eq_some_iff.mpr ⟨names, isTool⟩, readTarget_eq_ok_iff.mpr places]
    rfl

theorem exists_commands (read : readDecision capacity parts = .ok (decision, rest)) :
    ∃ front, Commands capacity front decision ∧ parts = front ++ rest := by
  cases parts with
  | nil => cases read
  | cons command others =>
    have plain {name : String} {decided : Decision} (listed : (name, decided) ∈ plainCommands)
        (spelled : String.ofList (command.map Char.toLower) = name)
        (read : Except.ok (decided, others) = (Except.ok (decision, rest) : Except CommandError _)) :
        ∃ front, Commands capacity front decision ∧ command :: others = front ++ rest := by
      cases read
      exact ⟨[command], .plain listed ((sameIgnoringCase_iff (lower_of_plain listed)).mpr spelled), rfl⟩
    simp only [readDecision] at read
    split at read
    case h_1 spelled | h_2 spelled | h_3 spelled | h_4 spelled | h_5 spelled | h_6 spelled | h_7 spelled |
        h_8 spelled =>
      exact plain (by simp [plainCommands]) spelled read
    case h_9 spelled =>
      have same := (sameIgnoringCase_iff (by decide)).mpr spelled
      cases others with
      | nil => cases read
      | cons number others =>
        simp only at read
        split at read
        · rename_i tool place later found
          obtain ⟨names, isTool⟩ := readTool_eq_some_iff.mp found
          cases reads : readTarget capacity place with
          | error refusal =>
            rw [reads] at read
            cases read
          | ok target =>
            rw [reads] at read
            cases read
            have places := readTarget_eq_ok_iff.mp reads
            exact ⟨[command, number, place], .remap same names isTool places, rfl⟩
        · cases read
    case h_10 => cases read

theorem parse_eq_ok_iff : parse capacity line = .ok decision ↔
    ∃ parts, Parted line parts ∧ Commands capacity parts decision := by
  constructor
  · intro accepted
    have read : readDecision capacity (words line) = .ok (decision, []) := by
      unfold parse at accepted
      split at accepted
      · rename_i read
        rw [read, Except.ok.inj accepted]
      · cases accepted
      · cases accepted
    obtain ⟨front, commands, whole⟩ := exists_commands read
    rw [List.append_nil] at whole
    exact ⟨front, words_eq_iff.mp whole, commands⟩
  · rintro ⟨parts, parted, commands⟩
    have read := commands.readDecision []
    rw [List.append_nil, ← words_eq_iff.mpr parted] at read
    rw [parse, read]

theorem parse_eq_ok_remap_iff {tool : ToolId} : parse capacity line = .ok (.remap tool target) ↔
    ∃ command number place, Parted line [command, number, place] ∧
      sameIgnoringCase command "remap".toList = true ∧ Names number tool ∧ tool ≠ 0 ∧
      Places capacity place target := by
  rw [parse_eq_ok_iff]
  constructor
  · rintro ⟨parts, parted, commands⟩
    cases commands with
    | plain listed => simp [plainCommands] at listed
    | remap same names isTool places => exact ⟨_, _, _, parted, same, names, isTool, places⟩
  · rintro ⟨command, number, place, parted, same, names, isTool, places⟩
    exact ⟨_, parted, .remap same names isTool places⟩

theorem parse_of_longer (commands : Commands capacity parts decision) {extra : List Char}
    (parted : Parted line (parts ++ [extra])) : parse capacity line = .error .tooMany := by
  have read := commands.readDecision [extra]
  rw [← words_eq_iff.mpr parted] at read
  rw [parse, read]

/-- The lines that move a tool are those that consist of the command, a tool and a place. Such a move can be
planned, whatever is stored, and a command with a word more is none. -/
theorem parse_remap (summary : Summary) (line : List Char) :
    (∀ tool target, parse summary.capacity line = .ok (.remap tool target) ↔
      ∃ command number place, Parted line [command, number, place] ∧
        sameIgnoringCase command "remap".toList = true ∧ Names number tool ∧ tool ≠ 0 ∧
        Places summary.capacity place target) ∧
    (∀ tool target, parse summary.capacity line = .ok (.remap tool target) →
      tool ≠ 0 ∧ (∀ pocket, target.pocket? = some pocket → 1 ≤ pocket ∧ pocket ≤ summary.capacity) ∧
        ∀ layers : Layers, ∃ plan, layers.plan summary.capacity tool target = .ok plan) ∧
    (∀ decision parts extra longer, parse summary.capacity line = .ok decision → Parted line parts →
      Parted longer (parts ++ [extra]) → parse summary.capacity longer = .error .tooMany) := by
  refine ⟨fun _ _ => parse_eq_ok_remap_iff, fun tool target read => ?_, ?_⟩
  · obtain ⟨command, number, place, -, -, -, isTool, places⟩ := parse_eq_ok_remap_iff.mp read
    refine ⟨isTool, fun _ given => places.range given, fun layers => ⟨layers.draft tool target, ?_⟩⟩
    have allowed (pocket : Pocket) (given : target.pocket? = some pocket) :
        Magazine.has summary.capacity pocket = true :=
      Magazine.has_eq_true_iff.mpr (places.range given)
    exact Layers.plan_eq_ok_iff.mpr ⟨isTool, allowed, rfl⟩
  · intro decision parts extra longer read parted more
    obtain ⟨others, same, commands⟩ := parse_eq_ok_iff.mp read
    rw [← words_eq_iff] at same parted
    rw [← parted, same] at more
    exact parse_of_longer commands more

/-- A number may have a letter and a plus sign, and blanks are of any kind. -/
theorem parse_remap_lettered :
    let summary : Summary := ⟨"part.nc", ⟨[]⟩, 8, Table.empty⟩
    let line := "\u2003ReMaP  T+3 t2\r".toList
    parse summary.capacity line = .ok (.remap 3 (.inPocket 2)) ∧
      (∀ layers : Layers, ∃ plan, layers.plan summary.capacity 3 (.inPocket 2) = .ok plan) ∧
      parse summary.capacity (line ++ ['1']) = .error .tooMany := by
  intro summary line
  obtain ⟨moves, planned, longer⟩ := parse_remap summary line
  have parted : Parted line ["ReMaP".toList, "T+3".toList, "t2".toList] := words_eq_iff.mp (by decide +kernel)
  have more : Parted (line ++ ['1']) (["ReMaP".toList, "T+3".toList, "t2".toList] ++ [['1']]) :=
    words_eq_iff.mp (by decide +kernel)
  have tool : Names "T+3".toList 3 := .lettered (.inl rfl) (.positive rfl)
  have place : Places summary.capacity "t2".toList (.inPocket 2) :=
    .pocket (.lettered (.inr rfl) (.plain rfl)) (by decide) (by decide)
  have read := (moves 3 (.inPocket 2)).mpr ⟨_, _, _, parted, by decide +kernel, tool, by decide, place⟩
  exact ⟨read, (planned _ _ read).2.2, longer _ _ _ _ read parted more⟩

end ToolChanger.Console
