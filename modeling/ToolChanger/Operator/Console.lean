import ToolChanger.Operator.Basic
import ToolChanger.Text.Numeral

/-!
# The console

An operator at a terminal: a summary is printed, then one command is read from each line until one of them
is a decision. The end of the input, and a line that is not text, are no decision.
-/

namespace ToolChanger.Console

open Text

inductive CommandError where
  | empty
  | unknown (word : String)
  | usage
  | pocketRange (capacity : UInt32)
  | tooMany
  deriving DecidableEq, Repr

def CommandError.message : CommandError → String
  | empty => "Enter a command (help for a list)"
  | unknown word => "Unknown command '" ++ word ++ "' (help for a list)"
  | usage => "Usage: remap <tool> <pocket|none>"
  | pocketRange capacity => "Pocket must be 1..=" ++ toString capacity.toNat ++ " or none"
  | tooMany => "Too many arguments"

def help : String :=
  "Commands:\n" ++
  "  map                        translate with the mapping shown\n" ++
  "  bypass                     load the program unchanged\n" ++
  "  cancel                     do not load the program\n" ++
  "  refresh                    re-read the tool library and settings\n" ++
  "  remap <tool> <pocket|none> move a tool to a pocket, or out of the magazine\n"

def question : String := "[map/bypass/cancel/remap/refresh]> "

def readNumber (word : List Char) : Option UInt32 :=
  match word with
  | 'T' :: rest => readUInt32 rest
  | 't' :: rest => readUInt32 rest
  | _ => readUInt32 word

def readTarget (capacity : UInt32) (word : List Char) : Except CommandError Override :=
  if sameIgnoringCase word "none".toList || word == ['-'] then .ok .outOfMagazine
  else match (readNumber word).filter (Magazine.has capacity) with
    | some pocket => .ok (.inPocket pocket)
    | none => .error (.pocketRange capacity)

def readDecision (capacity : UInt32) : List (List Char) →
    Except CommandError (Decision × List (List Char))
  | [] => .error .empty
  | command :: rest =>
    match String.ofList (command.map Char.toLower) with
    | "map" | "m" => .ok (.map, rest)
    | "bypass" | "b" => .ok (.bypass, rest)
    | "cancel" | "c" => .ok (.cancel, rest)
    | "refresh" | "r" => .ok (.refresh none, rest)
    | "remap" =>
      match rest with
      | [] => .error .usage
      | tool :: rest =>
        match (readNumber tool).filter (· ≠ 0), rest with
        | some tool, target :: rest =>
          (readTarget capacity target).map fun target => (.remap tool target, rest)
        | _, _ => .error .usage
    | word => .error (.unknown word)

/-- The decision of a line. Words are left over in none. -/
def parse (capacity : UInt32) (line : List Char) : Except CommandError Decision :=
  match readDecision capacity (words line) with
  | .ok (decision, []) => .ok decision
  | .ok (_, _ :: _) => .error .tooMany
  | .error error => .error error

/-- What comes of one line: a decision, or text to print before the next line is read. -/
inductive Reaction where
  | decided (decision : Decision)
  | reply (text : String)

def react (capacity : UInt32) (line : List Char) : Reaction :=
  if sameIgnoringCase (trim line) "help".toList then .reply help
  else match parse capacity line with
    | .ok decision => .decided decision
    | .error error => .reply (error.message ++ "\n")

/-- A line of input. `none` is one that is not text. -/
abbrev Line := Option (List Char)

section

variable {α : Type} [DecidableEq α]

def cutAfter (stop : α) : List α → List (List α)
  | [] => []
  | c :: rest =>
    if c = stop then [stop] :: cutAfter stop rest
    else match cutAfter stop rest with
      | [] => [[c]]
      | line :: later => (c :: line) :: later

end

/-- The lines of some bytes, each with its end. The last one may have none. -/
def readLines (bytes : ByteArray) : List Line :=
  (cutAfter 10 bytes.data.toList).map fun line => (String.fromUTF8? ⟨line.toArray⟩).map String.toList

structure Asked where
  written : String
  decision : Option Decision
  rest : List Line

/-- Reads lines until there is a decision or no more text. -/
def readOn (capacity : UInt32) : List Line → Asked
  | [] => ⟨question, none, []⟩
  | none :: rest => ⟨question, none, rest⟩
  | some line :: rest =>
    match react capacity line with
    | .decided decision => ⟨question, some decision, rest⟩
    | .reply text =>
      let later := readOn capacity rest
      { later with written := question ++ text ++ later.written }

def ask (summary : Summary) (input : List Line) : Asked :=
  let asked := readOn summary.capacity input
  { asked with written := "\n" ++ summary.text ++ "\n\n" ++ asked.written }

theorem length_readOn_rest (capacity : UInt32) (input : List Line) (nonempty : input ≠ []) :
    (readOn capacity input).rest.length < input.length := by
  induction input with
  | nil => exact absurd rfl nonempty
  | cons line rest ih =>
    cases line with
    | none => simp [readOn]
    | some line =>
      simp only [readOn]
      split
      · simp
      · cases rest with
        | nil => simp [readOn]
        | cons second more =>
          have shorter := ih (by simp)
          simp only [List.length_cons] at shorter ⊢
          omega

variable {m : Type → Type} [Monad m]

def operator (input : List Line) : Operator m :=
  if nonempty : input = [] then .gone
  else
    .ready (pure ()) (fun summary => (ask summary input).decision) fun summary =>
      have : (ask summary input).rest.length < input.length :=
        length_readOn_rest summary.capacity input nonempty
      operator (ask summary input).rest
termination_by input.length

/-- All that is printed while some summaries are shown, one after the other. -/
def transcript : List Summary → List Line → String
  | [], _ => ""
  | summary :: rest, input =>
    let asked := ask summary input
    asked.written ++ transcript rest asked.rest

end ToolChanger.Console
