import Mathlib.Data.List.TakeWhile
import ToolChanger.Program.ToolChange

/-!
# Where words stand

The first word of an address is described by its parts (`locateAfter_eq_some_iff`). Another number in a word
changes neither its place nor the number of another address nor whether there is a tool change command.
-/

namespace ToolChanger.Program

open Text

/-! ### Letters, digits and blanks -/

theorem Address.matches_iff {address : Address} {c : Char} :
    address.matches c = true ↔ (match address with
      | tool => c = 'T' ∨ c = 't'
      | height => c = 'H' ∨ c = 'h') := by
  cases address <;> simp [Address.matches]

theorem Address.letter_of_matches {address : Address} {c : Char} (letter : address.matches c = true) :
    isLetter c = true ∧ isDecimalDigit c = false ∧ extendsCommand c = false ∧ isBlank c = false ∧
      c ≠ 'M' ∧ c ≠ 'm' := by
  rw [Address.matches_iff] at letter
  cases address with
  | tool => rcases letter with rfl | rfl <;> decide
  | height => rcases letter with rfl | rfl <;> decide

theorem Address.eq_of_matches {address other : Address} {c : Char} (here : address.matches c = true)
    (there : other.matches c = true) : address = other := by
  rw [Address.matches_iff] at here there
  cases address <;> cases other <;> simp only at here there
  · rfl
  · rcases here with rfl | rfl <;> simp at there
  · rcases here with rfl | rfl <;> simp at there
  · rfl

theorem isLetter_cases {c : Char} (letter : isLetter c = true) :
    (65 ≤ c.toNat ∧ c.toNat ≤ 90 ∨ 97 ≤ c.toNat ∧ c.toNat ≤ 122) ∨ c = '\u212a' ∨ c = '\u017f' := by
  simp only [isLetter, Bool.or_eq_true, Bool.and_eq_true, decide_eq_true_eq, beq_iff_eq, or_assoc] at letter
  rcases letter with upper | lower | other
  · exact Or.inl (Or.inl upper)
  · exact Or.inl (Or.inr lower)
  · exact Or.inr other

theorem isBlank_of_isLetter {c : Char} (letter : isLetter c = true) : isBlank c = false := by
  rcases isLetter_cases letter with ascii | rfl | rfl
  · rw [Bool.eq_false_iff]
    intro blank
    have code := toNat_of_isBlank blank
    omega
  · decide
  · decide

theorem isLetter_of_isDecimalDigit {c : Char} (digit : isDecimalDigit c = true) : isLetter c = false := by
  obtain ⟨first, listed, range⟩ := List.any_eq_true.mp digit
  simp only [Bool.and_eq_true, decide_eq_true_eq] at range
  have apart : ∀ least ∈ digitZeros, least + 10 ≤ 65 ∨ 122 < least := by decide
  have outside := apart first listed
  rw [Bool.eq_false_iff]
  intro letter
  have value : c.toNat = c.val.toNat := rfl
  rcases isLetter_cases letter with ascii | rfl | rfl
  · omega
  · revert digit
    decide
  · revert digit
    decide

theorem isBlank_of_isDecimalDigit {c : Char} (digit : isDecimalDigit c = true) : isBlank c = false := by
  obtain ⟨first, listed, range⟩ := List.any_eq_true.mp digit
  simp only [Bool.and_eq_true, decide_eq_true_eq] at range
  have apart : ∀ least ∈ digitZeros, (32 < least ∧ least + 10 ≤ 0x85) ∨
      (0xa0 < least ∧ least + 10 ≤ 0x1680) ∨ (0x1680 < least ∧ least + 10 ≤ 0x2000) ∨
      (0x205f < least ∧ least + 10 ≤ 0x3000) ∨ 0x3000 < least := by decide
  have outside := apart first listed
  rw [Bool.eq_false_iff]
  intro blank
  have code := toNat_of_isBlank blank
  omega

/-! ### The search past the end of a text -/

/-- Whether what comes after a text follows a letter. -/
def endsInLetter (afterLetter : Bool) (text : List Char) : Bool :=
  text.foldl (fun _ c => isLetter c) afterLetter

theorem head?_append_of_any {p : Char → Bool} {front back : List Char} (breaks : back.head?.any p = false) :
    (front ++ back).head?.any p = front.head?.any p := by
  cases front with
  | nil => simpa using breaks
  | cons c rest => rfl

theorem takeWhile_append_of_any {p : Char → Bool} (front : List Char) {back : List Char}
    (breaks : back.head?.any p = false) :
    (front ++ back).takeWhile p = front.takeWhile p ∧
      (front ++ back).dropWhile p = front.dropWhile p ++ back := by
  induction front with
  | nil =>
    cases back with
    | nil => simp
    | cons c rest =>
      have other : p c = false := breaks
      simp [other]
  | cons c rest ih =>
    rw [List.cons_append, List.takeWhile_cons, List.takeWhile_cons, List.dropWhile_cons, List.dropWhile_cons,
      ih.1, ih.2]
    cases p c <;> simp

theorem locateAfter_append (address : Address) (afterLetter : Bool) (front : List Char) {back : List Char}
    (breaks : back.head?.any isDecimalDigit = false) :
    locateAfter address afterLetter (front ++ back) =
      match locateAfter address afterLetter front with
      | some place => some { place with after := place.after ++ back }
      | none => (locateAfter address (endsInLetter afterLetter front) back).map fun place =>
          { place with before := front ++ place.before } := by
  induction front generalizing afterLetter with
  | nil => simp [locateAfter, endsInLetter]
  | cons c rest ih =>
    obtain ⟨sameRun, sameRest⟩ := takeWhile_append_of_any rest breaks
    rw [List.cons_append, locateAfter, locateAfter, head?_append_of_any breaks, ih, sameRun, sameRest]
    split
    · rfl
    · have ends : endsInLetter afterLetter (c :: rest) = endsInLetter (isLetter c) rest := rfl
      rw [ends]
      cases locateAfter address (isLetter c) rest with
      | some place => rfl
      | none => simp [Option.map_map, Function.comp_def]

theorem isSix_eq (text : List Char) : isSix text =
    decide (text.takeWhile extendsCommand = ['6'] ∨ text.takeWhile extendsCommand = ['0', '6']) := by
  have six : extendsCommand '6' = true := by decide
  have zero : extendsCommand '0' = true := by decide
  unfold isSix
  split
  · rename_i rest
    cases rest <;> simp [six]
  · rename_i rest
    cases rest <;> simp [six, zero]
  · rename_i notSix notZeroSix
    symm
    rw [decide_eq_false_iff_not]
    -- the run would begin the text
    have cut := List.takeWhile_append_dropWhile (p := extendsCommand) (l := text)
    rintro (run | run)
    · rw [run] at cut
      exact notSix _ cut.symm
    · rw [run] at cut
      exact notZeroSix _ cut.symm

theorem isSix_append (front : List Char) {back : List Char} (breaks : back.head?.any extendsCommand = false) :
    isSix (front ++ back) = isSix front := by
  rw [isSix_eq, isSix_eq, (takeWhile_append_of_any front breaks).1]

theorem commandAfter_append (afterLetter : Bool) (front : List Char) {back : List Char}
    (breaks : back.head?.any extendsCommand = false) :
    commandAfter afterLetter (front ++ back) =
      (commandAfter afterLetter front || commandAfter (endsInLetter afterLetter front) back) := by
  induction front generalizing afterLetter with
  | nil => simp [commandAfter, endsInLetter]
  | cons c rest ih =>
    rw [List.cons_append, commandAfter, commandAfter, isSix_append rest breaks, ih, Bool.or_assoc]
    rfl

/-! ### The first word of an address -/

namespace Place

/-- The text of a place with another number in its word. -/
def withNumber (place : Place) (number : List Char) : List Char :=
  place.before ++ place.letter :: (number ++ place.after)

/-- What makes a place that of the first word of an address. -/
structure IsFirst (address : Address) (afterLetter : Bool) (place : Place) : Prop where
  letter : address.matches place.letter = true
  free : endsInLetter afterLetter place.before = false
  first : locateAfter address afterLetter place.before = none
  nonempty : place.digits ≠ []
  digits : ∀ c ∈ place.digits, isDecimalDigit c = true
  maximal : place.after.head?.any isDecimalDigit = false

end Place

variable {address other : Address} {afterLetter : Bool} {text number : List Char} {place : Place}

theorem head?_any_of_digits (nonempty : number ≠ []) (digits : ∀ c ∈ number, isDecimalDigit c = true)
    (back : List Char) : (number ++ back).head?.any isDecimalDigit = true := by
  cases number with
  | nil => exact absurd rfl nonempty
  | cons c rest => exact digits c List.mem_cons_self

theorem Place.IsFirst.breaks (isFirst : place.IsFirst address afterLetter) (number : List Char) :
    (place.letter :: (number ++ place.after)).head?.any isDecimalDigit = false :=
  (Address.letter_of_matches isFirst.letter).2.1

theorem isFirst_of_locateAfter (found : locateAfter address afterLetter text = some place) :
    text = place.withNumber place.digits ∧ place.IsFirst address afterLetter := by
  induction text generalizing afterLetter place with
  | nil => cases found
  | cons c rest ih =>
    rw [locateAfter] at found
    split at found
    · rename_i here
      simp only [Bool.and_eq_true, Bool.not_eq_true'] at here
      obtain ⟨⟨free, letter⟩, digit⟩ := here
      obtain rfl := Option.some.inj found
      refine ⟨?_, letter, free, rfl, ?_, fun d member => List.mem_takeWhile_imp member, ?_⟩
      · simp [Place.withNumber]
      · cases rest with
        | nil => cases digit
        | cons d rest =>
          have first : isDecimalDigit d = true := digit
          simp [first]
      · have stops := List.head?_dropWhile_not isDecimalDigit rest
        show (rest.dropWhile isDecimalDigit).head?.any isDecimalDigit = false
        revert stops
        cases (rest.dropWhile isDecimalDigit).head? with
        | none => exact fun _ => rfl
        | some d => exact id
    · rename_i elsewhere
      obtain ⟨later, located, rfl⟩ := Option.map_eq_some_iff.mp found
      obtain ⟨rfl, isFirst⟩ := ih located
      refine ⟨rfl, isFirst.letter, isFirst.free, ?_, isFirst.nonempty, isFirst.digits, isFirst.maximal⟩
      unfold Place.withNumber at elsewhere
      rw [head?_append_of_any (isFirst.breaks later.digits)] at elsewhere
      show locateAfter address afterLetter (c :: later.before) = none
      rw [locateAfter, if_neg elsewhere, isFirst.first]
      rfl

theorem locateAfter_withNumber (isFirst : place.IsFirst address afterLetter) (nonempty : number ≠ [])
    (digits : ∀ c ∈ number, isDecimalDigit c = true) :
    locateAfter address afterLetter (place.withNumber number) = some { place with digits := number } := by
  have here : (!false && address.matches place.letter &&
      (number ++ place.after).head?.any isDecimalDigit) = true := by
    rw [isFirst.letter, head?_any_of_digits nonempty digits]
    rfl
  have noneLeft : place.after.takeWhile isDecimalDigit = [] ∧
      place.after.dropWhile isDecimalDigit = place.after := by
    have cut := takeWhile_append_of_any [] isFirst.maximal
    exact cut
  unfold Place.withNumber
  rw [locateAfter_append _ _ _ (isFirst.breaks number), isFirst.first, isFirst.free]
  simp only
  rw [locateAfter, if_pos here, List.takeWhile_append_of_pos digits, List.dropWhile_append_of_pos digits,
    noneLeft.1, noneLeft.2]
  simp

theorem locateAfter_eq_some_iff : locateAfter address afterLetter text = some place ↔
    text = place.withNumber place.digits ∧ place.IsFirst address afterLetter := by
  constructor
  · exact isFirst_of_locateAfter
  · rintro ⟨rfl, isFirst⟩
    exact locateAfter_withNumber isFirst isFirst.nonempty isFirst.digits

/-! ### Another number in a word -/

theorem locateAfter_cons_of_other (afterLetter : Bool) {c : Char} (other : address.matches c = false)
    (rest : List Char) : locateAfter address afterLetter (c :: rest) =
      (locateAfter address (isLetter c) rest).map fun place =>
        { place with before := c :: place.before } := by
  rw [locateAfter, other, Bool.and_false, Bool.false_and, if_neg Bool.false_ne_true]

theorem commandAfter_cons_of_ne (afterLetter : Bool) {c : Char} (other : c ≠ 'M' ∧ c ≠ 'm')
    (rest : List Char) : commandAfter afterLetter (c :: rest) = commandAfter (isLetter c) rest := by
  have noCommand : (c == 'M' || c == 'm') = false := by
    rw [Bool.or_eq_false_iff, beq_eq_false_iff_ne, beq_eq_false_iff_ne]
    exact other
  rw [commandAfter, noCommand, Bool.and_false, Bool.false_and, Bool.false_or]

theorem matches_of_isDecimalDigit (address : Address) {c : Char} (digit : isDecimalDigit c = true) :
    address.matches c = false := by
  cases letter : address.matches c with
  | false => rfl
  | true => rw [(Address.letter_of_matches letter).2.1] at digit; cases digit

theorem locateAfter_digits (address : Address) (afterLetter : Bool) (nonempty : number ≠ [])
    (digits : ∀ c ∈ number, isDecimalDigit c = true) (back : List Char) :
    locateAfter address afterLetter (number ++ back) = (locateAfter address false back).map fun place =>
      { place with before := number ++ place.before } := by
  induction number generalizing afterLetter with
  | nil => exact absurd rfl nonempty
  | cons c rest ih =>
    have digit := digits c List.mem_cons_self
    rw [List.cons_append, locateAfter_cons_of_other _ (matches_of_isDecimalDigit address digit),
      isLetter_of_isDecimalDigit digit]
    cases rest with
    | nil => rfl
    | cons d rest =>
      rw [ih false (by simp) fun e member => digits e (List.mem_cons_of_mem c member), Option.map_map]
      rfl

theorem commandAfter_digits (afterLetter : Bool) (nonempty : number ≠ [])
    (digits : ∀ c ∈ number, isDecimalDigit c = true) (back : List Char) :
    commandAfter afterLetter (number ++ back) = commandAfter false back := by
  induction number generalizing afterLetter with
  | nil => exact absurd rfl nonempty
  | cons c rest ih =>
    have digit := digits c List.mem_cons_self
    have other : c ≠ 'M' ∧ c ≠ 'm' := by
      constructor <;> (rintro rfl; revert digit; decide)
    rw [List.cons_append, commandAfter_cons_of_ne _ other, isLetter_of_isDecimalDigit digit]
    cases rest with
    | nil => rfl
    | cons d rest => exact ih false (by simp) fun e member => digits e (List.mem_cons_of_mem c member)

theorem locateAfter_withNumber_of_ne (isFirst : place.IsFirst address afterLetter)
    (different : other ≠ address) (nonempty : number ≠ []) (digits : ∀ c ∈ number, isDecimalDigit c = true) :
    locateAfter other afterLetter (place.withNumber number) =
      match locateAfter other afterLetter place.before with
      | some earlier => some { earlier with
          after := earlier.after ++ place.letter :: (number ++ place.after) }
      | none => (locateAfter other false place.after).map fun later =>
          { later with before := place.before ++ place.letter :: (number ++ later.before) } := by
  have notHere : other.matches place.letter = false := by
    cases letter : other.matches place.letter with
    | false => rfl
    | true => exact absurd (Address.eq_of_matches letter isFirst.letter) different
  unfold Place.withNumber
  rw [locateAfter_append _ _ _ (isFirst.breaks number)]
  cases locateAfter other afterLetter place.before with
  | some earlier => rfl
  | none =>
    simp only
    rw [locateAfter_cons_of_other _ notHere, locateAfter_digits other _ nonempty digits, Option.map_map,
      Option.map_map]
    rfl

theorem digits_locateAfter_withNumber (isFirst : place.IsFirst address afterLetter)
    (different : other ≠ address) (nonempty : number ≠ []) (digits : ∀ c ∈ number, isDecimalDigit c = true) :
    (locateAfter other afterLetter (place.withNumber number)).map (·.digits) =
      (locateAfter other afterLetter (place.withNumber place.digits)).map (·.digits) := by
  rw [locateAfter_withNumber_of_ne isFirst different nonempty digits,
    locateAfter_withNumber_of_ne isFirst different isFirst.nonempty isFirst.digits]
  cases locateAfter other afterLetter place.before with
  | some earlier => rfl
  | none => simp [Option.map_map, Function.comp_def]

theorem commandAfter_withNumber (isFirst : place.IsFirst address afterLetter) (nonempty : number ≠ [])
    (digits : ∀ c ∈ number, isDecimalDigit c = true) :
    commandAfter afterLetter (place.withNumber number) =
      (commandAfter afterLetter place.before || commandAfter false place.after) := by
  obtain ⟨-, -, noExtension, -, other⟩ := Address.letter_of_matches isFirst.letter
  have breaks : (place.letter :: (number ++ place.after)).head?.any extendsCommand = false := noExtension
  unfold Place.withNumber
  rw [commandAfter_append _ _ breaks, commandAfter_cons_of_ne _ other, commandAfter_digits _ nonempty digits]

/-- Another number in a word neither makes nor breaks a tool change command. -/
theorem hasChangeCommand_withNumber (isFirst : place.IsFirst address false) (nonempty : number ≠ [])
    (digits : ∀ c ∈ number, isDecimalDigit c = true) :
    hasChangeCommand (place.withNumber number) = hasChangeCommand (place.withNumber place.digits) := by
  unfold hasChangeCommand
  rw [commandAfter_withNumber isFirst nonempty digits,
    commandAfter_withNumber isFirst isFirst.nonempty isFirst.digits]

/-! ### Blanks before a text -/

theorem matches_of_isBlank (address : Address) {c : Char} (blank : isBlank c = true) :
    address.matches c = false := by
  cases letter : address.matches c with
  | false => rfl
  | true =>
    rw [(Address.letter_of_matches letter).2.2.2.1] at blank
    cases blank

theorem isLetter_of_isBlank {c : Char} (blank : isBlank c = true) : isLetter c = false := by
  cases letter : isLetter c with
  | false => rfl
  | true =>
    rw [isBlank_of_isLetter letter] at blank
    cases blank

theorem locateAfter_cons_of_isBlank (address : Address) (afterLetter : Bool) {c : Char}
    (blank : isBlank c = true) (rest : List Char) : locateAfter address afterLetter (c :: rest) =
      (locateAfter address false rest).map fun place => { place with before := c :: place.before } := by
  rw [locateAfter_cons_of_other _ (matches_of_isBlank address blank), isLetter_of_isBlank blank]

theorem commandAfter_cons_of_isBlank (afterLetter : Bool) {c : Char} (blank : isBlank c = true)
    (rest : List Char) : commandAfter afterLetter (c :: rest) = commandAfter false rest := by
  have other : c ≠ 'M' ∧ c ≠ 'm' := by
    constructor <;> (rintro rfl; revert blank; decide)
  rw [commandAfter_cons_of_ne _ other, isLetter_of_isBlank blank]

theorem locateAfter_blank_append (address : Address) {front : List Char} (blank : allBlank front = true)
    (back : List Char) : locateAfter address false (front ++ back) =
      (locateAfter address false back).map fun place => { place with before := front ++ place.before } := by
  induction front with
  | nil => simp
  | cons c rest ih =>
    rw [allBlank_cons, Bool.and_eq_true] at blank
    rw [List.cons_append, locateAfter_cons_of_isBlank _ _ blank.1, ih blank.2, Option.map_map]
    rfl

theorem commandAfter_blank_append {front : List Char} (blank : allBlank front = true) (back : List Char) :
    commandAfter false (front ++ back) = commandAfter false back := by
  induction front with
  | nil => rfl
  | cons c rest ih =>
    rw [allBlank_cons, Bool.and_eq_true] at blank
    rw [List.cons_append, commandAfter_cons_of_isBlank _ blank.1]
    exact ih blank.2

/-! ### Words of a line -/

def number? (address : Address) (line : List Char) : Option UInt32 :=
  (firstWord address (mask line)).map (·.value)

theorem number?_eq (address : Address) (line : List Char) :
    number? address line = ((locate address (mask line)).map (·.digits)).bind readUInt32 := by
  unfold number? firstWord
  cases locate address (mask line) with
  | none => rfl
  | some place =>
    show ((readUInt32 place.digits).map _).map _ = readUInt32 place.digits
    rw [Option.map_map]
    exact Option.map_id'

theorem toolChange_eq_number? (line : List Char) : toolChange line =
    if hasChangeCommand (mask line) then (number? .tool line).filter (· ≠ 0) else none := rfl

theorem toolChange_congr {line other : List Char}
    (command : hasChangeCommand (mask line) = hasChangeCommand (mask other))
    (number : number? .tool line = number? .tool other) : toolChange line = toolChange other := by
  rw [toolChange_eq_number?, toolChange_eq_number?, command, number]

end ToolChanger.Program
