import ToolChanger.Proofs.Renumbering.Line
import ToolChanger.Proofs.Text.Pattern

/-!
# Which word is the first

The leftmost letter that begins a word (`StartsWord`) decides: where its digits have no value there is no word,
whatever comes later. A search for `wordPattern` finds the same place (`search_wordPattern`).
-/

namespace ToolChanger.Program

open Text

/-! ### As a pattern -/

/-- The part of the pattern that is the word, `(?P<letter>T)(?P<digits>\d+)` in either case, or that with `H`. -/
def groups (address : Address) : Pattern :=
  .both (.noted "letter" (.one address.matches)) (.noted "digits" (.many isDecimalDigit))

/-- The pattern with what stands before the word, `(?:^|[^A-Za-z])`, which belongs to the match. -/
def wordPattern (address : Address) : Pattern :=
  .both (.either .start (.one fun c => !isLetter c)) (groups address)

/-- The word that a match has noted, if its digits have a value. -/
def notedWord (text : List Char) (found : Attempt) : Option Word := do
  let letter ← found.noted.lookup "letter"
  let digits ← found.noted.lookup "digits"
  let value ← readUInt32 (slice text digits)
  return ⟨letter, digits, value⟩

def Place.attempt (place : Place) : Attempt where
  before := place.before ++ place.letter :: place.digits
  rest := place.after
  noted := [("digits", place.digitsSpan),
    ("letter", ⟨byteLength place.before, byteLength (place.before ++ [place.letter])⟩)]

def Place.behind (front : List Char) (place : Place) : Place := { place with before := front ++ place.before }

variable {address : Address} {text before : List Char}

theorem head?_groups_cons (address : Address) (before : List Char) (c : Char) (rest : List Char) :
    ((groups address).attempts ⟨before, c :: rest, []⟩).head? =
      if address.matches c && rest.head?.any isDecimalDigit then
        some (Place.attempt ⟨before, c, rest.takeWhile isDecimalDigit, rest.dropWhile isDecimalDigit⟩)
      else none := by
  cases letter : address.matches c with
  | false => simp [groups, Pattern.attempts, letter]
  | true =>
    have tried : (groups address).attempts ⟨before, c :: rest, []⟩ =
        (runs isDecimalDigit (before ++ [c]) rest).map fun run =>
          ⟨run.1, run.2, [("digits", ⟨byteLength (before ++ [c]), byteLength run.1⟩),
            ("letter", ⟨byteLength before, byteLength (before ++ [c])⟩)]⟩ := by
      simp [groups, Pattern.attempts, letter, Function.comp_def]
    rw [tried, List.head?_map, head?_runs, Bool.true_and]
    split
    · simp [Place.attempt, Place.digitsSpan, byteLength_append, byteLength, Nat.add_assoc]
    · rfl

theorem wordPattern_attempts_of_ne_nil (started : before ≠ []) (c : Char) (rest : List Char) :
    (wordPattern address).attempts ⟨before, c :: rest, []⟩ =
      if isLetter c then [] else (groups address).attempts ⟨before ++ [c], rest, []⟩ := by
  cases letter : isLetter c <;> simp [wordPattern, Pattern.attempts, started, letter]

theorem wordPattern_attempts_start (address : Address) (c : Char) (rest : List Char) :
    (wordPattern address).attempts ⟨[], c :: rest, []⟩ =
      (groups address).attempts ⟨[], c :: rest, []⟩ ++
        if isLetter c then [] else (groups address).attempts ⟨[c], rest, []⟩ := by
  cases letter : isLetter c <;> simp [wordPattern, Pattern.attempts, letter]

theorem searchFrom_wordPattern (address : Address) (before : List Char) (c : Char) (rest : List Char) :
    ((if isLetter c then [] else (groups address).attempts ⟨before ++ [c], rest, []⟩).head?.or
      ((wordPattern address).searchFrom (before ++ [c]) rest)) =
      (locateAfter address (isLetter c) rest).map fun place => (place.behind (before ++ [c])).attempt := by
  induction rest generalizing before c with
  | nil => cases isLetter c <;> simp [groups, wordPattern, Pattern.searchFrom, Pattern.attempts, locateAfter]
  | cons d rest ih =>
    rw [Pattern.searchFrom, wordPattern_attempts_of_ne_nil (by simp), ih, locateAfter]
    cases isLetter c with
    | true => simp [Place.behind, Function.comp_def]
    | false =>
      rw [if_neg Bool.false_ne_true, head?_groups_cons, Bool.not_false, Bool.true_and]
      cases address.matches d && rest.head?.any isDecimalDigit <;> simp [Place.behind, Function.comp_def]

theorem search_wordPattern (address : Address) (text : List Char) :
    (wordPattern address).search text = (locate address text).map Place.attempt := by
  unfold Pattern.search locate
  cases text with
  | nil => rfl
  | cons c rest =>
    have later := searchFrom_wordPattern address [] c rest
    rw [List.nil_append] at later
    rw [Pattern.searchFrom, wordPattern_attempts_start, List.head?_append, head?_groups_cons, Option.or_assoc,
      List.nil_append, later, locateAfter, Bool.not_false, Bool.true_and]
    cases address.matches c && rest.head?.any isDecimalDigit <;> simp [Place.behind, Function.comp_def]

theorem notedWord_attempt (place : Place) :
    notedWord (place.withNumber place.digits) place.attempt = place.word? := by
  have letter : place.attempt.noted.lookup "letter" =
      some ⟨byteLength place.before, byteLength (place.before ++ [place.letter])⟩ := by
    simp [Place.attempt, List.lookup_cons]
  have digits : place.attempt.noted.lookup "digits" = some place.digitsSpan := by simp [Place.attempt]
  unfold notedWord
  rw [letter, digits, Place.word?_eq]
  show (readUInt32 (slice _ place.digitsSpan)).bind _ = _
  rw [slice_withNumber]
  cases readUInt32 place.digits <;> rfl

theorem firstWord_eq_search (address : Address) (text : List Char) :
    firstWord address text = ((wordPattern address).search text).bind (notedWord text) := by
  rw [search_wordPattern, firstWord]
  cases located : locate address text with
  | none => rfl
  | some place =>
    obtain ⟨rfl, -⟩ := isFirst_of_locateAfter located
    exact (notedWord_attempt place).symm

/-! ### As a letter and its digits -/

/-- A letter begins a word: it is the address, no letter stands right before it, and a digit follows. -/
structure StartsWord (address : Address) (before : List Char) (letter : Char) (rest : List Char) : Prop where
  letter : address.matches letter = true
  free : before.getLast?.any isLetter = false
  digit : rest.head?.any isDecimalDigit = true

/-- The leftmost letter of a text that begins a word, with all the digits that follow it. -/
structure Place.Leftmost (address : Address) (text : List Char) (place : Place) : Prop where
  whole : text = place.before ++ place.letter :: (place.digits ++ place.after)
  starts : StartsWord address place.before place.letter (place.digits ++ place.after)
  first : ∀ before letter rest, text = before ++ letter :: rest → StartsWord address before letter rest →
    place.before.length ≤ before.length
  digits : ∀ c ∈ place.digits, isDecimalDigit c = true
  maximal : place.after.head?.any isDecimalDigit = false

theorem endsInLetter_false (text : List Char) : endsInLetter false text = text.getLast?.any isLetter := by
  rcases List.eq_nil_or_concat text with rfl | ⟨front, c, rfl⟩
  · rfl
  · simp [endsInLetter]

theorem locateAfter_eq_none_iff {afterLetter : Bool} : locateAfter address afterLetter text = none ↔
    ∀ before letter rest, text = before ++ letter :: rest → endsInLetter afterLetter before = false →
      address.matches letter = true → rest.head?.any isDecimalDigit = false := by
  induction text generalizing afterLetter with
  | nil => simp [locateAfter]
  | cons c others ih =>
    rw [locateAfter]
    split
    · rename_i here
      simp only [Bool.and_eq_true, Bool.not_eq_true'] at here
      obtain ⟨⟨free, letter⟩, digit⟩ := here
      simp only [reduceCtorEq, false_iff]
      intro none
      rw [none [] c others rfl free letter] at digit
      cases digit
    · rename_i elsewhere
      rw [Option.map_eq_none_iff, ih]
      constructor
      · intro later before letter rest whole free isAddress
        cases before with
        | nil =>
          obtain ⟨rfl, rfl⟩ := List.cons.inj whole
          have outside : afterLetter = false := free
          simpa [outside, isAddress] using elsewhere
        | cons d before =>
          obtain ⟨rfl, same⟩ := List.cons.inj whole
          exact later before letter rest same free isAddress
      · intro none before letter rest whole free isAddress
        exact none (c :: before) letter rest (by rw [whole]; rfl) free isAddress

theorem not_startsWord_of_locate (absent : locate address text = none) {before rest : List Char} {letter : Char}
    (whole : text = before ++ letter :: rest) : ¬ StartsWord address before letter rest := by
  intro starts
  have free : endsInLetter false before = false := by rw [endsInLetter_false, starts.free]
  have noDigit := locateAfter_eq_none_iff.mp absent before letter rest whole free starts.letter
  rw [starts.digit] at noDigit
  cases noDigit

theorem leftmost_of_locate {place : Place} (located : locate address text = some place) :
    place.Leftmost address text := by
  obtain ⟨whole, isFirst⟩ := isFirst_of_locateAfter located
  have free : place.before.getLast?.any isLetter = false := by rw [← endsInLetter_false, isFirst.free]
  refine ⟨whole, ⟨isFirst.letter, free, head?_any_of_digits isFirst.nonempty isFirst.digits _⟩, ?_,
    isFirst.digits, isFirst.maximal⟩
  intro before letter rest other starts
  by_contra shorter
  -- the earlier word would begin in what stands before the place, and go on there
  have cut : before ++ (letter :: rest) = place.before ++ (place.letter :: (place.digits ++ place.after)) :=
    other.symm.trans whole
  rcases List.append_eq_append_iff.mp cut with ⟨gap, same, later⟩ | ⟨gap, same, -⟩
  · cases gap with
    | nil => simp [same] at shorter
    | cons d gap =>
      obtain ⟨rfl, rfl⟩ := List.cons.inj later
      refine not_startsWord_of_locate isFirst.first same ⟨starts.letter, starts.free, ?_⟩
      rw [← head?_append_of_any (isFirst.breaks place.digits)]
      exact starts.digit
  · simp [same] at shorter

theorem readUInt32_of_digits {digits : List Char} (nonempty : digits ≠ [])
    (decimal : ∀ c ∈ digits, isDecimalDigit c = true) : readUInt32 digits =
      if digits.all Char.isDigit ∧ Nat.ofDigitChars 10 digits 0 < 0x100000000 then
        some (UInt32.ofNat (Nat.ofDigitChars 10 digits 0)) else none := by
  unfold readUInt32
  split
  · rename_i rest
    exact absurd (decimal '+' List.mem_cons_self) (by decide)
  · unfold digitsValue
    cases ascii : digits.all Char.isDigit <;> simp [nonempty, ascii]

/-- The word of a text is read at the leftmost letter that begins one, or there is none. -/
theorem firstWord_leftmost (address : Address) (text : List Char) :
    firstWord address text = ((wordPattern address).search text).bind (notedWord text) ∧
      ((∀ before letter rest, text = before ++ letter :: rest → ¬ StartsWord address before letter rest) ∧
          firstWord address text = none ∨
        ∃ place : Place, place.Leftmost address text ∧ firstWord address text =
          if place.digits.all Char.isDigit ∧ Nat.ofDigitChars 10 place.digits 0 < 0x100000000 then
            some
              { letter := ⟨byteLength place.before, byteLength (place.before ++ [place.letter])⟩
                digits := place.digitsSpan
                value := UInt32.ofNat (Nat.ofDigitChars 10 place.digits 0) }
          else none) := by
  refine ⟨firstWord_eq_search address text, ?_⟩
  cases located : locate address text with
  | none =>
    refine Or.inl ⟨fun _ _ _ whole => not_startsWord_of_locate located whole, ?_⟩
    rw [firstWord, located]
    rfl
  | some place =>
    refine Or.inr ⟨place, leftmost_of_locate located, ?_⟩
    have isFirst := (isFirst_of_locateAfter located).2
    rw [firstWord, located, Option.bind_some, Place.word?_eq,
      readUInt32_of_digits isFirst.nonempty isFirst.digits]
    split <;> rfl

/-- The digits need not be ASCII to make the first word one without a value. -/
example : firstWord .tool "T\u0663 T5".toList = none := by decide +kernel

end ToolChanger.Program
