import ToolChanger.Proofs.Program.Lines
import ToolChanger.Proofs.Program.Mask
import ToolChanger.Proofs.Program.Word
import ToolChanger.Renumbering

/-!
# One line renumbered

The words of a line are found in its mask and exchanged in the line itself, where they stand in the same place
(`exists_shows`).
-/

namespace ToolChanger

open Program Text

namespace Program

/-! ### Places, and texts with another number in them -/

theorem mem_withNumber {place : Place} {number : List Char} {c : Char} :
    c ∈ place.withNumber number ↔ c ∈ place.before ∨ c = place.letter ∨ c ∈ number ∨ c ∈ place.after := by
  simp [Place.withNumber]

theorem notMem_withNumber {place : Place} {old number : List Char} {c : Char}
    (absent : c ∉ place.withNumber old) (unnumbered : c ∉ number) : c ∉ place.withNumber number := by
  rw [mem_withNumber] at absent
  intro member
  rcases mem_withNumber.mp member with before | letter | inside | after
  · exact absent (Or.inl before)
  · exact absent (Or.inr (Or.inl letter))
  · exact unnumbered inside
  · exact absent (Or.inr (Or.inr (Or.inr after)))

def Place.digitsSpan (place : Place) : Span :=
  ⟨byteLength (place.before ++ [place.letter]),
    byteLength (place.before ++ [place.letter]) + byteLength place.digits⟩

theorem Place.word?_eq (place : Place) : place.word? = (readUInt32 place.digits).map fun value =>
    { letter := ⟨byteLength place.before, byteLength (place.before ++ [place.letter])⟩
      digits := place.digitsSpan
      value } := by
  unfold Place.word? Place.digitsSpan
  rw [byteLength_append]
  rfl

theorem Place.word?_eq_some_iff {place : Place} {word : Word} : place.word? = some word ↔
    word.letter = ⟨byteLength place.before, byteLength (place.before ++ [place.letter])⟩ ∧
      word.digits = place.digitsSpan ∧ readUInt32 place.digits = some word.value := by
  rw [Place.word?_eq, Option.map_eq_some_iff]
  constructor
  · rintro ⟨value, read, rfl⟩
    exact ⟨rfl, rfl, read⟩
  · rintro ⟨letter, digits, read⟩
    exact ⟨word.value, read, by rw [← letter, ← digits]⟩

theorem splice_withNumber (place : Place) (number : List Char) :
    splice (place.withNumber place.digits) place.digitsSpan number = place.withNumber number := by
  have cut (digits : List Char) :
      place.withNumber digits = (place.before ++ [place.letter]) ++ (digits ++ place.after) := by
    simp [Place.withNumber]
  rw [cut, cut, Place.digitsSpan, splice_append]

theorem slice_withNumber (place : Place) :
    slice (place.withNumber place.digits) place.digitsSpan = place.digits := by
  have cut : place.withNumber place.digits =
      (place.before ++ [place.letter]) ++ (place.digits ++ place.after) := by
    simp [Place.withNumber]
  rw [cut, Place.digitsSpan, slice_append]

theorem isDecimalDigit_of_numeral {n : Nat} {c : Char} (member : c ∈ numeral n) : isDecimalDigit c = true :=
  isDecimalDigit_of_isDigit (List.all_eq_true.mp (numeral_isDigit n) c member)

theorem ne_of_isDecimalDigit {c d : Char} (digit : isDecimalDigit c = true)
    (other : isDecimalDigit d = false) : c ≠ d := by
  rintro rfl
  rw [digit] at other
  cases other

theorem notMem_of_digits {number : List Char} {c : Char} (other : isDecimalDigit c = false)
    (digits : ∀ d ∈ number, isDecimalDigit d = true) : c ∉ number :=
  fun member => ne_of_isDecimalDigit (digits c member) other rfl

theorem plain_of_isDecimalDigit {c : Char} (digit : isDecimalDigit c = true) : c ≠ '(' ∧ c ≠ ';' :=
  ⟨ne_of_isDecimalDigit digit (by decide), ne_of_isDecimalDigit digit (by decide)⟩

/-! ### Words of the mask in the line -/

/-- A place in a line and the same place in the line's mask. -/
structure Shows (raw place : Place) : Prop where
  before : mask raw.before = place.before
  code : Zone.code.after raw.before = .code
  letter : raw.letter = place.letter
  plain : raw.letter ≠ '(' ∧ raw.letter ≠ ';'
  digits : raw.digits = place.digits
  after : mask raw.after = place.after

theorem exists_shows {address : Address} {line : List Char} {place : Place}
    (found : locate address (mask line) = some place) :
    ∃ raw : Place, line = raw.withNumber raw.digits ∧ Shows raw place := by
  obtain ⟨masked, isFirst⟩ := isFirst_of_locateAfter found
  have ink : ∀ c ∈ place.letter :: place.digits, isBlank c = false := by
    intro c member
    rcases List.mem_cons.mp member with rfl | digit
    · exact isBlank_of_isLetter (Address.letter_of_matches isFirst.letter).1
    · exact isBlank_of_isDecimalDigit (isFirst.digits c digit)
  have shown : maskFrom .code line = place.before ++ (place.letter :: place.digits ++ place.after) := masked
  obtain ⟨front, back, rfl, before, code, after⟩ := exists_of_maskFrom_eq_append shown (by simp) ink
  have listed : place.letter ∈ maskFrom .code (front ++ (place.letter :: place.digits ++ back)) := by
    rw [shown]
    simp
  have plain := plain_of_mem_maskFrom listed
  exact ⟨⟨front, place.letter, place.digits, back⟩, rfl, before, code, rfl, plain, rfl, after⟩

theorem Shows.digitsSpan {raw place : Place} (seen : Shows raw place) :
    place.digitsSpan = raw.digitsSpan := by
  have offset : byteLength (mask raw.before) = byteLength raw.before := byteLength_maskFrom .code raw.before
  unfold Place.digitsSpan
  rw [byteLength_append, byteLength_append, ← seen.before, offset, seen.letter, seen.digits]

theorem mask_withNumber {raw place : Place} (seen : Shows raw place) {number : List Char}
    (plain : ∀ c ∈ number, c ≠ '(' ∧ c ≠ ';') : mask (raw.withNumber number) = place.withNumber number := by
  have word : ∀ c ∈ raw.letter :: number, c ≠ '(' ∧ c ≠ ';' := by
    intro c member
    rcases List.mem_cons.mp member with rfl | digit
    · exact seen.plain
    · exact plain c digit
  obtain ⟨same, code⟩ := maskFrom_code_of_plain word
  have cut : raw.withNumber number = raw.before ++ ((raw.letter :: number) ++ raw.after) := rfl
  unfold mask
  rw [cut, maskFrom_append, maskFrom_append, seen.code, same, code]
  show mask raw.before ++ ((raw.letter :: number) ++ mask raw.after) = _
  rw [seen.before, seen.after, seen.letter]
  rfl

end Program

namespace Renumbering

variable {pockets : Table Pocket} {address other : Address} {label line text : List Char} {place : Place}

/-! ### Code -/

/-- The number that stands for a tool's number after renumbering. -/
def translate (pockets : Table Pocket) (tool : ToolId) : UInt32 := (pockets.get? tool).getD tool

theorem replaceWord_eq_some (replaced : replaceWord pockets address line = some text) :
    ∃ raw place value pocket, locate address (mask line) = some place ∧
      line = raw.withNumber raw.digits ∧ Shows raw place ∧ readUInt32 place.digits = some value ∧
      pockets.get? value = some pocket ∧ text = raw.withNumber (numeral pocket.toNat) := by
  obtain ⟨⟨word, pocket⟩, mapped, rfl⟩ := Option.map_eq_some_iff.mp replaced
  unfold mappedWord at mapped
  obtain ⟨first, found, mapped⟩ := Option.bind_eq_some_iff.mp mapped
  obtain ⟨target, assigned, same⟩ := Option.bind_eq_some_iff.mp mapped
  obtain ⟨rfl, rfl⟩ := Prod.mk.inj (Option.some.inj same)
  obtain ⟨place, located, read⟩ := Option.bind_eq_some_iff.mp found
  obtain ⟨-, span, value⟩ := Place.word?_eq_some_iff.mp read
  obtain ⟨raw, whole, seen⟩ := exists_shows located
  refine ⟨raw, place, first.value, target, located, whole, seen, value, assigned, ?_⟩
  show splice line first.digits (numeral target.toNat) = _
  rw [span, seen.digitsSpan, whole, splice_withNumber]

theorem mask_of_replaceWord (replaced : replaceWord pockets address line = some text) :
    ∃ (place : Place) (value : UInt32) (pocket : Pocket), place.IsFirst address false ∧
      mask line = place.withNumber place.digits ∧ readUInt32 place.digits = some value ∧
      pockets.get? value = some pocket ∧ mask text = place.withNumber (numeral pocket.toNat) := by
  obtain ⟨raw, place, value, pocket, located, rfl, seen, read, assigned, rfl⟩ := replaceWord_eq_some replaced
  obtain ⟨masked, isFirst⟩ := isFirst_of_locateAfter located
  refine ⟨place, value, pocket, isFirst, masked, read, assigned, mask_withNumber seen fun c member => ?_⟩
  exact plain_of_isDecimalDigit (isDecimalDigit_of_numeral member)

theorem number?_of_replaceWord (replaced : replaceWord pockets address line = some text) :
    ∃ value pocket, number? address line = some value ∧ pockets.get? value = some pocket ∧
      number? address text = some pocket := by
  obtain ⟨place, value, pocket, isFirst, before, read, assigned, after⟩ := mask_of_replaceWord replaced
  refine ⟨value, pocket, ?_, assigned, ?_⟩
  · rw [number?_eq, before, locate, locateAfter_withNumber isFirst isFirst.nonempty isFirst.digits]
    exact read
  · rw [number?_eq, after, locate, locateAfter_withNumber isFirst (numeral_ne_nil _)
      fun c member => isDecimalDigit_of_numeral member]
    exact readUInt32_numeral pocket

theorem number?_of_replaceWord_of_ne (replaced : replaceWord pockets address line = some text)
    (different : other ≠ address) : number? other text = number? other line := by
  obtain ⟨place, value, pocket, isFirst, before, read, assigned, after⟩ := mask_of_replaceWord replaced
  rw [number?_eq, number?_eq, before, after, locate, locate, digits_locateAfter_withNumber isFirst different
    (numeral_ne_nil _) fun c member => isDecimalDigit_of_numeral member]

theorem hasChangeCommand_of_replaceWord (replaced : replaceWord pockets address line = some text) :
    hasChangeCommand (mask text) = hasChangeCommand (mask line) := by
  obtain ⟨place, value, pocket, isFirst, before, read, assigned, after⟩ := mask_of_replaceWord replaced
  rw [before, after, hasChangeCommand_withNumber isFirst (numeral_ne_nil _)
    fun c member => isDecimalDigit_of_numeral member]

theorem replaceWord_eq_none_iff : replaceWord pockets address line = none ↔
    ∀ value, number? address line = some value → pockets.get? value = none := by
  unfold replaceWord mappedWord number?
  cases firstWord address (mask line) with
  | none => simp
  | some word =>
    cases assigned : pockets.get? word.value <;> simp [assigned]

/-! ### Comments -/

theorem annotate_eq_some_iff : annotate pockets label line = some text ↔
    ∃ place value pocket, locate .tool line = some place ∧ readUInt32 place.digits = some value ∧
      pockets.get? value = some pocket ∧ text = place.withNumber (note label pocket place.digits) := by
  unfold annotate firstWord
  cases located : locate .tool line with
  | none => simp
  | some place =>
    obtain ⟨rfl, -⟩ := isFirst_of_locateAfter located
    cases read : place.word? with
    | none =>
      have unread : readUInt32 place.digits = none := Option.map_eq_none_iff.mp read
      simp [read, unread]
    | some word =>
      obtain ⟨-, span, value⟩ := Place.word?_eq_some_iff.mp read
      cases assigned : pockets.get? word.value with
      | none => simp [read, value, assigned]
      | some pocket =>
        simp [read, value, assigned, span, slice_withNumber, splice_withNumber, eq_comm]

theorem notMem_note {number : List Char} {c : Char} (other : isDecimalDigit c = false)
    (unlabelled : c ∉ label) (unframed : c ∉ " [".toList ++ ": tool ".toList ++ [']']) (pocket : Pocket)
    (digits : ∀ d ∈ number, isDecimalDigit d = true) : c ∉ note label pocket number := by
  have inNumeral : c ∉ numeral pocket.toNat :=
    notMem_of_digits other fun _ member => isDecimalDigit_of_numeral member
  have inNumber : c ∉ number := notMem_of_digits other digits
  simp only [List.mem_append, not_or] at unframed
  unfold note
  simp only [List.mem_append, not_or]
  exact ⟨⟨⟨⟨⟨inNumeral, unframed.1.1⟩, unlabelled⟩, unframed.1.2⟩, inNumber⟩, unframed.2⟩

theorem level_of_isDecimalDigit {c : Char} (digit : isDecimalDigit c = true) : c ≠ '(' ∧ c ≠ ')' :=
  ⟨ne_of_isDecimalDigit digit (by decide), ne_of_isDecimalDigit digit (by decide)⟩

theorem level_of_matches {address : Address} {c : Char} (letter : address.matches c = true) :
    c ≠ '(' ∧ c ≠ ')' := by
  have isLetter := (Address.letter_of_matches letter).1
  constructor <;> (rintro rfl; revert isLetter; decide)

theorem hidden_of_isCommentOnly (comment : isCommentOnly line = true)
    (located : locate .tool line = some place) :
    let zone := Zone.code.after place.before
    zone ≠ .code ∧ allBlank (mask place.before) = true ∧ allBlank (maskFrom zone place.after) = true ∧
      Zone.code.after line = zone.after place.after := by
  intro zone
  obtain ⟨rfl, isFirst⟩ := isFirst_of_locateAfter located
  have hidden := (Bool.and_eq_true_iff.mp comment).2
  have cut : place.withNumber place.digits =
      place.before ++ ((place.letter :: place.digits) ++ place.after) := rfl
  unfold mask at hidden
  rw [cut, maskFrom_append, maskFrom_append, allBlank_append, allBlank_append, Bool.and_eq_true,
    Bool.and_eq_true] at hidden
  obtain ⟨before, word, after⟩ := hidden
  have inside : zone ≠ .code := by
    intro code
    have plain : place.letter ≠ '(' ∧ place.letter ≠ ';' := by
      have letter := (Address.letter_of_matches isFirst.letter).1
      constructor <;> (intro same; rw [same] at letter; revert letter; decide)
    have ink := isBlank_of_isLetter (Address.letter_of_matches isFirst.letter).1
    have shown := veil_of_shown (Zone.hides_eq_false_iff.mpr ⟨code, plain⟩)
    rw [maskFrom, allBlank_append, Bool.and_eq_true, shown, allBlank_cons, ink] at word
    exact absurd word.1 (by simp)
  have level : ∀ c ∈ place.letter :: place.digits, c ≠ '(' ∧ c ≠ ')' := by
    intro c member
    rcases List.mem_cons.mp member with rfl | digit
    · exact level_of_matches isFirst.letter
    · exact level_of_isDecimalDigit (isFirst.digits c digit)
  have same := after_eq_self inside level
  rw [same] at after
  refine ⟨inside, before, after, ?_⟩
  rw [cut, Zone.after_append, Zone.after_append, same]

/-! ### Lines -/

theorem newline_notMem_replaceWord (pockets : Table Pocket) (address : Address) (unbroken : '\n' ∉ line) :
    '\n' ∉ (replaceWord pockets address line).getD line := by
  cases replaced : replaceWord pockets address line with
  | none => exact unbroken
  | some text =>
    obtain ⟨raw, place, value, pocket, -, rfl, -, -, -, rfl⟩ := replaceWord_eq_some replaced
    exact notMem_withNumber unbroken
      (notMem_of_digits (by decide) fun _ member => isDecimalDigit_of_numeral member)

theorem newline_notMem_annotate (unbroken : '\n' ∉ line) (unlabelled : '\n' ∉ label)
    (annotated : annotate pockets label line = some text) : '\n' ∉ text := by
  obtain ⟨place, value, pocket, located, -, -, rfl⟩ := annotate_eq_some_iff.mp annotated
  obtain ⟨rfl, isFirst⟩ := isFirst_of_locateAfter located
  exact notMem_withNumber unbroken
    (notMem_note (by decide) unlabelled (by decide +kernel) pocket isFirst.digits)

theorem newline_notMem_line (pockets : Table Pocket) (unbroken : '\n' ∉ line) (unlabelled : '\n' ∉ label) :
    '\n' ∉ (Renumbering.line pockets label line).text := by
  unfold Renumbering.line
  split
  · exact unbroken
  · split
    · cases annotated : annotate pockets label line with
      | none => exact unbroken
      | some text => exact newline_notMem_annotate unbroken unlabelled annotated
    · exact newline_notMem_replaceWord pockets .height (newline_notMem_replaceWord pockets .tool unbroken)

theorem line_of_isEmpty (empty : pockets.isEmpty = true) (label line : List Char) :
    Renumbering.line pockets label line = { text := line } := by
  have noPocket (tool : ToolId) : pockets.get? tool = none := by
    unfold Table.isEmpty at empty
    rw [Table.get?, List.isEmpty_iff.mp empty]
    rfl
  have kept (address : Address) (text : List Char) : replaceWord pockets address text = none :=
    replaceWord_eq_none_iff.mpr fun value _ => noPocket value
  unfold Renumbering.line
  split
  · rfl
  · split
    · cases annotated : annotate pockets label line with
      | none => rfl
      | some text =>
        obtain ⟨_, value, _, -, -, assigned, -⟩ := annotate_eq_some_iff.mp annotated
        rw [noPocket] at assigned
        cases assigned
    · simp [kept]

theorem ofProgram_eq (pockets : Table Pocket) (label program : String) :
    ofProgram pockets label program =
      { text := String.ofList (ofLines ((lines program.toList).map fun line =>
          (Renumbering.line pockets label.toList line).text))
        toolNumbers := (lines program.toList).countP fun line =>
          (Renumbering.line pockets label.toList line).toolNumber
        heightOffsets := (lines program.toList).countP fun line =>
          (Renumbering.line pockets label.toList line).heightOffset
        comments := (lines program.toList).countP fun line =>
          (Renumbering.line pockets label.toList line).comment
        linesChanged := (lines program.toList).countP fun line =>
          (Renumbering.line pockets label.toList line).changed } := by
  unfold ofProgram
  split
  · rename_i empty
    simp [line_of_isEmpty empty, ofLines_lines]
  · simp only [List.map_map, List.countP_map, Function.comp_def]

theorem toList_ofProgram (pockets : Table Pocket) (label program : String) :
    (ofProgram pockets label program).text.toList = ofLines ((lines program.toList).map fun line =>
      (Renumbering.line pockets label.toList line).text) := by
  rw [ofProgram_eq]
  exact String.toList_ofList

theorem newline_notMem_of_mem_renumbered (pockets : Table Pocket) {program : List Char}
    (unlabelled : '\n' ∉ label)
    (member : text ∈ (lines program).map fun line => (Renumbering.line pockets label line).text) :
    '\n' ∉ text := by
  obtain ⟨line, listed, rfl⟩ := List.mem_map.mp member
  exact newline_notMem_line pockets (newline_notMem_of_mem_lines listed) unlabelled

theorem lines_ofProgram (pockets : Table Pocket) (label program : String) (oneLine : '\n' ∉ label.toList) :
    lines (ofProgram pockets label program).text.toList =
      (lines program.toList).map fun line => (Renumbering.line pockets label.toList line).text := by
  rw [toList_ofProgram]
  apply lines_ofLines
  · simp [lines_ne_nil]
  · exact fun text member => newline_notMem_of_mem_renumbered pockets oneLine member

end Renumbering

end ToolChanger
