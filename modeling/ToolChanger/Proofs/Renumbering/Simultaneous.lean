import ToolChanger.Proofs.Renumbering.Line

/-!
# Words exchanged at once

The height word of a code line is looked for in the line that has the new tool number already. `exchanged` looks
for both in the line as it was and exchanges them in one pass over its characters.
-/

namespace ToolChanger

open Program Text

namespace Text

def Span.covers (span : Span) (offset : Nat) : Bool := span.start ≤ offset && offset < span.stop

/-- A text for a range of bytes. -/
structure Edit where
  range : Span
  replacement : List Char

/-- Makes edits in a text that starts at an offset. A character that no range covers stays. -/
def exchangeFrom (edits : List Edit) (offset : Nat) : List Char → List Char
  | [] => []
  | c :: rest =>
    (edits.find? (·.range.start = offset)).elim [] (·.replacement) ++
      ((if edits.any (·.range.covers offset) then [] else [c]) ++
        exchangeFrom edits (offset + c.utf8Size) rest)

/-- Makes all edits at once: each range is one of the text as it was. -/
def exchange (edits : List Edit) (text : List Char) : List Char := exchangeFrom edits 0 text

variable {edits : List Edit} {edit : Edit} {a b c d e text word : List Char} {offset : Nat}

theorem byteLength_pos (nonempty : word ≠ []) : 0 < byteLength word := by
  cases word with
  | nil => exact absurd rfl nonempty
  | cons c rest =>
    have wide := c.utf8Size_pos
    rw [byteLength]
    omega

theorem exchangeFrom_append (edits : List Edit) (offset : Nat) (a b : List Char) :
    exchangeFrom edits offset (a ++ b) =
      exchangeFrom edits offset a ++ exchangeFrom edits (offset + byteLength a) b := by
  induction a generalizing offset with
  | nil => rfl
  | cons c rest ih =>
    rw [List.cons_append, exchangeFrom, ih, exchangeFrom, byteLength, Nat.add_assoc]
    simp only [List.append_assoc]

theorem exchangeFrom_of_apart (apart : ∀ edit ∈ edits, edit.range.start < edit.range.stop ∧
      (edit.range.stop ≤ offset ∨ offset + byteLength text ≤ edit.range.start)) :
    exchangeFrom edits offset text = text := by
  induction text generalizing offset with
  | nil => rfl
  | cons c rest ih =>
    have wide := c.utf8Size_pos
    simp only [byteLength] at apart
    have starts : edits.find? (·.range.start = offset) = none := by
      rw [List.find?_eq_none]
      intro edit member
      have outside := apart edit member
      simp only [decide_eq_true_eq]
      omega
    have covers : edits.any (·.range.covers offset) = false := by
      rw [List.any_eq_false]
      intro edit member
      have outside := apart edit member
      simp only [Span.covers, Bool.and_eq_true, decide_eq_true_eq]
      omega
    have others : exchangeFrom edits (offset + c.utf8Size) rest = rest := by
      refine ih fun edit member => ?_
      have outside := apart edit member
      omega
    rw [exchangeFrom, starts, covers, others]
    rfl

theorem exchangeFrom_of_covered (member : edit ∈ edits)
    (covered : edit.range.start ≤ offset ∧ offset + byteLength text ≤ edit.range.stop)
    (noStart : ∀ other ∈ edits,
      other.range.start < offset ∨ offset + byteLength text ≤ other.range.start) :
    exchangeFrom edits offset text = [] := by
  induction text generalizing offset with
  | nil => rfl
  | cons c rest ih =>
    have wide := c.utf8Size_pos
    simp only [byteLength] at covered noStart
    have starts : edits.find? (·.range.start = offset) = none := by
      rw [List.find?_eq_none]
      intro other listed
      have elsewhere := noStart other listed
      simp only [decide_eq_true_eq]
      omega
    have covers : edits.any (·.range.covers offset) = true := by
      refine List.any_eq_true.mpr ⟨edit, member, ?_⟩
      simp only [Span.covers, Bool.and_eq_true, decide_eq_true_eq]
      omega
    have others : exchangeFrom edits (offset + c.utf8Size) rest = [] := by
      refine ih (by omega) fun other listed => ?_
      have elsewhere := noStart other listed
      omega
    rw [exchangeFrom, starts, covers, others]
    rfl

/-- A text up to the end of the first range in it: what stands before stays, and what the range covers goes
for the edit's text. -/
theorem exchangeFrom_cut (nonempty : b ≠ []) (member : edit ∈ edits)
    (start : edit.range.start = offset + byteLength a)
    (stop : edit.range.stop = offset + byteLength a + byteLength b)
    (apart : ∀ other ∈ edits, other ≠ edit → other.range.start < other.range.stop ∧
      (other.range.stop ≤ offset ∨ offset + byteLength a + byteLength b ≤ other.range.start)) :
    exchangeFrom edits offset (a ++ (b ++ c)) =
      a ++ (edit.replacement ++ exchangeFrom edits (offset + byteLength a + byteLength b) c) := by
  have wide := byteLength_pos nonempty
  have before : exchangeFrom edits offset a = a := by
    refine exchangeFrom_of_apart fun other listed => ?_
    by_cases same : other = edit
    · subst same
      omega
    · have outside := apart other listed same
      omega
  have here : exchangeFrom edits (offset + byteLength a) b = edit.replacement := by
    cases b with
    | nil => exact absurd rfl nonempty
    | cons c rest =>
      have wide := c.utf8Size_pos
      simp only [byteLength] at stop apart
      have starts : edits.find? (·.range.start = offset + byteLength a) = some edit := by
        cases found : edits.find? (·.range.start = offset + byteLength a) with
        | none =>
          have elsewhere := List.find?_eq_none.mp found edit member
          simp [start] at elsewhere
        | some other =>
          have begins : other.range.start = offset + byteLength a := by
            simpa using List.find?_some found
          have same : other = edit := by
            by_contra different
            have outside := apart other (List.mem_of_find?_eq_some found) different
            omega
          rw [same]
      have covers : edits.any (·.range.covers (offset + byteLength a)) = true := by
        refine List.any_eq_true.mpr ⟨edit, member, ?_⟩
        simp only [Span.covers, Bool.and_eq_true, decide_eq_true_eq]
        omega
      have others : exchangeFrom edits (offset + byteLength a + c.utf8Size) rest = [] := by
        refine exchangeFrom_of_covered member (by omega) fun other listed => ?_
        by_cases same : other = edit
        · subst same
          omega
        · have outside := apart other listed same
          omega
      rw [exchangeFrom, starts, covers, others]
      simp
  rw [exchangeFrom_append, exchangeFrom_append, before, here]

theorem exchange_nil (text : List Char) : exchange [] text = text :=
  exchangeFrom_of_apart fun _ member => by cases member

theorem exchange_one (nonempty : b ≠ []) (start : edit.range.start = byteLength a)
    (stop : edit.range.stop = byteLength a + byteLength b) :
    exchange [edit] (a ++ (b ++ c)) = a ++ (edit.replacement ++ c) := by
  have wide := byteLength_pos nonempty
  have rest : exchangeFrom [edit] (0 + byteLength a + byteLength b) c = c := by
    refine exchangeFrom_of_apart fun other listed => ?_
    obtain rfl := List.mem_singleton.mp listed
    omega
  rw [exchange, exchangeFrom_cut nonempty (List.mem_singleton_self edit) (by omega) (by omega)
    (fun other listed different => absurd (List.mem_singleton.mp listed) different), rest]

theorem exchange_two (first second : Edit) (nonempty : b ≠ []) (nonempty' : d ≠ [])
    (listed : ∀ edit, edit ∈ edits ↔ edit = first ∨ edit = second)
    (start : first.range.start = byteLength a) (stop : first.range.stop = byteLength a + byteLength b)
    (start' : second.range.start = byteLength (a ++ (b ++ c)))
    (stop' : second.range.stop = byteLength (a ++ (b ++ c)) + byteLength d) :
    exchange edits (a ++ (b ++ (c ++ (d ++ e)))) =
      a ++ (first.replacement ++ (c ++ (second.replacement ++ e))) := by
  have wide := byteLength_pos nonempty
  have wide' := byteLength_pos nonempty'
  rw [byteLength_append, byteLength_append] at start' stop'
  have rest : exchangeFrom edits (0 + byteLength a + byteLength b + byteLength c + byteLength d) e = e := by
    refine exchangeFrom_of_apart fun other member => ?_
    rcases (listed other).mp member with rfl | rfl <;> omega
  have later : exchangeFrom edits (0 + byteLength a + byteLength b) (c ++ (d ++ e)) =
      c ++ (second.replacement ++ e) := by
    rw [exchangeFrom_cut nonempty' ((listed second).mpr (.inr rfl)) (by omega) (by omega) _, rest]
    intro other member different
    obtain rfl := ((listed other).mp member).resolve_right different
    omega
  rw [exchange, exchangeFrom_cut nonempty ((listed first).mpr (.inl rfl)) (by omega) (by omega) _, later]
  intro other member different
  obtain rfl := ((listed other).mp member).resolve_left different
  omega

end Text

namespace Renumbering

variable {pockets : Table Pocket} {address other : Address} {label line : List Char}

/-- The pocket's number for the first word of an address in the line's code, if that has a pocket. -/
def wordEdit (pockets : Table Pocket) (address : Address) (line : List Char) : Option Edit := do
  let word ← firstWord address (mask line)
  let pocket ← pockets.get? word.value
  return ⟨word.digits, numeral pocket.toNat⟩

/-- The note for the number in the first tool word of a comment, if that has a pocket. -/
def noteEdit (pockets : Table Pocket) (label line : List Char) : Option Edit := do
  let word ← firstWord .tool line
  let pocket ← pockets.get? word.value
  return ⟨word.digits, note label pocket (slice line word.digits)⟩

/-- A line with its words exchanged at once. -/
def exchanged (pockets : Table Pocket) (label line : List Char) : List Char :=
  if allBlank line then line
  else if isCommentOnly line then exchange (noteEdit pockets label line).toList line
  else exchange ((wordEdit pockets .tool line).toList ++ (wordEdit pockets .height line).toList) line

/-! ### One word -/

theorem Place.start_digitsSpan (place : Place) :
    place.digitsSpan.start = byteLength place.before + place.letter.utf8Size := by
  show byteLength (place.before ++ [place.letter]) = _
  rw [byteLength_append]
  rfl

theorem wordEdit_eq_some_iff {edit : Edit} : wordEdit pockets address line = some edit ↔
    ∃ place value pocket, locate address (mask line) = some place ∧ readUInt32 place.digits = some value ∧
      pockets.get? value = some pocket ∧ edit = ⟨place.digitsSpan, numeral pocket.toNat⟩ := by
  unfold wordEdit firstWord
  cases locate address (mask line) with
  | none => simp
  | some place =>
    cases read : place.word? with
    | none =>
      have unread : readUInt32 place.digits = none := Option.map_eq_none_iff.mp read
      simp [read, unread]
    | some word =>
      obtain ⟨-, span, value⟩ := Place.word?_eq_some_iff.mp read
      cases assigned : pockets.get? word.value <;> simp [read, value, assigned, span, eq_comm]

theorem replaceWord_eq (pockets : Table Pocket) (address : Address) (line : List Char) :
    replaceWord pockets address line =
      (wordEdit pockets address line).map fun edit => splice line edit.range edit.replacement := by
  unfold replaceWord mappedWord wordEdit
  cases firstWord address (mask line) with
  | none => rfl
  | some word => cases assigned : pockets.get? word.value <;> simp [assigned]

theorem exchange_wordEdit (pockets : Table Pocket) (address : Address) (line : List Char) :
    exchange (wordEdit pockets address line).toList line = (replaceWord pockets address line).getD line := by
  rw [replaceWord_eq]
  cases edited : wordEdit pockets address line with
  | none => exact exchange_nil line
  | some edit =>
    obtain ⟨place, value, pocket, located, -, -, rfl⟩ := wordEdit_eq_some_iff.mp edited
    obtain ⟨raw, whole, seen⟩ := exists_shows located
    obtain ⟨-, isFirst⟩ := isFirst_of_locateAfter located
    have nonempty : raw.digits ≠ [] := seen.digits ▸ isFirst.nonempty
    have cut : line = (raw.before ++ [raw.letter]) ++ (raw.digits ++ raw.after) := by
      rw [whole]
      simp [Place.withNumber]
    show exchange [_] line = splice line place.digitsSpan (numeral pocket.toNat)
    rw [seen.digitsSpan, cut, exchange_one nonempty rfl rfl, Place.digitsSpan, splice_append]

theorem exchange_noteEdit (pockets : Table Pocket) (label line : List Char) :
    exchange (noteEdit pockets label line).toList line = (annotate pockets label line).getD line := by
  unfold noteEdit annotate firstWord
  cases located : locate .tool line with
  | none => exact exchange_nil line
  | some place =>
    obtain ⟨rfl, isFirst⟩ := isFirst_of_locateAfter located
    cases read : place.word? with
    | none => simp [read, exchange_nil]
    | some word =>
      obtain ⟨-, span, -⟩ := Place.word?_eq_some_iff.mp read
      cases assigned : pockets.get? word.value with
      | none => simp [read, assigned, exchange_nil]
      | some pocket =>
        have cut : place.withNumber place.digits =
            (place.before ++ [place.letter]) ++ (place.digits ++ place.after) := by
          simp [Place.withNumber]
        simp only [Option.bind_eq_bind, Option.bind_some, read, assigned, span, Option.pure_def,
          Option.toList_some, Option.getD_some]
        rw [cut, exchange_one isFirst.nonempty rfl rfl, Place.digitsSpan, splice_append]

/-! ### Two words -/

/-- The first word of another address has its place before the digits of a word or behind them, and stays
there whatever number these make. -/
theorem exists_two_words {place place' : Place} (located : locate address (mask line) = some place)
    (located' : locate other (mask line) = some place') (different : other ≠ address) :
    ∃ a b c,
      (line = a ++ (place.digits ++ (b ++ (place'.digits ++ c))) ∧
        place.digitsSpan.start = byteLength a ∧
        place'.digitsSpan.start = byteLength (a ++ (place.digits ++ b)) ∧
        ∀ number ≠ [], (∀ d ∈ number, isDecimalDigit d = true) →
          ∃ moved, locate other (mask (a ++ (number ++ (b ++ (place'.digits ++ c))))) = some moved ∧
            moved.digits = place'.digits ∧
            moved.digitsSpan.start = byteLength (a ++ (number ++ b))) ∨
      (line = a ++ (place'.digits ++ (b ++ (place.digits ++ c))) ∧
        place'.digitsSpan.start = byteLength a ∧
        place.digitsSpan.start = byteLength (a ++ (place'.digits ++ b)) ∧
        ∀ number ≠ [], (∀ d ∈ number, isDecimalDigit d = true) →
          ∃ moved, locate other (mask (a ++ (place'.digits ++ (b ++ (number ++ c))))) = some moved ∧
            moved.digits = place'.digits ∧ moved.digitsSpan.start = byteLength a) := by
  obtain ⟨raw, whole, seen⟩ := exists_shows located
  obtain ⟨masked, isFirst⟩ := isFirst_of_locateAfter located
  have shown {number : List Char} (digits : ∀ d ∈ number, isDecimalDigit d = true) :
      mask (raw.withNumber number) = place.withNumber number :=
    mask_withNumber seen fun c member => plain_of_isDecimalDigit (digits c member)
  have search {number : List Char} (nonempty : number ≠ [])
      (digits : ∀ d ∈ number, isDecimalDigit d = true) :=
    locateAfter_withNumber_of_ne isFirst different nonempty digits
  have offset (text : List Char) : byteLength (mask text) = byteLength text := byteLength_maskFrom .code text
  have found := search isFirst.nonempty isFirst.digits
  rw [← masked] at found
  unfold locate at located'
  rw [located'] at found
  cases before : locateAfter other false place.before with
  | some earlier =>
    rw [before] at found
    obtain rfl := Option.some.inj found
    have inFront : locate other (mask raw.before) = some earlier := by
      rw [seen.before]
      exact before
    obtain ⟨front, cut, seen'⟩ := exists_shows inFront
    have text (number : List Char) : raw.withNumber number = front.before ++ [front.letter] ++
        (earlier.digits ++ (front.after ++ [raw.letter] ++ (number ++ raw.after))) := by
      rw [Place.withNumber, cut, Place.withNumber, seen'.digits]
      simp
    refine ⟨front.before ++ [front.letter], front.after ++ [raw.letter], raw.after, .inr ⟨?_, ?_, ?_, ?_⟩⟩
    · rw [whole, seen.digits, text]
    · show earlier.digitsSpan.start = _
      rw [seen'.digitsSpan]
      rfl
    · rw [seen.digitsSpan]
      show byteLength (raw.before ++ [raw.letter]) = byteLength (_ ++ (earlier.digits ++ _))
      rw [cut, Place.withNumber, seen'.digits]
      simp
    · intro number nonempty digits
      have moved := search nonempty digits
      rw [before, ← shown digits, text] at moved
      refine ⟨_, moved, rfl, ?_⟩
      show earlier.digitsSpan.start = _
      rw [seen'.digitsSpan]
      rfl
  | none =>
    rw [before] at found
    obtain ⟨later, there, rfl⟩ := Option.map_eq_some_iff.mp found.symm
    have behind : locate other (mask raw.after) = some later := by
      rw [seen.after]
      exact there
    obtain ⟨back, cut, seen'⟩ := exists_shows behind
    have text (number : List Char) : raw.withNumber number = raw.before ++ [raw.letter] ++
        (number ++ (back.before ++ [back.letter] ++ (later.digits ++ back.after))) := by
      rw [Place.withNumber, cut, Place.withNumber, seen'.digits]
      simp
    have width (number : List Char) :
        byteLength (place.before ++ place.letter :: (number ++ later.before)) + later.letter.utf8Size =
          byteLength (raw.before ++ [raw.letter] ++ (number ++ (back.before ++ [back.letter]))) := by
      rw [← seen.before, ← seen'.before, ← seen.letter, ← seen'.letter]
      simp only [byteLength_append, byteLength, offset]
      omega
    refine ⟨raw.before ++ [raw.letter], back.before ++ [back.letter], back.after, .inl ⟨?_, ?_, ?_, ?_⟩⟩
    · rw [whole, seen.digits, text]
    · rw [seen.digitsSpan]
      rfl
    · rw [Place.start_digitsSpan]
      exact width place.digits
    · intro number nonempty digits
      have moved := search nonempty digits
      rw [before, there, ← shown digits, text] at moved
      refine ⟨_, moved, rfl, ?_⟩
      rw [Place.start_digitsSpan]
      exact width number

theorem replaceWord_of_start {front back : List Char} {place : Place} {value : ToolId} {pocket : Pocket}
    (located : locate address (mask (front ++ (place.digits ++ back))) = some place)
    (start : place.digitsSpan.start = byteLength front) (read : readUInt32 place.digits = some value)
    (assigned : pockets.get? value = some pocket) :
    replaceWord pockets address (front ++ (place.digits ++ back)) =
      some (front ++ (numeral pocket.toNat ++ back)) := by
  have span : place.digitsSpan = ⟨byteLength front, byteLength front + byteLength place.digits⟩ := by
    rw [← start]
    rfl
  rw [replaceWord_eq, wordEdit_eq_some_iff.mpr ⟨place, value, pocket, located, read, assigned, rfl⟩,
    Option.map_some, span, splice_append]

theorem exchange_wordEdits (pockets : Table Pocket) (different : other ≠ address) (line : List Char) :
    let between := (replaceWord pockets address line).getD line
    exchange ((wordEdit pockets address line).toList ++ (wordEdit pockets other line).toList) line =
      (replaceWord pockets other between).getD between := by
  intro between
  cases edited : wordEdit pockets address line with
  | none =>
    have same : between = line := by
      show (replaceWord pockets address line).getD line = line
      rw [replaceWord_eq, edited]
      rfl
    rw [same, ← exchange_wordEdit]
    rfl
  | some edit =>
    obtain ⟨place, value, pocket, located, read, assigned, rfl⟩ := wordEdit_eq_some_iff.mp edited
    cases edited' : wordEdit pockets other line with
    | none =>
      have still : replaceWord pockets other between = none := by
        have free : replaceWord pockets other line = none := by rw [replaceWord_eq, edited']; rfl
        rw [replaceWord_eq_none_iff] at free ⊢
        intro value called
        cases replaced : replaceWord pockets address line with
        | none =>
          have same : between = line := congrArg (·.getD line) replaced
          exact free value (same ▸ called)
        | some text =>
          have same : between = text := congrArg (·.getD line) replaced
          rw [same, number?_of_replaceWord_of_ne replaced different] at called
          exact free value called
      have alone := exchange_wordEdit pockets address line
      rw [edited] at alone
      rw [still, Option.toList_none, List.append_nil, alone]
      rfl
    | some edit' =>
      obtain ⟨place', value', pocket', located', read', assigned', rfl⟩ := wordEdit_eq_some_iff.mp edited'
      obtain ⟨-, isFirst⟩ := isFirst_of_locateAfter located
      obtain ⟨-, isFirst'⟩ := isFirst_of_locateAfter located'
      have digits : ∀ c ∈ numeral pocket.toNat, isDecimalDigit c = true :=
        fun c member => isDecimalDigit_of_numeral member
      let first : Edit := ⟨place.digitsSpan, numeral pocket.toNat⟩
      let second : Edit := ⟨place'.digitsSpan, numeral pocket'.toNat⟩
      obtain ⟨a, b, c, cut⟩ := exists_two_words located located' different
      rcases cut with ⟨rfl, start, start', search⟩ | ⟨rfl, start', start, search⟩
      · obtain ⟨moved, found, same, now⟩ := search (numeral pocket.toNat) (numeral_ne_nil _) digits
        have whole (number : List Char) : a ++ (numeral pocket.toNat ++ (b ++ (number ++ c))) =
            (a ++ (numeral pocket.toNat ++ b)) ++ (number ++ c) := by simp
        rw [whole, ← same] at found
        rw [exchange_two first second isFirst.nonempty isFirst'.nonempty (fun edit => by simp [first, second])
          start (congrArg (· + _) start) start' (congrArg (· + _) start')]
        have replaced : between = a ++ (numeral pocket.toNat ++ (b ++ (moved.digits ++ c))) := by
          show (replaceWord pockets address _).getD _ = _
          rw [replaceWord_of_start located start read assigned, same]
          rfl
        rw [replaced, whole moved.digits, replaceWord_of_start found now (same ▸ read') assigned', ← whole]
        rfl
      · obtain ⟨moved, found, same, now⟩ := search (numeral pocket.toNat) (numeral_ne_nil _) digits
        have whole (number : List Char) : a ++ (place'.digits ++ (b ++ (number ++ c))) =
            (a ++ (place'.digits ++ b)) ++ (number ++ c) := by simp
        rw [← same] at found
        rw [exchange_two second first isFirst'.nonempty isFirst.nonempty
          (fun edit => by simp [first, second, or_comm]) start' (congrArg (· + _) start') start
          (congrArg (· + _) start)]
        have replaced : between = a ++ (moved.digits ++ (b ++ (numeral pocket.toNat ++ c))) := by
          show (replaceWord pockets address _).getD _ = _
          rw [whole] at located
          rw [whole, replaceWord_of_start located start read assigned, same, ← whole]
          rfl
        rw [replaced, replaceWord_of_start found now (same ▸ read') assigned']
        rfl

/-! ### Lines and programs -/

theorem text_line (pockets : Table Pocket) (label line : List Char) :
    (Renumbering.line pockets label line).text = exchanged pockets label line := by
  unfold Renumbering.line exchanged
  split
  · rfl
  · split
    · rw [exchange_noteEdit]
      cases annotate pockets label line <;> rfl
    · have different : Address.height ≠ .tool := by decide
      rw [exchange_wordEdits pockets different]

/-- A renumbered program is the program with its lines exchanged one by one, whatever the pockets, the label
and the program. -/
theorem text_ofProgram (pockets : Table Pocket) (label program : String) :
    (ofProgram pockets label program).text =
      String.ofList (ofLines ((lines program.toList).map (exchanged pockets label.toList))) := by
  unfold ofProgram
  split
  · rename_i empty
    have kept : (lines program.toList).map (exchanged pockets label.toList) = lines program.toList := by
      refine List.map_id'' (fun line => ?_) _
      rw [← text_line, line_of_isEmpty empty]
    rw [kept, ofLines, lines, List.intercalate_splitOn, String.ofList_toList]
  · simp only [List.map_map, Function.comp_def, text_line]

example : (ofProgram (Table.ofList [(12, 3), (3, 7)]) "Fusion" "M6 T12 (T3) G43 H12\r").text =
    "M6 T3 (T3) G43 H3\r" := by decide +kernel

end Renumbering

end ToolChanger
