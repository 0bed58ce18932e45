import ToolChanger.Proofs.Renumbering.Line

/-!
# Tool changes of a renumbered program

Each line of a renumbered program changes to the pocket of the tool that it changed to before, with one exception:
a label that opens a group in an annotated comment may uncover what stood in the comment's tail.
-/

namespace ToolChanger

open Program Text

namespace Program

variable {line other front code : List Char}

/-! ### Blanks before the code -/

theorem toolChange_of_mask_eq_append (blank : allBlank front = true) (masked : mask line = front ++ code)
    (same : mask other = code) : toolChange line = toolChange other := by
  have command : hasChangeCommand (mask line) = hasChangeCommand (mask other) := by
    rw [masked, same]
    exact commandAfter_blank_append blank code
  have number : number? .tool line = number? .tool other := by
    rw [number?_eq, number?_eq, masked, same, locate, locate, locateAfter_blank_append .tool blank]
    simp [Option.map_map, Function.comp_def]
  exact toolChange_congr command number

theorem toolChange_of_allBlank (blank : allBlank (mask line) = true) : toolChange line = none := by
  have empty : toolChange line = toolChange [] :=
    toolChange_of_mask_eq_append blank (List.append_nil _).symm rfl
  rw [empty]
  rfl

end Program

namespace Renumbering

variable {pockets : Table Pocket} {label line : List Char} {place : Place}

/-! ### Code -/

theorem number?_replaced (pockets : Table Pocket) (address : Address) (line : List Char) :
    number? address ((replaceWord pockets address line).getD line) =
      (number? address line).map (translate pockets) := by
  cases replaced : replaceWord pockets address line with
  | none =>
    cases called : number? address line with
    | none => exact called
    | some value =>
      have free := replaceWord_eq_none_iff.mp replaced value called
      simp [called, translate, free]
  | some text =>
    obtain ⟨value, pocket, called, assigned, now⟩ := number?_of_replaceWord replaced
    simp [called, translate, assigned, now]

theorem number?_replaced_of_ne (pockets : Table Pocket) {address other : Address}
    (different : other ≠ address) (line : List Char) :
    number? other ((replaceWord pockets address line).getD line) = number? other line := by
  cases replaced : replaceWord pockets address line with
  | none => rfl
  | some text => exact number?_of_replaceWord_of_ne replaced different

theorem hasChangeCommand_replaced (pockets : Table Pocket) (address : Address) (line : List Char) :
    hasChangeCommand (mask ((replaceWord pockets address line).getD line)) =
      hasChangeCommand (mask line) := by
  cases replaced : replaceWord pockets address line with
  | none => rfl
  | some text => exact hasChangeCommand_of_replaceWord replaced

theorem translate_eq_zero_iff (noZero : pockets.get? 0 = none) (positive : ∀ tool, pockets.get? tool ≠ some 0)
    (tool : ToolId) : translate pockets tool = 0 ↔ tool = 0 := by
  unfold translate
  constructor
  · intro zero
    cases assigned : pockets.get? tool with
    | none => rwa [assigned] at zero
    | some pocket =>
      rw [assigned] at zero
      exact absurd (assigned.trans (congrArg some zero)) (positive tool)
  · rintro rfl
    rw [noZero]
    rfl

theorem toolChange_of_code (label : List Char) (noZero : pockets.get? 0 = none)
    (positive : ∀ tool, pockets.get? tool ≠ some 0) (code : isCommentOnly line = false) :
    toolChange (Renumbering.line pockets label line).text = (toolChange line).map (translate pockets) := by
  unfold Renumbering.line
  split
  · rename_i blank
    have none := toolChange_of_allBlank ((mask_of_allBlank blank).symm ▸ blank)
    rw [none]
    rfl
  · rw [if_neg (by simp [code])]
    rw [toolChange_eq_number?, toolChange_eq_number?, hasChangeCommand_replaced, hasChangeCommand_replaced,
      number?_replaced_of_ne _ (by decide), number?_replaced]
    split
    · cases number? .tool line with
      | none => rfl
      | some tool =>
        by_cases zero : tool = 0
        · subst zero
          simp [translate, noZero, Option.filter_some]
        · have moved := mt (translate_eq_zero_iff noZero positive tool).mp zero
          simp [zero, moved, Option.filter_some]
    · rfl

/-! ### Comments -/

/-- Whether the note beside the tool word of a comment makes the controller see a tool change in what follows
the word: read on from where the label leaves off, it shows one. -/
def Exposes (pockets : Table Pocket) (label line : List Char) : Prop :=
  isCommentOnly line = true ∧ ∃ place tool, locate .tool line = some place ∧
    readUInt32 place.digits = some tool ∧ pockets.contains tool = true ∧
    (toolChange (maskFrom ((Zone.code.after place.before).after label) place.after)).isSome = true

theorem after_note {zone : Zone} (comment : zone ≠ .code) (unclosed : ')' ∉ label) (pocket : Pocket)
    {number : List Char} (digits : ∀ c ∈ number, isDecimalDigit c = true) :
    zone.after (note label pocket number) = zone.after label := by
  have labelled : zone.after label ≠ .code := after_ne_code comment unclosed
  have numerals : zone.after (numeral pocket.toNat) = zone :=
    after_eq_self comment fun c member => level_of_isDecimalDigit (isDecimalDigit_of_numeral member)
  have opening : zone.after " [".toList = zone := after_eq_self comment (by simp)
  have tool : (zone.after label).after ": tool ".toList = zone.after label :=
    after_eq_self labelled (by simp)
  have numbers : (zone.after label).after number = zone.after label :=
    after_eq_self labelled fun c member => level_of_isDecimalDigit (digits c member)
  have closing : (zone.after label).after [']'] = zone.after label := after_eq_self labelled (by simp)
  unfold note
  rw [Zone.after_append, Zone.after_append, Zone.after_append, Zone.after_append, Zone.after_append, numerals,
    opening, tool, numbers, closing]

theorem toolChange_annotated (comment : isCommentOnly line = true) (located : locate .tool line = some place)
    (unclosed : ')' ∉ label) (pocket : Pocket) :
    toolChange (place.withNumber (note label pocket place.digits)) =
      toolChange (maskFrom ((Zone.code.after place.before).after label) place.after) := by
  obtain ⟨-, isFirst⟩ := isFirst_of_locateAfter located
  obtain ⟨inside, before, -, -⟩ := hidden_of_isCommentOnly comment located
  have level : ∀ c ∈ [place.letter], c ≠ '(' ∧ c ≠ ')' := by
    intro c member
    obtain rfl := List.mem_singleton.mp member
    exact level_of_matches isFirst.letter
  have word : (Zone.code.after place.before).after (place.letter :: note label pocket place.digits) =
      (Zone.code.after place.before).after label := by
    rw [← List.singleton_append, Zone.after_append, after_eq_self inside level,
      after_note inside unclosed pocket isFirst.digits]
  have unclosedWord : ')' ∉ place.letter :: note label pocket place.digits := by
    intro member
    rcases List.mem_cons.mp member with same | noted
    · exact (level_of_matches isFirst.letter).2 same.symm
    · exact notMem_note (by decide) unclosed (by decide +kernel) pocket isFirst.digits noted
  have cut : place.withNumber (note label pocket place.digits) =
      place.before ++ ((place.letter :: note label pocket place.digits) ++ place.after) := rfl
  have hidden : allBlank (mask place.before ++ maskFrom (Zone.code.after place.before)
      (place.letter :: note label pocket place.digits)) = true := by
    rw [allBlank_append, before, allBlank_maskFrom inside unclosedWord]
    rfl
  apply toolChange_of_mask_eq_append hidden
  · unfold mask
    rw [cut, maskFrom_append, maskFrom_append, word, List.append_assoc]
  · exact mask_maskFrom _ _

theorem toolChange_of_comment (pockets : Table Pocket) (unclosed : ')' ∉ label)
    (comment : isCommentOnly line = true) :
    toolChange line = none ∧
      (toolChange (Renumbering.line pockets label line).text = none ↔ ¬ Exposes pockets label line) := by
  have unchanged : toolChange line = none := toolChange_of_allBlank (Bool.and_eq_true_iff.mp comment).2
  have ink : allBlank line = false := by simpa using (Bool.and_eq_true_iff.mp comment).1
  refine ⟨unchanged, ?_⟩
  unfold Renumbering.line
  rw [if_neg (by simp [ink]), if_pos comment]
  cases annotated : annotate pockets label line with
  | none =>
    have unexposed : ¬ Exposes pockets label line := by
      rintro ⟨-, place, tool, located, read, assigned, -⟩
      obtain ⟨pocket, assigned⟩ := Option.isSome_iff_exists.mp assigned
      have noted : annotate pockets label line = some (place.withNumber (note label pocket place.digits)) :=
        annotate_eq_some_iff.mpr ⟨place, tool, pocket, located, read, assigned, rfl⟩
      rw [annotated] at noted
      cases noted
    exact ⟨fun _ => unexposed, fun _ => unchanged⟩
  | some text =>
    obtain ⟨place, tool, pocket, located, read, assigned, rfl⟩ := annotate_eq_some_iff.mp annotated
    show toolChange (place.withNumber (note label pocket place.digits)) = none ↔ _
    rw [toolChange_annotated comment located unclosed pocket]
    constructor
    · rintro quiet ⟨-, other, _, relocated, -, -, exposed⟩
      obtain rfl := Option.some.inj (located.symm.trans relocated)
      rw [quiet] at exposed
      cases exposed
    · intro unexposed
      rw [← Option.not_isSome_iff_eq_none]
      intro exposed
      have known : pockets.contains tool = true := Option.isSome_iff_exists.mpr ⟨pocket, assigned⟩
      exact unexposed ⟨comment, place, tool, located, read, known, exposed⟩

/-- Only a label that opens a group exposes anything, and only in a comment with a tail. -/
theorem Exposes.opens (unclosed : ')' ∉ label) (exposed : Exposes pockets label line) :
    '(' ∈ label ∧ Zone.code.after line = .tail := by
  obtain ⟨comment, place, tool, located, -, -, seen⟩ := exposed
  obtain ⟨inside, -, after, ends⟩ := hidden_of_isCommentOnly comment located
  have quiet (zone : Zone) (blank : allBlank (maskFrom zone place.after) = true) :
      toolChange (maskFrom zone place.after) = none := by
    apply toolChange_of_allBlank
    rw [mask_maskFrom]
    exact blank
  constructor
  · by_cases opens : '(' ∈ label
    · exact opens
    · have level : ∀ c ∈ label, c ≠ '(' ∧ c ≠ ')' := fun c member =>
        ⟨fun same => opens (same ▸ member), fun same => unclosed (same ▸ member)⟩
      rw [after_eq_self inside level, quiet _ after] at seen
      cases seen
  · rw [ends]
    by_cases tail : (Zone.code.after place.before).after place.after = .tail
    · exact tail
    · exfalso
      cases zone : Zone.code.after place.before with
      | code => exact inside zone
      | tail =>
        rw [zone] at tail
        exact tail (after_tail place.after)
      | group outer =>
        rw [zone] at seen after tail
        obtain ⟨further, deeper⟩ := after_group outer unclosed
        rw [deeper] at seen
        cases further with
        | zero =>
          rw [Nat.add_zero, quiet _ after] at seen
          cases seen
        | succ further =>
          have hidden := allBlank_maskFrom_within further after tail
          rw [Zone.within, Nat.add_assoc] at hidden
          rw [quiet _ hidden] at seen
          cases seen

/-! ### Programs -/

/-- A renumbered program changes tools where the program did, to the pockets of the tools that it did, unless
a note exposes a change that stood in a comment. -/
theorem toolChange_renumbered (pockets : Table Pocket) (label program : String)
    (noZero : pockets.get? 0 = none) (positive : ∀ tool, pockets.get? tool ≠ some 0)
    (unclosed : ')' ∉ label.toList) (oneLine : '\n' ∉ label.toList) :
    let before := lines program.toList
    let after := lines (ofProgram pockets label program).text.toList
    after.length = before.length ∧
      ∀ (i : Nat) (line text : List Char), before[i]? = some line → after[i]? = some text →
        (toolChange text = (toolChange line).map (translate pockets) ↔
          ¬ Exposes pockets label.toList line) ∧
        (Exposes pockets label.toList line → '(' ∈ label.toList ∧ Zone.code.after line = .tail) := by
  intro before after
  have renumbered : after = before.map fun line => (Renumbering.line pockets label.toList line).text :=
    lines_ofProgram pockets label program oneLine
  rw [renumbered]
  refine ⟨List.length_map _, ?_⟩
  intro i line text here there
  rw [List.getElem?_map, here] at there
  obtain rfl := Option.some.inj there
  refine ⟨?_, Exposes.opens unclosed⟩
  cases comment : isCommentOnly line with
  | false =>
    have unexposed : ¬ Exposes pockets label.toList line := by
      rintro ⟨only, -⟩
      rw [comment] at only
      cases only
    have same := toolChange_of_code label.toList noZero positive comment
    exact ⟨fun _ => unexposed, fun _ => same⟩
  | true =>
    obtain ⟨none, rest⟩ := toolChange_of_comment pockets unclosed comment
    rw [none]
    exact rest

/-- Tools 12 and 3 trade pockets. Of the four lines the first and the last change tools. -/
theorem toolChange_renumbered_traded :
    let pockets : Table Pocket := Table.ofList [(12, 3), (3, 12)]
    let program := "T12M06 H3 (T5)\nG43 H12\n(T12) ;) M6 T5\nN7 M6 T3;T9"
    let before := lines program.toList
    let after := lines (ofProgram pockets "ATC" program).text.toList
    (before.map toolChange = [some 12, none, none, some 3] ∧
      after.map toolChange = [some 3, none, none, some 12]) ∧
    after.length = before.length ∧
      ∀ (i : Nat) (line text : List Char), before[i]? = some line → after[i]? = some text →
        (toolChange text = (toolChange line).map (translate pockets) ↔
          ¬ Exposes pockets "ATC".toList line) ∧
        (Exposes pockets "ATC".toList line → '(' ∈ "ATC".toList ∧ Zone.code.after line = .tail) := by
  intro pockets program before after
  have positive : ∀ tool, pockets.get? tool ≠ some 0 := by
    intro tool assigned
    have listed := Table.mem_of_get?_ofList assigned
    simp at listed
  exact ⟨by decide +kernel,
    toolChange_renumbered pockets "ATC" program rfl positive (by decide) (by decide)⟩

/-- The label's group takes in the semicolon, and the parenthesis behind that closes it. -/
theorem toolChange_renumbered_exposed :
    let pockets : Table Pocket := Table.ofList [(12, 3)]
    let line := "(T12) ;) M6 T5"
    (ofProgram pockets "(" line).text = "(T3 [(: tool 12]) ;) M6 T5" ∧
      Exposes pockets "(".toList line.toList ∧
    ¬ ∀ (pockets : Table Pocket) (label program : String), pockets.get? 0 = none →
      (∀ tool, pockets.get? tool ≠ some 0) → ')' ∉ label.toList → '\n' ∉ label.toList →
      ∀ (i : Nat) (line text : List Char), (lines program.toList)[i]? = some line →
        (lines (ofProgram pockets label program).text.toList)[i]? = some text →
        toolChange text = (toolChange line).map (translate pockets) := by
  intro pockets line
  have exposed : Exposes pockets "(".toList line.toList :=
    ⟨by decide +kernel, ⟨['('], 'T', ['1', '2'], ") ;) M6 T5".toList⟩, 12, by decide +kernel, by decide,
      by decide, by decide +kernel⟩
  refine ⟨by decide +kernel, exposed, fun everywhere => ?_⟩
  have positive : ∀ tool, pockets.get? tool ≠ some 0 := by
    intro tool assigned
    have listed := Table.mem_of_get?_ofList assigned
    simp at listed
  have same := everywhere pockets "(" line rfl positive (by decide) (by decide) 0
    "(T12) ;) M6 T5".toList "(T3 [(: tool 12]) ;) M6 T5".toList (by decide +kernel) (by decide +kernel)
  revert same
  decide +kernel

end Renumbering

end ToolChanger
