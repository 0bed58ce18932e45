import ToolChanger.Proofs.Renumbering.ToolChange

namespace ToolChanger.Renumbering

open Program Text

variable {pockets : Table Pocket} {address : Address} {label line text : List Char}

/-- Whether the number of the first word of an address in a text is in the table. -/
def mapped (pockets : Table Pocket) (address : Address) (text : List Char) : Bool :=
  ((firstWord address text).map (·.value)).any pockets.contains

/-! ### Lines -/

theorem mapped_mask (pockets : Table Pocket) (address : Address) (line : List Char) :
    mapped pockets address (mask line) = (number? address line).any pockets.contains := rfl

theorem mapped_of_allBlank (pockets : Table Pocket) (address : Address) (blank : allBlank text = true) :
    mapped pockets address text = false := by
  have nothing : locate address text = none := by
    have cut := locateAfter_blank_append address blank []
    rwa [List.append_nil] at cut
  unfold mapped firstWord
  rw [nothing]
  rfl

theorem isSome_replaceWord (pockets : Table Pocket) (address : Address) (line : List Char) :
    (replaceWord pockets address line).isSome = mapped pockets address (mask line) := by
  unfold replaceWord mappedWord mapped
  cases firstWord address (mask line) with
  | none => rfl
  | some word => cases assigned : pockets.get? word.value <;> simp [assigned, Table.contains]

theorem isSome_annotate (pockets : Table Pocket) (label line : List Char) :
    (annotate pockets label line).isSome = mapped pockets .tool line := by
  unfold annotate mapped
  cases firstWord .tool line with
  | none => rfl
  | some word => cases assigned : pockets.get? word.value <;> simp [assigned, Table.contains]

theorem ne_of_annotate (annotated : annotate pockets label line = some text) : text ≠ line := by
  obtain ⟨place, value, pocket, located, -, -, rfl⟩ := annotate_eq_some_iff.mp annotated
  obtain ⟨rfl, -⟩ := isFirst_of_locateAfter located
  intro same
  have length := congrArg List.length same
  simp only [Place.withNumber, note, List.length_append, List.length_cons, List.length_nil] at length
  omega

/-- What the record of a renumbered line says, in terms of the line and of what it became. -/
structure Reports (pockets : Table Pocket) (line : List Char) (renumbered : RenumberedLine) : Prop where
  toolNumber : renumbered.toolNumber = (!isCommentOnly line && mapped pockets .tool (mask line))
  heightOffset : renumbered.heightOffset = (!isCommentOnly line && mapped pockets .height (mask line))
  comment : renumbered.comment = (isCommentOnly line && mapped pockets .tool line)
  changed : renumbered.changed = decide (renumbered.text ≠ line)
  annotated : renumbered.comment = true → renumbered.changed = true

theorem reports_line (pockets : Table Pocket) (label line : List Char) :
    Reports pockets line (Renumbering.line pockets label line) := by
  unfold Renumbering.line
  by_cases blank : allBlank line = true
  · have masked : allBlank (mask line) = true := (mask_of_allBlank blank).symm ▸ blank
    constructor <;> simp [blank, isCommentOnly, mapped_of_allBlank pockets _ masked]
  · rw [if_neg blank]
    by_cases comment : isCommentOnly line = true
    · have noted := isSome_annotate pockets label line
      rw [if_pos comment]
      cases annotated : annotate pockets label line with
      | none => constructor <;> simp [comment, ← noted, annotated]
      | some text => constructor <;> simp [comment, ← noted, annotated, ne_of_annotate annotated]
    · have code : isCommentOnly line = false := Bool.eq_false_iff.mpr comment
      -- the height word is looked for behind the new tool word
      have height : number? .height ((replaceWord pockets .tool line).getD line) = number? .height line :=
        number?_replaced_of_ne pockets (by decide) line
      constructor <;> simp [code, isSome_replaceWord, mapped_mask, height]

/-! ### Programs -/

/-- What the counters of a renumbered program say. -/
structure Counts (pockets : Table Pocket) (program : String) (renumbered : Renumbering) : Prop where
  length : (lines renumbered.text.toList).length = (lines program.toList).length
  linesChanged : renumbered.linesChanged =
    ((lines program.toList).zip (lines renumbered.text.toList)).countP fun pair => pair.1 ≠ pair.2
  changed : renumbered.changed = true ↔ renumbered.text ≠ program
  comments : renumbered.comments =
    (lines program.toList).countP fun line => isCommentOnly line && mapped pockets .tool line
  /-- Every comment that counts becomes another line. -/
  annotated : ∀ (i : Nat) (line : List Char), (lines program.toList)[i]? = some line →
    isCommentOnly line = true → mapped pockets .tool line = true →
      ∃ text, (lines renumbered.text.toList)[i]? = some text ∧ text ≠ line
  toolNumbers : renumbered.toolNumbers =
    (lines program.toList).countP fun line => !isCommentOnly line && mapped pockets .tool (mask line)
  heightOffsets : renumbered.heightOffsets =
    (lines program.toList).countP fun line => !isCommentOnly line && mapped pockets .height (mask line)

theorem text_ofProgram_eq_iff (pockets : Table Pocket) (label program : String) (oneLine : '\n' ∉ label.toList) :
    (ofProgram pockets label program).text = program ↔
      ∀ line ∈ lines program.toList, (Renumbering.line pockets label.toList line).text = line := by
  have after := lines_ofProgram pockets label program oneLine
  have each : (lines program.toList).map (fun line => (Renumbering.line pockets label.toList line).text) =
      lines program.toList ↔
        ∀ line ∈ lines program.toList, (Renumbering.line pockets label.toList line).text = line := by
    conv => lhs; rhs; rw [← List.map_id (lines program.toList)]
    exact List.map_inj_left
  rw [← each]
  constructor
  · intro same
    rw [← after, same]
  · intro same
    rw [← String.toList_inj, toList_ofProgram, same, ofLines_lines]

/-- The counters of a renumbered program are exact. -/
theorem counts_ofProgram (pockets : Table Pocket) (label program : String) (oneLine : '\n' ∉ label.toList) :
    Counts pockets program (ofProgram pockets label program) := by
  have after := lines_ofProgram pockets label program oneLine
  have reports (line : List Char) := reports_line pockets label.toList line
  have changes : (ofProgram pockets label program).linesChanged = (lines program.toList).countP fun line =>
      (Renumbering.line pockets label.toList line).text ≠ line := by
    rw [ofProgram_eq]
    exact List.countP_congr fun line _ => by rw [(reports line).changed]
  constructor
  case length => rw [after, List.length_map]
  case linesChanged =>
    have pairs : (lines program.toList).zip (lines (ofProgram pockets label program).text.toList) =
        (lines program.toList).map fun line => (line, (Renumbering.line pockets label.toList line).text) := by
      rw [after]
      have both := List.zip_map' (f := id) (g := fun line => (Renumbering.line pockets label.toList line).text)
        (l := lines program.toList)
      rwa [List.map_id] at both
    rw [changes, pairs, List.countP_map]
    exact List.countP_congr fun line _ => by simp [ne_comm]
  case changed =>
    rw [ne_eq, text_ofProgram_eq_iff pockets label program oneLine]
    unfold changed
    rw [decide_eq_true_iff, changes, List.countP_pos_iff]
    simp
  case comments =>
    rw [ofProgram_eq]
    exact List.countP_congr fun line _ => by rw [(reports line).comment]
  case annotated =>
    intro i line here comment called
    refine ⟨(Renumbering.line pockets label.toList line).text, by rw [after, List.getElem?_map, here]; rfl, ?_⟩
    have noted : (Renumbering.line pockets label.toList line).comment = true := by
      rw [(reports line).comment, comment, called, Bool.and_true]
    have changed := (reports line).annotated noted
    rwa [(reports line).changed, decide_eq_true_iff] at changed
  case toolNumbers =>
    rw [ofProgram_eq]
    exact List.countP_congr fun line _ => by rw [(reports line).toolNumber]
  case heightOffsets =>
    rw [ofProgram_eq]
    exact List.countP_congr fun line _ => by rw [(reports line).heightOffset]

/-- Tool 3 stays in pocket 3: its words count, its lines change only where a zero goes or another word does. -/
theorem counts_ofProgram_identity :
    let pockets : Table Pocket := Table.ofList [(3, 3), (12, 7)]
    let program := "T3 M6\nT03 M6 H12\n(probe T12)\n\nG43 H3 (T12)\n(T5)"
    let renumbered := ofProgram pockets "ATC" program
    (renumbered = {
        text := "T3 M6\nT3 M6 H7\n(probe T7 [ATC: tool 12])\n\nG43 H3 (T12)\n(T5)"
        toolNumbers := 2, heightOffsets := 2, comments := 1, linesChanged := 2 }) ∧
      Counts pockets program renumbered := by
  intro pockets program renumbered
  exact ⟨by decide +kernel, counts_ofProgram pockets "ATC" program (by decide)⟩

end ToolChanger.Renumbering
