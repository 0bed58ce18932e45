import ToolChanger.Proofs.Program.Changes
import ToolChanger.Proofs.Renumbering.Line

/-!
# Line endings

The carriage return before a line break is part of the line. It is blank, the mask keeps it, and no word reaches
into it (`line_append_return`).
-/

namespace ToolChanger

open Program Text

namespace Program

/-! ### A carriage return behind a line -/

theorem mask_append_return (line : List Char) : mask (line ++ ['\r']) = mask line ++ ['\r'] := by
  have kept (zone : Zone) : maskFrom zone ['\r'] = ['\r'] := by
    simp [maskFrom, veil]
  unfold mask
  rw [maskFrom_append, kept]

theorem allBlank_append_return (text : List Char) : allBlank (text ++ ['\r']) = allBlank text := by
  have blank : allBlank ['\r'] = true := by decide
  rw [allBlank_append, blank, Bool.and_true]

theorem isCommentOnly_append_return (line : List Char) :
    isCommentOnly (line ++ ['\r']) = isCommentOnly line := by
  unfold isCommentOnly
  rw [mask_append_return, allBlank_append_return, allBlank_append_return]

theorem locate_append_return (address : Address) (text : List Char) : locate address (text ++ ['\r']) =
    (locate address text).map fun place => { place with after := place.after ++ ['\r'] } := by
  have nothing (afterLetter : Bool) : locateAfter address afterLetter ['\r'] = none := by
    cases address <;> cases afterLetter <;> decide
  unfold locate
  rw [locateAfter_append address false text (by decide), nothing]
  cases locateAfter address false text <;> rfl

theorem firstWord_append_return (address : Address) (text : List Char) :
    firstWord address (text ++ ['\r']) = firstWord address text := by
  unfold firstWord
  rw [locate_append_return, Option.bind_map]
  rfl

theorem toolChange_append_return (line : List Char) : toolChange (line ++ ['\r']) = toolChange line := by
  have nothing (afterLetter : Bool) : commandAfter afterLetter ['\r'] = false := by
    cases afterLetter <;> decide
  have command (text : List Char) : hasChangeCommand (text ++ ['\r']) = hasChangeCommand text := by
    unfold hasChangeCommand
    rw [commandAfter_append false text (by decide), nothing, Bool.or_false]
  simp only [toolChange, mask_append_return, command, firstWord_append_return]

theorem digits_within {address : Address} {text : List Char} {word : Word}
    (found : firstWord address text = some word) :
    word.digits.start ≤ word.digits.stop ∧ word.digits.stop ≤ byteLength text := by
  obtain ⟨place, located, read⟩ := Option.bind_eq_some_iff.mp found
  obtain ⟨rfl, -⟩ := isFirst_of_locateAfter located
  obtain ⟨-, span, -⟩ := Place.word?_eq_some_iff.mp read
  rw [span, Place.digitsSpan, Place.withNumber]
  simp only [byteLength_append, byteLength]
  omega

/-! ### Every line but the last -/

/-- The text with a carriage return before each line break. -/
def crlf (text : List Char) : List Char := text.flatMap fun c => if c = '\n' then ['\r', '\n'] else [c]

/-- The lines with a carriage return behind each that another one follows. -/
def withReturns : List (List Char) → List (List Char)
  | [] => []
  | [last] => [last]
  | line :: next :: rest => (line ++ ['\r']) :: withReturns (next :: rest)

theorem crlf_cons {c : Char} (inLine : c ≠ '\n') (rest : List Char) : crlf (c :: rest) = c :: crlf rest := by
  unfold crlf
  rw [List.flatMap_cons, if_neg inLine, List.singleton_append]

theorem crlf_append (a b : List Char) : crlf (a ++ b) = crlf a ++ crlf b := List.flatMap_append

theorem crlf_of_unbroken {text : List Char} (unbroken : '\n' ∉ text) : crlf text = text := by
  induction text with
  | nil => rfl
  | cons c rest ih =>
    rw [List.mem_cons, not_or] at unbroken
    rw [crlf_cons (Ne.symm unbroken.1), ih unbroken.2]

theorem lines_crlf (program : List Char) : lines (crlf program) = withReturns (lines program) := by
  induction program with
  | nil => rfl
  | cons c rest ih =>
    obtain ⟨first, others, cut⟩ := exists_lines rest
    rw [cut] at ih
    by_cases ends : c = '\n'
    · subst ends
      have broken : crlf ('\n' :: rest) = '\r' :: '\n' :: crlf rest := rfl
      rw [broken, lines_cons (by decide) (lines_newline _), lines_newline, cut, ih]
      rfl
    · rw [crlf_cons ends, lines_cons ends cut]
      cases others with
      | nil => exact lines_cons ends ih
      | cons next others => exact lines_cons ends ih

theorem crlf_ofLines {texts : List (List Char)} (unbroken : ∀ text ∈ texts, '\n' ∉ text) :
    crlf (ofLines texts) = ofLines (withReturns texts) := by
  induction texts using withReturns.induct with
  | case1 => rfl
  | case2 last => rw [withReturns, ofLines_singleton, crlf_of_unbroken (unbroken last List.mem_cons_self)]
  | case3 line next rest ih =>
    have nonempty : withReturns (next :: rest) ≠ [] := by
      cases rest <;> simp [withReturns]
    have later := ih fun text member => unbroken text (List.mem_cons_of_mem line member)
    rw [withReturns, ofLines_cons (List.cons_ne_nil _ _), ofLines_cons nonempty, crlf_append,
      crlf_of_unbroken (unbroken line List.mem_cons_self), ← later, List.append_assoc]
    rfl

theorem map_withReturns {α : Type} {f : List Char → α} (blind : ∀ line, f (line ++ ['\r']) = f line)
    (texts : List (List Char)) : (withReturns texts).map f = texts.map f := by
  induction texts using withReturns.induct with
  | case1 => rfl
  | case2 last => rfl
  | case3 line next rest ih => rw [withReturns, List.map_cons, blind, ih]; rfl

theorem countP_withReturns {p : List Char → Bool} (blind : ∀ line, p (line ++ ['\r']) = p line)
    (texts : List (List Char)) : (withReturns texts).countP p = texts.countP p := by
  have counted (texts : List (List Char)) : texts.countP p = (texts.map p).countP id := by
    rw [List.countP_map, Function.id_comp]
  rw [counted, counted, map_withReturns blind]

theorem withReturns_map {f : List Char → List Char} (carries : ∀ line, f (line ++ ['\r']) = f line ++ ['\r'])
    (texts : List (List Char)) : (withReturns texts).map f = withReturns (texts.map f) := by
  induction texts using withReturns.induct with
  | case1 => rfl
  | case2 last => rfl
  | case3 line next rest ih => rw [withReturns, List.map_cons, carries, ih]; rfl

end Program

namespace Renumbering

/-! ### Renumbering -/

theorem replaceWord_append_return (pockets : Table Pocket) (address : Address) (line : List Char) :
    replaceWord pockets address (line ++ ['\r']) =
      (replaceWord pockets address line).map (· ++ ['\r']) := by
  unfold replaceWord mappedWord
  rw [mask_append_return, firstWord_append_return]
  cases found : firstWord address (mask line) with
  | none => rfl
  | some word =>
    obtain ⟨order, within⟩ := digits_within found
    rw [mask, byteLength_maskFrom] at within
    simp only [Option.bind_eq_bind, Option.bind_some]
    cases pockets.get? word.value with
    | none => rfl
    | some pocket => exact congrArg some (splice_append_of_le order within _ _)

theorem annotate_append_return (pockets : Table Pocket) (label line : List Char) :
    annotate pockets label (line ++ ['\r']) = (annotate pockets label line).map (· ++ ['\r']) := by
  unfold annotate
  rw [firstWord_append_return]
  cases found : firstWord .tool line with
  | none => rfl
  | some word =>
    obtain ⟨order, within⟩ := digits_within found
    simp only [Option.bind_eq_bind, Option.bind_some, slice_append_of_le order within]
    cases pockets.get? word.value with
    | none => rfl
    | some pocket => exact congrArg some (splice_append_of_le order within _ _)

theorem line_append_return (pockets : Table Pocket) (label line : List Char) :
    Renumbering.line pockets label (line ++ ['\r']) =
      { Renumbering.line pockets label line with text := (Renumbering.line pockets label line).text ++ ['\r'] } := by
  unfold Renumbering.line
  rw [allBlank_append_return, isCommentOnly_append_return]
  split
  · rfl
  · split
    · rw [annotate_append_return]
      cases annotate pockets label line <;> rfl
    · have kept := Option.getD_map (· ++ ['\r'])
      simp only [replaceWord_append_return, kept, Option.isSome_map, ne_eq, List.append_cancel_right_eq]

/-! ### Programs -/

/-- Whether the lines of a program end in a line break alone or in a carriage return and a line break, the
references are the same, and so is the renumbered program but for its own line endings. -/
theorem ofProgram_crlf (pockets : Table Pocket) (label program : String) (library : Library)
    (overrides : Overrides) (oneLine : '\n' ∉ label.toList) :
    let returned := String.ofList (crlf program.toList)
    let renumbered := ofProgram pockets label program
    references returned library overrides = references program library overrides ∧
      ofProgram pockets label returned =
        { renumbered with text := String.ofList (crlf renumbered.text.toList) } := by
  intro returned renumbered
  have cut : lines returned.toList = withReturns (lines program.toList) := by
    rw [String.toList_ofList, lines_crlf]
  constructor
  · unfold references changes
    rw [cut, changesFrom_congr 1 [] (map_withReturns toolChange_append_return _)]
  · have counted (field : RenumberedLine → Bool)
        (kept : ∀ (record : RenumberedLine) (text : List Char), field { record with text } = field record) :
        (withReturns (lines program.toList)).countP (fun line =>
            field (Renumbering.line pockets label.toList line)) =
          (lines program.toList).countP fun line => field (Renumbering.line pockets label.toList line) :=
      countP_withReturns (fun line => by rw [line_append_return, kept]) _
    have text := withReturns_map (f := fun line => (Renumbering.line pockets label.toList line).text)
      (fun line => by rw [line_append_return]) (lines program.toList)
    have tools := counted (·.toolNumber) fun _ _ => rfl
    have heights := counted (·.heightOffset) fun _ _ => rfl
    have comments := counted (·.comment) fun _ _ => rfl
    have changed := counted (·.changed) fun _ _ => rfl
    simp only [renumbered, ofProgram_eq, cut, text, tools, heights, comments, changed, String.toList_ofList,
      crlf_ofLines fun text member => newline_notMem_of_mem_renumbered pockets oneLine member]

/-- Tool changes in code, a note, a blank line, a height word before a tail and a last line that nothing ends. -/
theorem ofProgram_crlf_drilled :
    let pockets : Table Pocket := Table.ofList [(12, 3), (3, 7)]
    let program := "M6 T12 (T3)\n(drill T12)\n\nG43 H12 ;\nT3 M06"
    let returned := String.ofList (crlf program.toList)
    let renumbered := ofProgram pockets "ATC" program
    (ofProgram pockets "ATC" returned = {
        text := "M6 T3 (T3)\r\n(drill T3 [ATC: tool 12])\r\n\r\nG43 H3 ;\r\nT7 M06"
        toolNumbers := 2, heightOffsets := 1, comments := 1, linesChanged := 4 }) ∧
    references returned .empty (Table.ofList []) = references program .empty (Table.ofList []) ∧
      ofProgram pockets "ATC" returned =
        { renumbered with text := String.ofList (crlf renumbered.text.toList) } := by
  intro pockets program returned renumbered
  exact ⟨by decide +kernel, ofProgram_crlf pockets "ATC" program .empty (Table.ofList []) (by decide)⟩

end Renumbering

end ToolChanger
