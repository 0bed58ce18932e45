import ToolChanger.Proofs.Program.Lines
import ToolChanger.Proofs.Program.Mask
import ToolChanger.Proofs.Program.Word

/-!
# The tools that a program changes to

The lines of a program are read with the tools seen so far (`mem_changesFrom`). Which tool a line changes to
depends on its mask, and of that not on how long a gap is (`Spaced.toolChange_eq`).
-/

namespace ToolChanger.Program

open Text

/-! ### In the order of the lines -/

section

variable {number : Nat} {seen : List ToolId} {lines : List (List Char)} {tool : ToolId}

theorem changesFrom_congr (number : Nat) (seen : List ToolId) {others : List (List Char)}
    (same : lines.map toolChange = others.map toolChange) :
    changesFrom number seen lines = changesFrom number seen others := by
  induction lines generalizing number seen others with
  | nil => rw [List.map_eq_nil_iff.mp same.symm]
  | cons line rest ih =>
    cases others with
    | nil => cases same
    | cons other others =>
      obtain ⟨first, later⟩ := List.cons.inj same
      simp only [changesFrom, first, ih _ _ later]

/-- Listed are the tools not seen before, each with the first line that changes to it. -/
theorem mem_changesFrom {line : Nat} : (line, tool) ∈ changesFrom number seen lines ↔
    tool ∉ seen ∧ (lines.findIdx? (toolChange · = some tool)).map (· + number) = some line := by
  induction lines generalizing number seen with
  | nil => simp [changesFrom]
  | cons first rest ih =>
    rw [changesFrom, List.findIdx?_cons]
    by_cases here : toolChange first = some tool
    · rw [here, if_pos (decide_eq_true rfl)]
      by_cases met : tool ∈ seen
      · simp [met, ih]
      · simp [met, ih, eq_comm]
    · rw [if_neg (by simpa using here), Option.map_map]
      have later : (rest.findIdx? (toolChange · = some tool)).map ((· + number) ∘ (· + 1)) =
          (rest.findIdx? (toolChange · = some tool)).map (· + (number + 1)) := by
        simp [Function.comp_def, Nat.add_comm 1, Nat.add_assoc]
      rw [later]
      cases called : toolChange first with
      | none => exact ih
      | some other =>
        have different : tool ≠ other := fun same => here (called.trans (congrArg some same.symm))
        by_cases met : other ∈ seen
        · simp [met, ih]
        · simp [met, ih, different]

theorem pairwise_changesFrom (number : Nat) (seen : List ToolId) (lines : List (List Char)) :
    (changesFrom number seen lines).Pairwise fun a b => a.1 < b.1 := by
  have above {number : Nat} {seen : List ToolId} {lines : List (List Char)} {change : Nat × ToolId}
      (listed : change ∈ changesFrom number seen lines) : number ≤ change.1 := by
    obtain ⟨index, -, same⟩ := Option.map_eq_some_iff.mp (mem_changesFrom.mp listed).2
    omega
  induction lines generalizing number seen with
  | nil => exact .nil
  | cons first rest ih =>
    rw [changesFrom]
    split
    · split
      · exact ih _ _
      · exact List.pairwise_cons.mpr ⟨fun later listed => above listed, ih _ _⟩
    · exact ih _ _

/-- What the first changes of some lines are: each tool that a line changes to, once, with the number of the
first such line, in the order of the lines. -/
structure FirstChanges (lines : List (List Char)) (found : List (Nat × ToolId)) : Prop where
  mem_iff : ∀ number tool, (number, tool) ∈ found ↔
    (lines.findIdx? (toolChange · = some tool)).map (· + 1) = some number
  tools : ∀ tool, tool ∈ found.map (·.2) ↔ ∃ line ∈ lines, toolChange line = some tool
  once : (found.map (·.2)).Nodup
  ascending : found.Pairwise fun a b => a.1 < b.1

theorem firstChanges (lines : List (List Char)) : FirstChanges lines (changesFrom 1 [] lines) := by
  have listed (number : Nat) (tool : ToolId) : (number, tool) ∈ changesFrom 1 [] lines ↔
      (lines.findIdx? (toolChange · = some tool)).map (· + 1) = some number := by
    simp [mem_changesFrom]
  have ascending := pairwise_changesFrom 1 [] lines
  refine ⟨listed, fun tool => ?_, ?_, ascending⟩
  · have found : (lines.findIdx? (toolChange · = some tool)).isSome = true ↔
        ∃ line ∈ lines, toolChange line = some tool := by
      simp [List.findIdx?_isSome]
    rw [← found, List.mem_map]
    constructor
    · rintro ⟨⟨number, _⟩, member, rfl⟩
      rw [← Option.isSome_map (f := (· + 1)), (listed number _).mp member]
      rfl
    · intro isSome
      obtain ⟨index, first⟩ := Option.isSome_iff_exists.mp isSome
      exact ⟨(index + 1, tool), (listed _ _).mpr (by rw [first]; rfl), rfl⟩
  · -- two changes to one tool would be in one line
    refine List.pairwise_map.mpr (ascending.imp_of_mem fun {a b} first second less same => ?_)
    have lineA := (listed a.1 a.2).mp first
    have lineB := (listed b.1 b.2).mp second
    rw [same, lineB] at lineA
    have equal := Option.some.inj lineA
    omega

end

/-! ### Gaps -/

/-- Texts that differ in their gaps only, where each has one: how long it is and which blanks it is of. -/
inductive Spaced : List Char → List Char → Prop
  | nil : Spaced [] []
  | char {a b : List Char} (c : Char) (rest : Spaced a b) : Spaced (c :: a) (c :: b)
  | gap {a b : List Char} (c d : Char) (x y : List Char) (here : allBlank (c :: x) = true)
      (there : allBlank (d :: y) = true) (rest : Spaced a b) : Spaced (c :: x ++ a) (d :: y ++ b)

namespace Spaced

variable {a b : List Char} {p : Char → Bool}

theorem append_left (text : List Char) (spaced : Spaced a b) : Spaced (text ++ a) (text ++ b) := by
  induction text with
  | nil => exact spaced
  | cons c rest ih => exact .char c ih

theorem gap_append {x y : List Char} (nonempty : x ≠ [] ∧ y ≠ []) (here : allBlank x = true)
    (there : allBlank y = true) (spaced : Spaced a b) : Spaced (x ++ a) (y ++ b) := by
  obtain ⟨c, x, rfl⟩ := List.exists_cons_of_ne_nil nonempty.1
  obtain ⟨d, y, rfl⟩ := List.exists_cons_of_ne_nil nonempty.2
  exact .gap c d x y here there spaced

theorem head?_any (spaced : Spaced a b) (ink : ∀ c, isBlank c = true → p c = false) :
    a.head?.any p = b.head?.any p := by
  cases spaced with
  | nil => rfl
  | char c rest => rfl
  | gap c d x y here there rest =>
    rw [allBlank_cons, Bool.and_eq_true] at here there
    exact (ink c here.1).trans (ink d there.1).symm

theorem takeWhile_eq (spaced : Spaced a b) (ink : ∀ c, isBlank c = true → p c = false) :
    a.takeWhile p = b.takeWhile p := by
  induction spaced with
  | nil => rfl
  | char c rest ih => rw [List.takeWhile_cons, List.takeWhile_cons, ih]
  | gap c d x y here there rest =>
    rw [allBlank_cons, Bool.and_eq_true] at here there
    simp [ink c here.1, ink d there.1]

theorem digits_locateAfter (address : Address) (afterLetter : Bool) (spaced : Spaced a b) :
    (locateAfter address afterLetter a).map (·.digits) =
      (locateAfter address afterLetter b).map (·.digits) := by
  have ink (c : Char) (blank : isBlank c = true) : isDecimalDigit c = false := by
    cases digit : isDecimalDigit c with
    | false => rfl
    | true => rw [isBlank_of_isDecimalDigit digit] at blank; cases blank
  induction spaced generalizing afterLetter with
  | nil => rfl
  | char c rest ih =>
    rw [locateAfter, locateAfter, rest.head?_any ink, rest.takeWhile_eq ink]
    split
    · rfl
    · simpa [Option.map_map, Function.comp_def] using ih (isLetter c)
  | gap c d x y here there rest ih =>
    rw [allBlank_cons, Bool.and_eq_true] at here there
    rw [List.cons_append, List.cons_append, locateAfter_cons_of_isBlank _ _ here.1,
      locateAfter_cons_of_isBlank _ _ there.1, locateAfter_blank_append _ here.2,
      locateAfter_blank_append _ there.2]
    simpa [Option.map_map, Function.comp_def] using ih false

theorem commandAfter_eq (afterLetter : Bool) (spaced : Spaced a b) :
    commandAfter afterLetter a = commandAfter afterLetter b := by
  have ink (c : Char) (blank : isBlank c = true) : extendsCommand c = false := by
    rw [Bool.eq_false_iff, extendsCommand, Ne, Bool.or_eq_true, beq_iff_eq]
    rintro (digit | rfl)
    · rw [isBlank_of_isDigit digit] at blank
      cases blank
    · revert blank
      decide
  induction spaced generalizing afterLetter with
  | nil => rfl
  | char c rest ih =>
    rw [commandAfter, commandAfter, isSix_eq, isSix_eq, rest.takeWhile_eq ink, ih]
  | gap c d x y here there rest ih =>
    rw [allBlank_cons, Bool.and_eq_true] at here there
    rw [List.cons_append, List.cons_append, commandAfter_cons_of_isBlank _ here.1,
      commandAfter_cons_of_isBlank _ there.1, commandAfter_blank_append here.2,
      commandAfter_blank_append there.2, ih]

theorem toolChange_eq (spaced : Spaced (mask a) (mask b)) : toolChange a = toolChange b := by
  have command : hasChangeCommand (mask a) = hasChangeCommand (mask b) := spaced.commandAfter_eq false
  have number : number? .tool a = number? .tool b := by
    rw [number?_eq, number?_eq]
    exact congrArg (·.bind readUInt32) (spaced.digits_locateAfter .tool false)
  exact toolChange_congr command number

end Spaced

/-! ### The text of comments -/

def Zone.read (zone : Zone) (c : Char) : Zone := if c = '\n' then .code else zone.next c

/-- What a comment may hold without opening or closing anything. -/
def isCommentText (c : Char) : Bool := c != '(' && c != ')' && c != ';' && c != '\n'

/-- Whether two programs, from a zone on, differ in the text of their comments only. -/
def agreeFrom : Zone → List Char → List Char → Bool
  | _, [], [] => true
  | zone, c :: rest, d :: other =>
    (c == d || zone != .code && isCommentText c && isCommentText d) && agreeFrom (zone.read c) rest other
  | _, _, _ => false

theorem isCommentText_iff {c : Char} : isCommentText c = true ↔ c ≠ '(' ∧ c ≠ ')' ∧ c ≠ ';' ∧ c ≠ '\n' := by
  simp [isCommentText, and_assoc]

theorem next_of_isCommentText {zone : Zone} {c : Char} (comment : zone ≠ .code) (text : isCommentText c = true) :
    zone.next c = zone := by
  obtain ⟨notOpening, notClosing, -⟩ := isCommentText_iff.mp text
  exact after_eq_self comment fun d member => by
    obtain rfl := List.mem_singleton.mp member
    exact ⟨notOpening, notClosing⟩

theorem agreeFrom_cons_iff {zone : Zone} {c d : Char} {rest other : List Char} :
    agreeFrom zone (c :: rest) (d :: other) = true ↔
      (c = d ∨ zone ≠ .code ∧ isCommentText c = true ∧ isCommentText d = true) ∧
        agreeFrom (zone.read c) rest other = true := by
  simp [agreeFrom, and_assoc]

theorem spaced_maskFrom_cons {zone : Zone} {c d : Char} {line other : List Char}
    (here : c = d ∨ zone ≠ .code ∧ isCommentText c = true ∧ isCommentText d = true)
    (rest : Spaced (maskFrom (zone.next c) line) (maskFrom (zone.next c) other)) :
    Spaced (maskFrom zone (c :: line)) (maskFrom zone (d :: other)) := by
  rw [maskFrom, maskFrom]
  rcases here with rfl | ⟨comment, text, text'⟩
  · exact rest.append_left _
  · rw [next_of_isCommentText comment text] at rest ⊢
    rw [next_of_isCommentText comment text']
    have hidden (c : Char) := allBlank_veil zone c (Zone.hides_of_ne_code comment c)
    exact .gap_append ⟨veil_ne_nil zone c, veil_ne_nil zone d⟩ (hidden c) (hidden d) rest

theorem spaced_lines {zone : Zone} {program edited : List Char} (agree : agreeFrom zone program edited = true) :
    ∃ first others first' others', lines program = first :: others ∧ lines edited = first' :: others' ∧
      Spaced (maskFrom zone first) (maskFrom zone first') ∧
      others.map toolChange = others'.map toolChange := by
  induction program generalizing zone edited with
  | nil =>
    cases edited with
    | nil => exact ⟨[], [], [], [], rfl, rfl, .nil, rfl⟩
    | cons d edited => cases agree
  | cons c rest ih =>
    cases edited with
    | nil => cases agree
    | cons d edited =>
      obtain ⟨here, later⟩ := agreeFrom_cons_iff.mp agree
      obtain ⟨first, others, first', others', cut, cut', start, same⟩ := ih later
      by_cases ends : c = '\n'
      · have stays : d = '\n' := by
          rcases here with rfl | ⟨-, text, -⟩
          · exact ends
          · exact absurd ends (isCommentText_iff.mp text).2.2.2
        rw [Zone.read, if_pos ends] at start
        rw [ends, stays, lines_newline, lines_newline, cut, cut']
        exact ⟨[], _, [], _, rfl, rfl, .nil, congrArg₂ List.cons start.toolChange_eq same⟩
      · have stays : d ≠ '\n' := by
          rcases here with rfl | ⟨-, -, text⟩
          · exact ends
          · exact (isCommentText_iff.mp text).2.2.2
        rw [Zone.read, if_neg ends] at start
        exact ⟨c :: first, others, d :: first', others', lines_cons ends cut, lines_cons stays cut',
          spaced_maskFrom_cons here start, same⟩

theorem changes_eq_of_agree {program edited : String}
    (agree : agreeFrom .code program.toList edited.toList = true) : changes edited = changes program := by
  obtain ⟨first, others, first', others', cut, cut', start, same⟩ := spaced_lines agree
  unfold changes
  apply changesFrom_congr
  rw [cut, cut', List.map_cons, List.map_cons, start.toolChange_eq, same]

/-! ### Programs -/

/-- A program's references are the first changes of its lines. No comment has a part in them: a line changes
to the tool that its mask does, and a program with other text in its comments has the same references. -/
theorem firstChanges_references (program : String) (library : Library) (overrides : Overrides) :
    FirstChanges (lines program.toList)
        ((references program library overrides).map fun reference => (reference.line, reference.tool)) ∧
      (∀ line, toolChange (mask line) = toolChange line) ∧
      ∀ edited : String, agreeFrom .code program.toList edited.toList = true →
        references edited library overrides = references program library overrides := by
  refine ⟨?_, fun line => ?_, fun edited agree => ?_⟩
  · have listed : (references program library overrides).map (fun reference => (reference.line, reference.tool)) =
        changesFrom 1 [] (lines program.toList) := by
      simp [references, changes, Function.comp_def]
    rw [listed]
    exact firstChanges _
  · have same : mask (mask line) = mask line := mask_maskFrom .code line
    unfold toolChange
    rw [same]
  · unfold references
    rw [changes_eq_of_agree agree]

/-- In the groups, in the tail and in a group that the end of its line leaves open other text may stand, of
other lengths in bytes, even with words in it. -/
theorem firstChanges_references_commented :
    let program := "T1 M6 (drill (T4))\n(T3 M6 ; T2 M6\nM06 T2 ; (T1)\nT1 M6"
    let edited := "T1 M6 (M6 T2é(\r\t))\n(M6 T9 ; °°°°°\nM06 T2 ; (T3)\nT1 M6"
    agreeFrom .code program.toList edited.toList = true ∧
      references edited .empty (Table.ofList []) = references program .empty (Table.ofList []) ∧
      (references program .empty (Table.ofList [])).map (fun reference => (reference.line, reference.tool)) =
        [(1, 1), (3, 2)] := by
  intro program edited
  have agree : agreeFrom .code program.toList edited.toList = true := by decide +kernel
  exact ⟨agree, (firstChanges_references program .empty (Table.ofList [])).2.2 edited agree, by decide +kernel⟩

end ToolChanger.Program
