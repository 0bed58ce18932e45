import ToolChanger.Proofs.Renumbering.Line
import ToolChanger.Settings

/-!
# Comments of a renumbered program

The note on a comment may break the line or lead out of the comment, which depends on nothing but the label and on
what stands behind the tool word (`keepsComments_iff`).
-/

namespace ToolChanger

open Program Text

namespace Program

/-- A text put into a comment that does not show there, and shows nothing of what stands behind it. -/
structure Covers (zone : Zone) (text rest : List Char) : Prop where
  own : allBlank (maskFrom zone text) = true
  inside : zone.after text ≠ .code
  behind : allBlank (maskFrom (zone.after text) rest) = true

/-- A text that any comment takes in: from within any number of groups it does not show, and it ends as deep
in them as it began or in a tail. -/
structure Inert (text : List Char) : Prop where
  oneLine : '\n' ∉ text
  hidden : ∀ outer, allBlank (maskFrom (.group outer) text) = true
  level : ∀ outer, (Zone.group outer).after text = .group outer ∨ (Zone.group outer).after text = .tail

variable {zone : Zone} {text rest : List Char}

theorem Inert.covers (inert : Inert text) (comment : zone ≠ .code)
    (hidden : allBlank (maskFrom zone rest) = true) : Covers zone text rest := by
  cases zone with
  | code => exact absurd rfl comment
  | group outer =>
    rcases inert.level outer with same | tail
    · exact ⟨inert.hidden outer, by simp [same], same.symm ▸ hidden⟩
    · exact ⟨inert.hidden outer, by simp [tail], tail.symm ▸ allBlank_maskFrom_tail rest⟩
  | tail =>
    have tail := after_tail text
    exact ⟨allBlank_maskFrom_tail text, by simp [tail], tail.symm ▸ hidden⟩

theorem Inert.of_level (oneLine : '\n' ∉ text) (level : ∀ c ∈ text, c ≠ '(' ∧ c ≠ ')') : Inert text := by
  have comment (outer : Nat) : Zone.group outer ≠ .code := by simp
  exact ⟨oneLine, fun outer => (level_of_comment (comment outer) level).1,
    fun outer => Or.inl (level_of_comment (comment outer) level).2⟩

/-! ### What reads on from the wrong depth -/

/-- What stands behind a tool word in a comment: nothing that shows, and no digit of the word. -/
structure Trails (outer : Nat) (rest : List Char) : Prop where
  oneLine : '\n' ∉ rest
  undigited : rest.head?.any isDecimalDigit = false
  hidden : allBlank (maskFrom (.group outer) rest) = true

theorem exists_shown_of_lt {outer deep : Nat} (less : deep < outer) :
    ∃ rest, Trails outer rest ∧ allBlank (maskFrom (.group deep) rest) = false := by
  obtain ⟨further, rfl⟩ := Nat.exists_eq_add_of_lt less
  have some := closing further (deep + 1)
  have all := closing_all deep
  rw [show further + (deep + 1) = deep + further + 1 by omega] at some
  refine ⟨List.replicate (deep + 1) ')' ++ ['x'], ⟨by simp, by simp [List.replicate_succ]; decide, ?_⟩, ?_⟩
  · have inside : Zone.group further ≠ .code := by simp
    rw [allBlank_maskFrom_append, some.1, some.2]
    exact allBlank_maskFrom inside (by decide)
  · rw [allBlank_maskFrom_append, all.1, all.2]
    decide

/-- Read on from deeper, the same closing parentheses leave groups open: what began a tail is text of a
group, and the parentheses in the tail close it. -/
theorem exists_shown_of_gt {outer deep : Nat} (more : outer < deep) :
    ∃ rest, Trails outer rest ∧ allBlank (maskFrom (.group deep) rest) = false := by
  obtain ⟨further, rfl⟩ := Nat.exists_eq_add_of_lt more
  have some := closing further (outer + 1)
  have all := closing_all outer
  have last := closing_all further
  rw [show further + (outer + 1) = outer + further + 1 by omega] at some
  have text : (Zone.group further).after [';'] = .group further := rfl
  refine ⟨List.replicate (outer + 1) ')' ++ ([';'] ++ (List.replicate (further + 1) ')' ++ ['x'])),
    ⟨by simp, by simp [List.replicate_succ]; decide, ?_⟩, ?_⟩
  · have tail : Zone.code.after [';'] = .tail := rfl
    rw [allBlank_maskFrom_append, all.1, all.2, allBlank_maskFrom_append, tail, allBlank_maskFrom_tail]
    decide
  · rw [allBlank_maskFrom_append, some.1, some.2, allBlank_maskFrom_append, text, allBlank_maskFrom_append,
      last.1, last.2]
    simp [show allBlank (maskFrom .code ['x']) = false by decide]

theorem Inert.of_covers (oneLine : '\n' ∉ text)
    (covers : ∀ outer rest, Trails outer rest → Covers (.group outer) text rest) : Inert text := by
  have alone (outer : Nat) := covers outer [] ⟨List.not_mem_nil, rfl, rfl⟩
  refine ⟨oneLine, fun outer => (alone outer).own, fun outer => ?_⟩
  cases ends : (Zone.group outer).after text with
  | code => exact absurd ends (alone outer).inside
  | tail => exact Or.inr rfl
  | group deep =>
    have level : ¬ ∃ rest, Trails outer rest ∧ allBlank (maskFrom (.group deep) rest) = false := by
      rintro ⟨rest, trails, shown⟩
      have hidden := (covers outer rest trails).behind
      rw [ends, shown] at hidden
      cases hidden
    -- From another depth something shows, whether fewer groups are open or more.
    rcases Nat.lt_trichotomy deep outer with less | rfl | more
    · exact absurd (exists_shown_of_lt less) level
    · exact Or.inl rfl
    · exact absurd (exists_shown_of_gt more) level

end Program

namespace Renumbering

variable {pockets : Table Pocket} {label line : List Char} {place : Place}

/-! ### One line -/

/-- Whether the note on a comment breaks the line or shows some of the comment's text. -/
def Spills (pockets : Table Pocket) (label line : List Char) : Prop :=
  isCommentOnly line = true ∧ ∃ place tool, locate .tool line = some place ∧
    readUInt32 place.digits = some tool ∧ pockets.contains tool = true ∧
    ¬ ('\n' ∉ label ∧ Covers (Zone.code.after place.before) label place.after)

theorem allBlank_annotated_iff (comment : isCommentOnly line = true) (located : locate .tool line = some place)
    (pocket : Pocket) : allBlank (mask (place.withNumber (note label pocket place.digits))) = true ↔
      Covers (Zone.code.after place.before) label place.after := by
  obtain ⟨-, isFirst⟩ := isFirst_of_locateAfter located
  obtain ⟨inside, before, -, -⟩ := hidden_of_isCommentOnly comment located
  have opening : ∀ c ∈ " [".toList, c ≠ '(' ∧ c ≠ ')' := by simp
  have tool : ∀ c ∈ ": tool ".toList, c ≠ '(' ∧ c ≠ ')' := by simp
  have front : ∀ c ∈ place.letter :: (numeral pocket.toNat ++ " [".toList), c ≠ '(' ∧ c ≠ ')' := by
    intro c member
    rcases List.mem_cons.mp member with rfl | member
    · exact level_of_matches isFirst.letter
    · rcases List.mem_append.mp member with digit | frame
      · exact level_of_isDecimalDigit (isDecimalDigit_of_numeral digit)
      · exact opening c frame
  have back : ∀ c ∈ place.digits ++ [']'], c ≠ '(' ∧ c ≠ ')' := by
    intro c member
    rcases List.mem_append.mp member with digit | frame
    · exact level_of_isDecimalDigit (isFirst.digits c digit)
    · obtain rfl := List.mem_singleton.mp frame
      decide
  have cut : place.withNumber (note label pocket place.digits) = place.before ++
      ((place.letter :: (numeral pocket.toNat ++ " [".toList)) ++
        (label ++ (": tool ".toList ++ ((place.digits ++ [']']) ++ place.after)))) := by
    simp [Place.withNumber, note]
  unfold mask at before ⊢
  rw [cut, allBlank_maskFrom_append, before, allBlank_maskFrom_append, (level_of_comment inside front).1,
    (level_of_comment inside front).2, allBlank_maskFrom_append, allBlank_maskFrom_append]
  by_cases out : (Zone.code.after place.before).after label = .code
  · -- Behind a label that leads out of the comment the note itself shows.
    have shown : allBlank (maskFrom .code ": tool ".toList) = false := by decide +kernel
    rw [out, shown]
    simp only [Bool.false_and, Bool.and_false, Bool.false_eq_true, false_iff]
    exact fun covers => covers.inside out
  · rw [(level_of_comment out tool).1, (level_of_comment out tool).2, allBlank_maskFrom_append,
      (level_of_comment out back).1, (level_of_comment out back).2]
    simp only [Bool.true_and, Bool.and_eq_true]
    constructor
    · rintro ⟨own, behind⟩
      exact ⟨own, out, behind⟩
    · intro covers
      exact ⟨covers.own, covers.behind⟩

theorem newline_mem_annotated_iff (unbroken : '\n' ∉ line) (located : locate .tool line = some place)
    (pocket : Pocket) : '\n' ∈ place.withNumber (note label pocket place.digits) ↔ '\n' ∈ label := by
  obtain ⟨rfl, isFirst⟩ := isFirst_of_locateAfter located
  constructor
  · intro broken
    by_contra unlabelled
    exact notMem_withNumber unbroken
      (notMem_note (by decide) unlabelled (by decide +kernel) pocket isFirst.digits) broken
  · intro labelled
    have noted : '\n' ∈ note label pocket place.digits := by simp [note, labelled]
    exact mem_withNumber.mpr (Or.inr (Or.inr (Or.inl noted)))

theorem not_allBlank_withNumber (located : locate .tool line = some place) (number : List Char) :
    allBlank (place.withNumber number) = false := by
  obtain ⟨-, isFirst⟩ := isFirst_of_locateAfter located
  have ink := isBlank_of_isLetter (Address.letter_of_matches isFirst.letter).1
  rw [Place.withNumber, allBlank_append, allBlank_cons, ink, Bool.false_and, Bool.and_false]

theorem line_of_comment (comment : isCommentOnly line = true) :
    (Renumbering.line pockets label line).text = (annotate pockets label line).getD line := by
  have ink : allBlank line = false := by simpa using (Bool.and_eq_true_iff.mp comment).1
  unfold Renumbering.line
  rw [if_neg (by simp [ink]), if_pos comment]
  cases annotate pockets label line <;> rfl

theorem line_of_code (code : isCommentOnly line = false) :
    Renumbering.line pockets label line = Renumbering.line pockets [] line := by
  unfold Renumbering.line
  simp only [code, Bool.false_eq_true, if_false]

theorem line_kept_iff (pockets : Table Pocket) (label : List Char) (unbroken : '\n' ∉ line) :
    ('\n' ∉ (Renumbering.line pockets label line).text ∧
      (isCommentOnly line = true → isCommentOnly (Renumbering.line pockets label line).text = true)) ↔
    ¬ Spills pockets label line := by
  cases comment : isCommentOnly line with
  | false =>
    have unspilled : ¬ Spills pockets label line := fun spills => by simp [spills.1] at comment
    rw [line_of_code comment]
    exact iff_of_true ⟨newline_notMem_line pockets unbroken List.not_mem_nil, fun only => by cases only⟩
      unspilled
  | true =>
    rw [line_of_comment comment]
    cases annotated : annotate pockets label line with
    | none =>
      have unspilled : ¬ Spills pockets label line := by
        rintro ⟨-, place, tool, located, read, assigned, -⟩
        obtain ⟨pocket, assigned⟩ := Option.isSome_iff_exists.mp assigned
        have noted : annotate pockets label line = some (place.withNumber (note label pocket place.digits)) :=
          annotate_eq_some_iff.mpr ⟨place, tool, pocket, located, read, assigned, rfl⟩
        rw [annotated] at noted
        cases noted
      exact iff_of_true ⟨unbroken, fun _ => comment⟩ unspilled
    | some text =>
      obtain ⟨place, tool, pocket, located, read, assigned, rfl⟩ := annotate_eq_some_iff.mp annotated
      have known : pockets.contains tool = true := Option.isSome_iff_exists.mpr ⟨pocket, assigned⟩
      have only : isCommentOnly (place.withNumber (note label pocket place.digits)) = true ↔
          Covers (Zone.code.after place.before) label place.after := by
        rw [isCommentOnly, not_allBlank_withNumber located]
        exact allBlank_annotated_iff comment located pocket
      rw [Option.getD_some, newline_mem_annotated_iff unbroken located, only]
      constructor
      · rintro ⟨oneLine, covers⟩ ⟨-, other, _, relocated, -, -, spilt⟩
        obtain rfl := Option.some.inj (located.symm.trans relocated)
        exact spilt ⟨oneLine, covers rfl⟩
      · intro unspilled
        by_contra spilt
        exact unspilled ⟨comment, place, tool, located, read, known, fun ⟨oneLine, covers⟩ =>
          spilt ⟨oneLine, fun _ => covers⟩⟩

/-! ### Programs -/

/-- A renumbered program has as many lines as before, and what was a comment only is one still. -/
structure KeepsComments (pockets : Table Pocket) (label program : String) : Prop where
  length : (lines (ofProgram pockets label program).text.toList).length = (lines program.toList).length
  comment : ∀ (i : Nat) (line text : List Char), (lines program.toList)[i]? = some line →
    (lines (ofProgram pockets label program).text.toList)[i]? = some text →
      isCommentOnly line = true → isCommentOnly text = true

theorem keepsComments_iff (pockets : Table Pocket) (label program : String) :
    KeepsComments pockets label program ↔
      ∀ line ∈ lines program.toList, ¬ Spills pockets label.toList line := by
  let renumbered (line : List Char) := (Renumbering.line pockets label.toList line).text
  have joined : (ofProgram pockets label program).text.toList =
      ofLines ((lines program.toList).map renumbered) := toList_ofProgram pockets label program
  have nonempty : (lines program.toList).map renumbered ≠ [] := by simp [lines_ne_nil]
  have length := length_lines_ofLines nonempty
  have split := lines_ofLines nonempty
  rw [List.length_map, List.forall_mem_map] at length
  rw [List.forall_mem_map] at split
  have each (line : List Char) (listed : line ∈ lines program.toList) :=
    line_kept_iff pockets label.toList (newline_notMem_of_mem_lines listed)
  constructor
  · rintro ⟨same, comments⟩ line listed
    rw [joined] at same comments
    have unbroken := length.mp same
    rw [split unbroken] at comments
    obtain ⟨i, here⟩ := List.getElem?_of_mem listed
    refine (each line listed).mp ⟨unbroken line listed, fun comment => ?_⟩
    exact comments i line (renumbered line) here (by rw [List.getElem?_map, here]; rfl) comment
  · intro unspilled
    have unbroken : ∀ line ∈ lines program.toList, '\n' ∉ renumbered line :=
      fun line listed => ((each line listed).mpr (unspilled line listed)).1
    refine ⟨by rw [joined, length.mpr unbroken], ?_⟩
    rw [joined, split unbroken]
    intro i line text here there comment
    rw [List.getElem?_map, here] at there
    obtain rfl := Option.some.inj there
    have listed := List.mem_of_getElem? here
    exact ((each line listed).mpr (unspilled line listed)).2 comment

/-! ### Labels -/

def commentOn (outer : Nat) (rest : List Char) : List Char :=
  List.replicate (outer + 1) '(' ++ 'T' :: ('1' :: rest)

theorem locate_commentOn (outer : Nat) {rest : List Char} (undigited : rest.head?.any isDecimalDigit = false) :
    locate .tool (commentOn outer rest) = some ⟨List.replicate (outer + 1) '(', 'T', ['1'], rest⟩ := by
  have noWord (n : Nat) : locateAfter .tool false (List.replicate n '(') = none ∧
      endsInLetter false (List.replicate n '(') = false := by
    induction n with
    | zero => exact ⟨rfl, rfl⟩
    | succ n ih =>
      rw [List.replicate_succ, locateAfter_cons_of_other false rfl]
      have other : isLetter '(' = false := by decide
      rw [other, ih.1]
      exact ⟨rfl, ih.2⟩
  refine locateAfter_eq_some_iff.mpr ⟨rfl, rfl, (noWord _).2, (noWord _).1, List.cons_ne_nil _ _, ?_, undigited⟩
  intro c member
  obtain rfl := List.mem_singleton.mp member
  decide

theorem isCommentOnly_commentOn {outer : Nat} {rest : List Char} (trails : Trails outer rest) :
    isCommentOnly (commentOn outer rest) = true ∧
      Zone.code.after (List.replicate (outer + 1) '(') = .group outer := by
  have opened : Zone.code.after (List.replicate (outer + 1) '(') = .group outer := by
    rw [List.replicate_succ, Zone.after_cons]
    show (Zone.group 0).after _ = _
    rw [after_opening, Nat.zero_add]
  have groups : allBlank (maskFrom .code (List.replicate (outer + 1) '(')) = true := by
    rw [List.replicate_succ, maskFrom, allBlank_append, allBlank_veil _ _ rfl]
    exact allBlank_maskFrom (by simp [Zone.next]) (by simp)
  have ink := not_allBlank_withNumber (locate_commentOn outer trails.undigited) ['1']
  refine ⟨?_, opened⟩
  unfold isCommentOnly mask
  show (!allBlank (commentOn outer rest) && _) = true
  have cut : commentOn outer rest = List.replicate (outer + 1) '(' ++ (['T', '1'] ++ rest) := rfl
  have inside : Zone.group outer ≠ .code := by simp
  have level : ∀ c ∈ ['T', '1'], c ≠ '(' ∧ c ≠ ')' := by simp
  have word := level_of_comment inside level
  rw [show allBlank (commentOn outer rest) = false from ink, cut, allBlank_maskFrom_append, groups, opened,
    allBlank_maskFrom_append, word.1, word.2, trails.hidden]
  rfl

theorem covers_of_keepsComments {label : String} {outer : Nat} {rest : List Char} (trails : Trails outer rest)
    (kept : KeepsComments (Table.ofList [(1, 1)]) label (String.ofList (commentOn outer rest))) :
    '\n' ∉ label.toList ∧ Covers (.group outer) label.toList rest := by
  have unbroken : '\n' ∉ commentOn outer rest := by simp [commentOn, trails.oneLine]
  obtain ⟨comment, opened⟩ := isCommentOnly_commentOn trails
  have unspilled := (keepsComments_iff _ _ _).mp kept (commentOn outer rest)
    (by rw [String.toList_ofList, lines_of_unbroken unbroken]; exact List.mem_singleton_self _)
  by_contra spilt
  rw [← opened] at spilt
  have read : readUInt32 ['1'] = some 1 := by decide
  exact unspilled ⟨comment, _, 1, locate_commentOn outer trails.undigited, read, by decide, spilt⟩

/-- A renumbered program keeps its lines and its comments unless a note spills, and the labels with which
every program keeps them are the inert ones. A label of one line without parentheses is inert. -/
theorem comments_renumbered (label : String) :
    (∀ (pockets : Table Pocket) (program : String), KeepsComments pockets label program ↔
      ∀ line ∈ lines program.toList, ¬ Spills pockets label.toList line) ∧
    ((∀ (pockets : Table Pocket) (program : String), KeepsComments pockets label program) ↔
      Inert label.toList) ∧
    ('\n' ∉ label.toList → (∀ c ∈ label.toList, c ≠ '(' ∧ c ≠ ')') → Inert label.toList) := by
  refine ⟨fun pockets program => keepsComments_iff pockets label program,
    ⟨fun kept => ?_, fun inert => ?_⟩, Inert.of_level⟩
  · have bare : Trails 0 [] := ⟨List.not_mem_nil, rfl, rfl⟩
    have alone := covers_of_keepsComments bare (kept _ _)
    exact Inert.of_covers alone.1 fun outer rest trails => (covers_of_keepsComments trails (kept _ _)).2
  · intro pockets program
    rw [keepsComments_iff]
    rintro line - ⟨comment, place, tool, located, -, -, spilt⟩
    obtain ⟨inside, -, behind, -⟩ := hidden_of_isCommentOnly comment located
    exact spilt ⟨inert.oneLine, inert.covers inside behind⟩

/-- The label's parenthesis closes the comment, and the rest of the note is code. -/
theorem comments_renumbered_closed :
    let settings : Settings := { label := "Fusion)" }
    let pockets : Table Pocket := Table.ofList [(12, 3)]
    settings.isValid = true ∧
      (ofProgram pockets settings.label "(T12)").text = "(T3 [Fusion): tool 12])" ∧
      isCommentOnly "(T12)".toList = true ∧ isCommentOnly "(T3 [Fusion): tool 12])".toList = false ∧
    ¬ ∀ settings : Settings, settings.isValid = true → ∀ (pockets : Table Pocket) (program : String),
      KeepsComments pockets settings.label program := by
  intro settings pockets
  refine ⟨by decide +kernel, by decide +kernel, by decide +kernel, by decide +kernel, fun everywhere => ?_⟩
  have kept := everywhere settings (by decide +kernel) pockets "(T12)"
  have comment := kept.comment 0 "(T12)".toList "(T3 [Fusion): tool 12])".toList (by decide +kernel)
    (by decide +kernel) (by decide +kernel)
  revert comment
  decide +kernel

end Renumbering

end ToolChanger
