import Mathlib.Data.List.Induction
import ToolChanger.Proofs.Renumbering.Line
import ToolChanger.Proofs.Text.Offset

/-!
# What a comment is

Comments are described by the parentheses that match, without a scan: `IsComment` says which part of a line is one.
The scan agrees, since what it has read determines the zone it is in (`stands_after`).
-/

namespace ToolChanger.Program

open Text

/-! ### Parentheses that match -/

/-- No parenthesis in a text closes one that was opened before it. -/
def Nested (text : List Char) : Prop := ∀ front, front <+: text → front.count ')' ≤ front.count '('

/-- Every parenthesis in a text has its partner there. -/
def Balanced (text : List Char) : Prop := Nested text ∧ text.count '(' = text.count ')'

variable {text front back inner before after comment : List Char} {c : Char}

theorem Nested.of_begins (nested : Nested text) (begins : front <+: text) : Nested front :=
  fun start first => nested start (first.trans begins)

theorem nested_nil : Nested [] := by
  intro front begins
  rw [List.prefix_nil.mp begins]
  exact Nat.le_refl _

theorem nested_concat_iff : Nested (text ++ [c]) ↔
    Nested text ∧ (text ++ [c]).count ')' ≤ (text ++ [c]).count '(' := by
  constructor
  · intro nested
    exact ⟨nested.of_begins (List.prefix_append text [c]), nested _ (List.prefix_refl _)⟩
  · rintro ⟨nested, last⟩ front begins
    rcases List.prefix_concat_iff.mp begins with rfl | earlier
    · exact last
    · exact nested front earlier

theorem count_concat (text : List Char) (c d : Char) :
    (text ++ [c]).count d = text.count d + if c = d then 1 else 0 := by
  rw [List.count_append, List.count_singleton]
  simp only [beq_iff_eq]

theorem nested_concat_or (nested : Nested text) (c : Char) :
    Nested (text ++ [c]) ∨ c = ')' ∧ Balanced text := by
  have order := nested text (List.prefix_refl text)
  by_cases partner : c = ')' ∧ text.count '(' = text.count ')'
  · exact Or.inr ⟨partner.1, nested, partner.2⟩
  · refine Or.inl (nested_concat_iff.mpr ⟨nested, ?_⟩)
    rw [count_concat, count_concat]
    split
    · rename_i closing
      have unsettled : text.count '(' ≠ text.count ')' := fun same => partner ⟨closing, same⟩
      omega
    · omega

theorem nested_or_partner (text : List Char) :
    Nested text ∨ ∃ inner after, Balanced inner ∧ text = inner ++ ')' :: after := by
  induction text using List.reverseRecOn with
  | nil => exact Or.inl nested_nil
  | append_singleton text c ih =>
    rcases ih with nested | ⟨inner, after, balanced, rfl⟩
    · rcases nested_concat_or nested c with longer | ⟨rfl, balanced⟩
      · exact Or.inl longer
      · exact Or.inr ⟨text, [], balanced, rfl⟩
    · exact Or.inr ⟨inner, after ++ [c], balanced, by simp⟩

theorem Balanced.not_nested (balanced : Balanced inner) (after : List Char) :
    ¬ Nested (inner ++ ')' :: after) := by
  intro nested
  have first : inner ++ [')'] <+: inner ++ ')' :: after := ⟨after, by simp⟩
  have order := nested _ first
  rw [count_concat, count_concat, if_pos rfl, if_neg (by decide), balanced.2] at order
  omega

/-! ### Comments -/

/-- A text after which one stands in the code: outside of its comments, all of them closed. -/
inductive EndsInCode : List Char → Prop
  | start : EndsInCode []
  | code {front : List Char} {c : Char} : EndsInCode front → c ≠ '(' → c ≠ ';' → EndsInCode (front ++ [c])
  | group {front inner : List Char} :
      EndsInCode front → Balanced inner → EndsInCode (front ++ '(' :: (inner ++ [')']))

/-- A comment between two parts of a line: a group up to its closing parenthesis, a group that is never
closed, or a tail. -/
inductive IsComment : List Char → List Char → List Char → Prop
  | group {before inner : List Char} (after : List Char) : EndsInCode before → Balanced inner →
      IsComment before ('(' :: (inner ++ [')'])) after
  | unclosed {before rest : List Char} : EndsInCode before →
      (∀ inner after, Balanced inner → rest ≠ inner ++ ')' :: after) → IsComment before ('(' :: rest) []
  | tail {before : List Char} (rest : List Char) : EndsInCode before → IsComment before (';' :: rest) []

/-- The character between two parts of a line belongs to a comment, as a delimiter or inside. -/
def InComment (front : List Char) (c : Char) (back : List Char) : Prop :=
  ∃ before piece rest after, IsComment before (piece ++ c :: rest) after ∧
    front = before ++ piece ∧ back = rest ++ after

/-! ### The scan -/

/-- How many of a text's parentheses are still open after it. -/
def stillOpen (text : List Char) : Nat := text.count '(' - text.count ')'

theorem Zone.next_of_nested (nested : Nested (text ++ [c])) :
    (Zone.group (stillOpen text)).next c = .group (stillOpen (text ++ [c])) := by
  obtain ⟨earlier, order⟩ := nested_concat_iff.mp nested
  have before := earlier text (List.prefix_refl text)
  unfold stillOpen
  rw [count_concat, count_concat] at order ⊢
  by_cases opening : c = '('
  · subst opening
    show Zone.group (text.count '(' - text.count ')' + 1) = _
    rw [if_pos rfl, if_neg (by decide), Zone.group.injEq]
    omega
  · rw [if_neg opening] at order ⊢
    by_cases closing : c = ')'
    · subst closing
      rw [if_pos rfl] at order ⊢
      obtain ⟨outer, left⟩ : ∃ outer, text.count '(' - text.count ')' = outer + 1 :=
        Nat.exists_eq_add_one_of_ne_zero (by omega)
      rw [left]
      show Zone.group outer = _
      rw [Zone.group.injEq]
      omega
    · simp only [Zone.next, if_neg opening, if_neg closing, Nat.add_zero]

theorem after_of_nested (nested : Nested text) : Zone.code.after ('(' :: text) = .group (stillOpen text) := by
  induction text using List.reverseRecOn with
  | nil => rfl
  | append_singleton text c ih =>
    rw [← List.cons_append, Zone.after_append, ih (nested_concat_iff.mp nested).1]
    exact Zone.next_of_nested nested

theorem EndsInCode.after_eq (ends : EndsInCode front) : Zone.code.after front = .code := by
  induction ends with
  | start => rfl
  | code _ notOpening notTail ih =>
    rw [Zone.after_append, ih, Zone.after_cons, Zone.next_code ⟨notOpening, notTail⟩]
    rfl
  | @group front inner _ balanced ih =>
    rw [Zone.after_append, ih, ← List.cons_append, Zone.after_append, after_of_nested balanced.1, stillOpen,
      balanced.2, Nat.sub_self]
    rfl

/-- The zone that a text leaves one in, with the comment that began there, if any. -/
inductive Stands : List Char → Zone → Prop
  | code {text : List Char} : EndsInCode text → Stands text .code
  | group {before inner : List Char} : EndsInCode before → Nested inner →
      Stands (before ++ '(' :: inner) (.group (stillOpen inner))
  | tail {before : List Char} (rest : List Char) : EndsInCode before → Stands (before ++ ';' :: rest) .tail

theorem Stands.next {zone : Zone} (stands : Stands text zone) (c : Char) :
    Stands (text ++ [c]) (zone.next c) := by
  cases stands with
  | code ends =>
    by_cases opening : c = '('
    · subst opening
      exact .group ends nested_nil
    · by_cases starts : c = ';'
      · subst starts
        exact .tail [] ends
      · rw [Zone.next_code ⟨opening, starts⟩]
        exact .code (ends.code opening starts)
  | @group before inner ends nested =>
    rw [List.append_assoc, List.cons_append]
    rcases nested_concat_or nested c with longer | ⟨rfl, balanced⟩
    · rw [Zone.next_of_nested longer]
      exact .group ends longer
    · rw [stillOpen, balanced.2, Nat.sub_self]
      exact .code (ends.group balanced)
  | @tail before rest ends =>
    rw [List.append_assoc, List.cons_append]
    exact .tail (rest ++ [c]) ends

theorem stands_after (text : List Char) : Stands text (Zone.code.after text) := by
  induction text using List.reverseRecOn with
  | nil => exact .code .start
  | append_singleton text c ih =>
    rw [Zone.after_append]
    exact ih.next c

/-! ### What is hidden -/

theorem IsComment.endsInCode (is : IsComment before comment after) : EndsInCode before := by
  cases is <;> assumption

theorem IsComment.unclosed_of_nested (ends : EndsInCode before) (nested : Nested text) :
    IsComment before ('(' :: text) [] :=
  .unclosed ends fun _ after balanced same => balanced.not_nested after (same ▸ nested)

theorem IsComment.begins {piece rest : List Char} (is : IsComment before (piece ++ c :: rest) after) :
    (piece = [] ∧ (c = '(' ∨ c = ';')) ∨ (∃ inner, piece = '(' :: inner ∧ Nested inner) ∨
      ∃ inner, piece = ';' :: inner := by
  generalize cut : piece ++ c :: rest = comment at is
  cases piece with
  | nil =>
    refine Or.inl ⟨rfl, ?_⟩
    cases is with
    | group => exact Or.inl (List.cons.inj cut).1
    | unclosed => exact Or.inl (List.cons.inj cut).1
    | tail => exact Or.inr (List.cons.inj cut).1
  | cons d piece =>
    refine Or.inr ?_
    cases is with
    | @group inner _ _ balanced =>
      obtain ⟨rfl, same⟩ := List.cons.inj cut
      refine Or.inl ⟨piece, rfl, ?_⟩
      have first : piece ++ [c] <+: inner ++ [')'] := ⟨rest, by simpa using same⟩
      rcases List.prefix_concat_iff.mp first with whole | earlier
      · rw [(List.append_inj' whole rfl).1]
        exact balanced.1
      · exact balanced.1.of_begins ((List.prefix_append piece [c]).trans earlier)
    | @unclosed others _ noPartner =>
      obtain ⟨rfl, same⟩ := List.cons.inj cut
      refine Or.inl ⟨piece, rfl, ?_⟩
      rcases nested_or_partner others with nested | ⟨inner, after, balanced, partner⟩
      · exact nested.of_begins ⟨c :: rest, same⟩
      · exact absurd partner (noPartner inner after balanced)
    | tail =>
      obtain ⟨rfl, -⟩ := List.cons.inj cut
      exact Or.inr ⟨piece, rfl⟩

theorem IsComment.hides {piece rest : List Char} (is : IsComment before (piece ++ c :: rest) after) :
    (Zone.code.after (before ++ piece)).hides c = true := by
  rw [Zone.after_append, is.endsInCode.after_eq]
  rcases is.begins with ⟨rfl, rfl | rfl⟩ | ⟨inner, rfl, nested⟩ | ⟨inner, rfl⟩
  · rfl
  · rfl
  · rw [after_of_nested nested]
    rfl
  · have started : Zone.code.next ';' = .tail := rfl
    rw [Zone.after_cons, started, after_tail]
    rfl

theorem inComment_of_nested (ends : EndsInCode before) (nested : Nested inner) (c : Char)
    (back : List Char) : InComment (before ++ '(' :: inner) c back := by
  rcases nested_or_partner (inner ++ c :: back) with unclosed | ⟨closed, after, balanced, same⟩
  · exact ⟨before, '(' :: inner, back, [], .unclosed_of_nested ends unclosed, rfl, by simp⟩
  · -- the partner comes after all that is nested
    have later : ¬ closed ++ [')'] <+: inner := fun first =>
      balanced.not_nested [] (nested.of_begins first)
    have cut : inner ++ (c :: back) = (closed ++ [')']) ++ after := by simpa using same
    rcases List.append_eq_append_iff.mp cut with ⟨piece, whole, rest⟩ | ⟨piece, whole, -⟩
    · cases piece with
      | nil => exact absurd ⟨[], by simpa using whole⟩ later
      | cons d piece =>
        obtain ⟨rfl, rfl⟩ := List.cons.inj rest
        refine ⟨before, '(' :: inner, piece, after, ?_, rfl, rfl⟩
        rw [List.cons_append, ← whole]
        exact .group after ends balanced
    · exact absurd ⟨piece, whole.symm⟩ later

theorem hides_after_iff (front : List Char) (c : Char) (back : List Char) :
    (Zone.code.after front).hides c = true ↔ InComment front c back := by
  constructor
  · intro hidden
    generalize zone : Zone.code.after front = zone at hidden
    cases zone ▸ stands_after front with
    | code ends =>
      have starts : c = '(' ∨ c = ';' := by simpa [Zone.hides] using hidden
      rcases starts with rfl | rfl
      · rcases nested_or_partner back with unclosed | ⟨inner, after, balanced, rfl⟩
        · exact ⟨front, [], back, [], .unclosed_of_nested ends unclosed, by simp, by simp⟩
        · exact ⟨front, [], inner ++ [')'], after, .group after ends balanced, by simp, by simp⟩
      · exact ⟨front, [], back, [], .tail back ends, by simp, by simp⟩
    | @group before inner ends nested => exact inComment_of_nested ends nested c back
    | @tail before rest ends =>
      exact ⟨before, ';' :: rest, back, [], .tail (rest ++ c :: back) ends, rfl, by simp⟩
  · rintro ⟨before, piece, rest, after, is, rfl, rfl⟩
    exact is.hides

/-! ### The mask -/

def charSpan (front : List Char) (c : Char) : Span := ⟨byteLength front, byteLength front + c.utf8Size⟩

theorem holds_veil (front : List Char) (c : Char) (back : List Char) :
    (charSpan front c).Holds (mask (front ++ c :: back)) (veil (Zone.code.after front) c) := by
  refine ⟨mask front, maskFrom ((Zone.code.after front).next c) back, maskFrom_append .code front _, ?_⟩
  rw [charSpan, byteLength_veil, mask, byteLength_maskFrom]

theorem veil_eq_self_iff (zone : Zone) (c : Char) :
    veil zone c = [c] ↔ c = ' ' ∨ c = '\r' ∨ zone.hides c = false := by
  unfold veil
  cases hidden : zone.hides c with
  | false => simp
  | true =>
    by_cases returns : c = '\r'
    · simp [returns]
    · simp only [returns, Bool.true_and, bne_iff_ne, ne_eq, not_false_eq_true, if_true, or_false,
        Bool.true_eq_false]
      constructor
      · intro same
        have member : c ∈ List.replicate c.utf8Size ' ' := by simp [same]
        exact List.eq_of_mem_replicate member
      · rintro rfl
        decide

theorem Place.holds_of_word? {place : Place} {word : Word} (read : place.word? = some word) :
    word.letter.Holds (place.withNumber place.digits) [place.letter] ∧
      word.digits.Holds (place.withNumber place.digits) place.digits := by
  obtain ⟨letter, digits, -⟩ := Place.word?_eq_some_iff.mp read
  refine ⟨⟨place.before, place.digits ++ place.after, rfl, ?_⟩,
    ⟨place.before ++ [place.letter], place.after, by simp [Place.withNumber], digits⟩⟩
  rw [letter, byteLength_append]

theorem Shows.word?_eq {raw place : Place} (seen : Shows raw place) : raw.word? = place.word? := by
  have offset : byteLength (mask raw.before) = byteLength raw.before := byteLength_maskFrom .code raw.before
  unfold Place.word?
  rw [← seen.before, offset, seen.letter, seen.digits]

theorem holds_of_firstWord {address : Address} {line : List Char} {word : Word}
    (found : firstWord address (mask line) = some word) :
    ∃ letter digits, word.letter.Holds (mask line) [letter] ∧ word.letter.Holds line [letter] ∧
      word.digits.Holds (mask line) digits ∧ word.digits.Holds line digits := by
  obtain ⟨place, located, read⟩ := Option.bind_eq_some_iff.mp found
  obtain ⟨raw, whole, seen⟩ := exists_shows located
  obtain ⟨masked, -⟩ := isFirst_of_locateAfter located
  have shown := Place.holds_of_word? read
  have stored := Place.holds_of_word? (seen.word?_eq.trans read)
  rw [← masked] at shown
  rw [← whole, seen.letter, seen.digits] at stored
  exact ⟨place.letter, place.digits, shown.1, stored.1, shown.2, stored.2⟩

theorem replaceWord_eq_splice? (pockets : Table Pocket) (address : Address) (line : List Char) :
    Renumbering.replaceWord pockets address line =
      (Renumbering.mappedWord pockets address line).bind fun (word, pocket) =>
        splice? line word.digits (numeral pocket.toNat) := by
  unfold Renumbering.replaceWord
  cases mapped : Renumbering.mappedWord pockets address line with
  | none => rfl
  | some found =>
    unfold Renumbering.mappedWord at mapped
    obtain ⟨word, found, mapped⟩ := Option.bind_eq_some_iff.mp mapped
    obtain ⟨pocket, -, same⟩ := Option.bind_eq_some_iff.mp mapped
    obtain rfl := Option.some.inj same
    obtain ⟨_, _, -, -, -, stored⟩ := holds_of_firstWord found
    exact (splice?_of_holds stored _).symm

/-- A line with its comments hidden: where they stood there are blanks, one for each byte. -/
structure CommentsHidden (line masked : List Char) : Prop where
  size : (bytes (String.ofList masked)).length = (bytes (String.ofList line)).length
  /-- Only a carriage return and what is no comment stays; a blank gives a blank in any case. -/
  kept : ∀ front c back, line = front ++ c :: back →
    ((charSpan front c).Holds masked [c] ↔ c = ' ' ∨ c = '\r' ∨ ¬ InComment front c back)
  hidden : ∀ front c back, line = front ++ c :: back → c ≠ '\r' → InComment front c back →
    (charSpan front c).Holds masked (List.replicate c.utf8Size ' ')
  plain : '(' ∉ masked ∧ ';' ∉ masked
  again : mask masked = masked
  words : ∀ address word, firstWord address masked = some word →
    ∃ letter digits, word.letter.Holds masked [letter] ∧ word.letter.Holds line [letter] ∧
      word.digits.Holds masked digits ∧ word.digits.Holds line digits
  /-- Every exchange in the line can be made there. -/
  exchanges : ∀ pockets address, Renumbering.replaceWord pockets address line =
    (Renumbering.mappedWord pockets address line).bind fun (word, pocket) =>
      splice? line word.digits (numeral pocket.toNat)

theorem commentsHidden_mask (line : List Char) : CommentsHidden line (mask line) where
  size := by rw [length_bytes, length_bytes, mask, byteLength_maskFrom]
  kept := by
    rintro front c back rfl
    rw [← hides_after_iff, Bool.not_eq_true, ← veil_eq_self_iff]
    have holds := holds_veil front c back
    exact ⟨fun same => holds.eq same, fun same => by rwa [same] at holds⟩
  hidden := by
    rintro front c back rfl visible inside
    have hidden := (hides_after_iff front c back).mpr inside
    have holds := holds_veil front c back
    rwa [veil, hidden, if_pos (by simpa using visible)] at holds
  plain := ⟨fun member => (plain_of_mem_maskFrom member).1 rfl,
    fun member => (plain_of_mem_maskFrom member).2 rfl⟩
  again := mask_maskFrom .code line
  words := fun _ _ found => holds_of_firstWord found
  exchanges := fun pockets address => replaceWord_eq_splice? pockets address line

example : mask "(\u00e9;(T1)) T2 ;T3\r".toList = "          T2    \r".toList := by decide +kernel

end ToolChanger.Program
