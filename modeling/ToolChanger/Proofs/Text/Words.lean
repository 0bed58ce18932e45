import ToolChanger.Text.Blank

/-!
# Words and the blanks between them

`Parted` says what the words of a text are. There is just one list of them, which is what `words` gives
(`words_eq_iff`).
-/

namespace ToolChanger.Text

variable {text word margin : List Char}

theorem words_append_blank (text : List Char) {blank : Char} (white : isBlank blank = true)
    (later : List Char) : words (text ++ blank :: later) = words text ++ words later := by
  unfold words
  rw [List.splitOnP_append_cons text later white, List.filter_append]

theorem words_cons_blank {blank : Char} (white : isBlank blank = true) (later : List Char) :
    words (blank :: later) = words later :=
  words_append_blank [] white later

theorem words_blank_append (white : allBlank margin = true) (text : List Char) :
    words (margin ++ text) = words text := by
  induction margin with
  | nil => rfl
  | cons blank rest ih =>
    obtain ⟨first, later⟩ := Bool.and_eq_true_iff.mp ((allBlank_cons blank rest).symm.trans white)
    rw [List.cons_append, words_cons_blank first, ih later]

theorem words_append_of_allBlank (text : List Char) (white : allBlank margin = true) :
    words (text ++ margin) = words text := by
  induction margin generalizing text with
  | nil => rw [List.append_nil]
  | cons blank rest ih =>
    obtain ⟨first, later⟩ := Bool.and_eq_true_iff.mp ((allBlank_cons blank rest).symm.trans white)
    rw [words_append_blank text first, show words rest = [] from ih [] later, List.append_nil]

theorem words_of_solid (nonempty : word ≠ []) (solid : ∀ c ∈ word, isBlank c = false) :
    words word = [word] := by
  have whole : word.splitOnP isBlank = [word] :=
    List.splitOnP_eq_singleton solid
  simp [words, whole, nonempty]

theorem words_trim (text : List Char) : words (trim text) = words text := by
  have front : text.takeWhile isBlank ++ text.dropWhile isBlank = text := List.takeWhile_append_dropWhile
  have back : trim text ++ ((text.dropWhile isBlank).reverse.takeWhile isBlank).reverse =
      text.dropWhile isBlank := by
    rw [trim, ← List.reverse_append, List.takeWhile_append_dropWhile, List.reverse_reverse]
  have margin : allBlank ((text.dropWhile isBlank).reverse.takeWhile isBlank).reverse = true := by
    rw [allBlank, List.all_reverse]
    exact List.all_takeWhile
  calc words (trim text)
      _ = words (text.dropWhile isBlank) := by rw [← words_append_of_allBlank (trim text) margin, back]
      _ = words (text.takeWhile isBlank ++ text.dropWhile isBlank) :=
        (words_blank_append List.all_takeWhile _).symm
      _ = words text := by rw [front]

/-- A text consists of some words, apart from blanks. -/
inductive Parted : List Char → List (List Char) → Prop where
  | blank {margin : List Char} : allBlank margin = true → Parted margin []
  | word {margin word rest : List Char} {later : List (List Char)} : allBlank margin = true →
      word ≠ [] → (∀ c ∈ word, isBlank c = false) → (∀ c, rest.head? = some c → isBlank c = true) →
      Parted rest later → Parted (margin ++ (word ++ rest)) (word :: later)

theorem words_of_parted {parts : List (List Char)} (parted : Parted text parts) : words text = parts := by
  induction parted with
  | blank white => exact words_append_of_allBlank [] white
  | @word margin word rest later white nonempty solid ends _ ih =>
    rw [words_blank_append white]
    cases rest with
    | nil =>
      have none : later = [] := ih.symm
      rw [List.append_nil, words_of_solid nonempty solid, none]
    | cons blank rest =>
      have white := ends blank rfl
      rw [words_append_blank word white, words_of_solid nonempty solid, ← words_cons_blank white, ih]
      rfl

theorem exists_parted (text : List Char) : ∃ parts, Parted text parts := by
  induction text with
  | nil => exact ⟨[], .blank rfl⟩
  | cons c rest ih =>
    obtain ⟨parts, parted⟩ := ih
    cases white : isBlank c with
    | true =>
      have wider {margin : List Char} (blank : allBlank margin = true) : allBlank (c :: margin) = true := by
        rw [allBlank_cons, white, blank]
        rfl
      cases parted with
      | blank margin => exact ⟨[], .blank (wider margin)⟩
      | word margin nonempty solid ends later => exact ⟨_, .word (wider margin) nonempty solid ends later⟩
    | false =>
      have alone : ∀ d ∈ [c], isBlank d = false := by simp [white]
      cases parted with
      | blank margin =>
        have ends (d : Char) (first : rest.head? = some d) : isBlank d = true :=
          List.all_eq_true.mp margin d (List.mem_of_head? first)
        exact ⟨_, @Parted.word [] [c] rest [] rfl (by simp) alone ends (.blank margin)⟩
      | @word margin word rest later blank nonempty solid ends parted =>
        cases margin with
        | nil =>
          have longer : ∀ d ∈ c :: word, isBlank d = false := List.forall_mem_cons.mpr ⟨white, solid⟩
          exact ⟨_, @Parted.word [] (c :: word) rest later rfl (by simp) longer ends parted⟩
        | cons d margin =>
          obtain ⟨first, -⟩ := Bool.and_eq_true_iff.mp ((allBlank_cons d margin).symm.trans blank)
          refine ⟨_, @Parted.word [] [c] _ _ rfl (by simp) alone ?_ (.word blank nonempty solid ends parted)⟩
          rintro _ ⟨⟩
          exact first

theorem words_eq_iff {parts : List (List Char)} : words text = parts ↔ Parted text parts := by
  constructor
  · rintro rfl
    obtain ⟨parts, parted⟩ := exists_parted text
    rwa [words_of_parted parted]
  · exact words_of_parted

end ToolChanger.Text
