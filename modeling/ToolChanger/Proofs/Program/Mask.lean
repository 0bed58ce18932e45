import ToolChanger.Program.Comment
import ToolChanger.Text.Offset

/-!
# What a mask shows

A mask is made character by character, so it falls apart where its text does (`maskFrom_append`). What it shows,
blanks aside, stands in the code of the text at the same offset.
-/

namespace ToolChanger.Program

open Text

namespace Zone

/-- The zone after a text. -/
def after (zone : Zone) (text : List Char) : Zone := text.foldl next zone

theorem after_append (zone : Zone) (a b : List Char) : zone.after (a ++ b) = (zone.after a).after b :=
  List.foldl_append

theorem after_cons (zone : Zone) (c : Char) (text : List Char) :
    zone.after (c :: text) = (zone.next c).after text := rfl

theorem hides_eq_false_iff {zone : Zone} {c : Char} :
    zone.hides c = false ↔ zone = code ∧ c ≠ '(' ∧ c ≠ ';' := by
  cases zone <;> simp [hides]

theorem hides_of_ne_code {zone : Zone} (comment : zone ≠ code) (c : Char) : zone.hides c = true := by
  cases zone with
  | code => exact absurd rfl comment
  | group outer => rfl
  | tail => rfl

theorem next_code {c : Char} (plain : c ≠ '(' ∧ c ≠ ';') : code.next c = code := by
  simp [next, plain]

end Zone

variable {zone : Zone} {text : List Char}

/-! ### One character -/

theorem veil_of_shown {c : Char} (shown : zone.hides c = false) : veil zone c = [c] := by
  unfold veil
  rw [shown]
  rfl

theorem veil_ne_nil (zone : Zone) (c : Char) : veil zone c ≠ [] := by
  unfold veil
  split
  · have wide := c.utf8Size_pos
    simp only [ne_eq, List.replicate_eq_nil_iff]
    omega
  · simp

theorem veil_cases (zone : Zone) (c : Char) :
    (zone.hides c = false ∧ veil zone c = [c]) ∨
      (zone.hides c = true ∧ ∀ d ∈ veil zone c, isBlank d = true) := by
  cases hidden : zone.hides c with
  | false => exact Or.inl ⟨rfl, veil_of_shown hidden⟩
  | true =>
    refine Or.inr ⟨rfl, fun d member => ?_⟩
    unfold veil at member
    rw [hidden] at member
    split at member
    · obtain rfl := List.eq_of_mem_replicate member
      decide
    · obtain rfl := List.mem_singleton.mp member
      simp_all [isBlank]

theorem allBlank_veil (zone : Zone) (c : Char) (hidden : zone.hides c = true) :
    allBlank (veil zone c) = true := by
  rcases veil_cases zone c with ⟨shown, -⟩ | ⟨-, blanks⟩
  · rw [hidden] at shown
    cases shown
  · exact List.all_eq_true.mpr blanks

theorem byteLength_veil (zone : Zone) (c : Char) : byteLength (veil zone c) = c.utf8Size := by
  unfold veil
  split
  · have blanks (n : Nat) : byteLength (List.replicate n ' ') = n := by
      induction n with
      | zero => rfl
      | succ n ih =>
        rw [List.replicate_succ, byteLength, ih, show ' '.utf8Size = 1 from by decide]
        omega
    exact blanks _
  · simp [byteLength]

/-! ### A text in parts -/

theorem maskFrom_append (zone : Zone) (a b : List Char) :
    maskFrom zone (a ++ b) = maskFrom zone a ++ maskFrom (zone.after a) b := by
  induction a generalizing zone with
  | nil => rfl
  | cons c rest ih => rw [List.cons_append, maskFrom, ih, maskFrom, List.append_assoc, Zone.after_cons]

theorem allBlank_maskFrom_append (zone : Zone) (a b : List Char) :
    allBlank (maskFrom zone (a ++ b)) = (allBlank (maskFrom zone a) && allBlank (maskFrom (zone.after a) b)) := by
  rw [maskFrom_append, allBlank_append]

theorem byteLength_maskFrom (zone : Zone) (text : List Char) :
    byteLength (maskFrom zone text) = byteLength text := by
  induction text generalizing zone with
  | nil => rfl
  | cons c rest ih => rw [maskFrom, byteLength_append, byteLength_veil, ih, byteLength]

theorem maskFrom_eq_nil_iff : maskFrom zone text = [] ↔ text = [] := by
  cases text with
  | nil => simp [maskFrom]
  | cons c rest => simp [maskFrom, veil_ne_nil]

theorem blank_or_shown_of_mem_maskFrom {c : Char} (member : c ∈ maskFrom zone text) :
    isBlank c = true ∨ (c ∈ text ∧ c ≠ '(' ∧ c ≠ ';') := by
  induction text generalizing zone with
  | nil => cases member
  | cons d rest ih =>
    rw [maskFrom, List.mem_append] at member
    rcases member with here | later
    · rcases veil_cases zone d with ⟨shown, alone⟩ | ⟨-, blanks⟩
      · rw [alone, List.mem_singleton] at here
        subst here
        exact Or.inr ⟨List.mem_cons_self, (Zone.hides_eq_false_iff.mp shown).2⟩
      · exact Or.inl (blanks c here)
    · rcases ih later with blank | ⟨listed, plain⟩
      · exact Or.inl blank
      · exact Or.inr ⟨List.mem_cons_of_mem d listed, plain⟩

/-! ### Text without delimiters -/

theorem maskFrom_code_of_plain (plain : ∀ c ∈ text, c ≠ '(' ∧ c ≠ ';') :
    maskFrom .code text = text ∧ Zone.code.after text = .code := by
  induction text with
  | nil => exact ⟨rfl, rfl⟩
  | cons c rest ih =>
    have first := plain c List.mem_cons_self
    obtain ⟨same, ends⟩ := ih fun d member => plain d (List.mem_cons_of_mem c member)
    rw [maskFrom, Zone.after_cons, Zone.next_code first, same,
      veil_of_shown (Zone.hides_eq_false_iff.mpr ⟨rfl, first⟩)]
    exact ⟨rfl, ends⟩

theorem plain_of_isBlank {c : Char} (blank : isBlank c = true) : c ≠ '(' ∧ c ≠ ';' := by
  constructor <;> (rintro rfl; revert blank; decide)

theorem plain_of_mem_maskFrom {c : Char} (member : c ∈ maskFrom zone text) : c ≠ '(' ∧ c ≠ ';' := by
  rcases blank_or_shown_of_mem_maskFrom member with blank | ⟨-, plain⟩
  · exact plain_of_isBlank blank
  · exact plain

theorem mask_maskFrom (zone : Zone) (text : List Char) : mask (maskFrom zone text) = maskFrom zone text :=
  (maskFrom_code_of_plain fun _ member => plain_of_mem_maskFrom member).1

theorem mask_of_allBlank (blank : allBlank text = true) : mask text = text :=
  (maskFrom_code_of_plain fun c member => plain_of_isBlank (List.all_eq_true.mp blank c member)).1

/-! ### What is not blank stands in the code -/

theorem exists_of_maskFrom_eq_cons {before rest : List Char} {c : Char}
    (masked : maskFrom zone text = before ++ c :: rest) (ink : isBlank c = false) :
    ∃ front back, text = front ++ c :: back ∧ maskFrom zone front = before ∧
      zone.after front = .code ∧ (c ≠ '(' ∧ c ≠ ';') ∧ maskFrom .code back = rest := by
  induction text generalizing zone before with
  | nil => simp [maskFrom] at masked
  | cons d others ih =>
    rw [maskFrom] at masked
    -- The character is the first one, or it belongs to the mask of the others.
    rcases List.append_eq_append_iff.mp masked with ⟨gap, rfl, later⟩ | ⟨gap, head, later⟩
    · obtain ⟨front, back, rfl, made, code, plain, shown⟩ := ih later
      exact ⟨d :: front, back, rfl, by rw [maskFrom, made], code, plain, shown⟩
    · cases gap with
      | nil =>
        have apart : maskFrom (zone.next d) others = [] ++ c :: rest := later.symm
        obtain ⟨front, back, rfl, made, code, plain, shown⟩ := ih apart
        refine ⟨d :: front, back, rfl, ?_, code, plain, shown⟩
        rw [maskFrom, made, head, List.append_nil, List.append_nil]
      | cons e gap =>
        obtain ⟨rfl, rfl⟩ := List.cons.inj later
        rcases veil_cases zone d with ⟨shown, alone⟩ | ⟨-, blanks⟩
        · rw [alone] at head
          obtain ⟨rfl, same⟩ := List.append_eq_singleton_iff.mp head.symm |>.resolve_right (by simp)
          obtain ⟨rfl, rfl⟩ := List.cons.inj same
          obtain ⟨rfl, plain⟩ := Zone.hides_eq_false_iff.mp shown
          exact ⟨[], others, rfl, rfl, rfl, plain, by rw [Zone.next_code plain]; rfl⟩
        · have blank := blanks c (by rw [head]; simp)
          rw [ink] at blank
          cases blank

theorem exists_of_maskFrom_eq_append {before word rest : List Char}
    (masked : maskFrom zone text = before ++ (word ++ rest)) (nonempty : word ≠ [])
    (ink : ∀ c ∈ word, isBlank c = false) :
    ∃ front back, text = front ++ (word ++ back) ∧ maskFrom zone front = before ∧
      zone.after front = .code ∧ maskFrom .code back = rest := by
  induction word generalizing zone text before with
  | nil => exact absurd rfl nonempty
  | cons c others ih =>
    obtain ⟨front, back, rfl, made, code, plain, shown⟩ :=
      exists_of_maskFrom_eq_cons masked (ink c List.mem_cons_self)
    cases others with
    | nil => exact ⟨front, back, rfl, made, code, shown⟩
    | cons d word =>
      have next : maskFrom .code back = [] ++ (d :: word ++ rest) := shown
      obtain ⟨gap, last, rfl, nothing, -, rest⟩ := ih next (by simp)
        fun e member => ink e (List.mem_cons_of_mem c member)
      obtain rfl := maskFrom_eq_nil_iff.mp nothing
      exact ⟨front, last, rfl, made, code, rest⟩

/-! ### Comments -/

theorem after_tail (text : List Char) : Zone.tail.after text = .tail := by
  induction text with
  | nil => rfl
  | cons c rest ih => exact ih

theorem next_ne_code {c : Char} (comment : zone ≠ .code) (inside : c ≠ ')') : zone.next c ≠ .code := by
  cases zone with
  | code => exact absurd rfl comment
  | group outer =>
    simp only [Zone.next, if_neg inside]
    split <;> simp
  | tail => simp [Zone.next]

theorem after_ne_code (comment : zone ≠ .code) (unclosed : ')' ∉ text) : zone.after text ≠ .code := by
  induction text generalizing zone with
  | nil => exact comment
  | cons c rest ih =>
    have first : c ≠ ')' := fun same => unclosed (same ▸ List.mem_cons_self)
    exact ih (next_ne_code comment first) fun member => unclosed (List.mem_cons_of_mem c member)

theorem allBlank_maskFrom (comment : zone ≠ .code) (unclosed : ')' ∉ text) :
    allBlank (maskFrom zone text) = true := by
  induction text generalizing zone with
  | nil => rfl
  | cons c rest ih =>
    have first : c ≠ ')' := fun same => unclosed (same ▸ List.mem_cons_self)
    have others := ih (next_ne_code comment first) fun member => unclosed (List.mem_cons_of_mem c member)
    rw [maskFrom, allBlank_append, others, Bool.and_true]
    exact allBlank_veil zone c (Zone.hides_of_ne_code comment c)

theorem allBlank_maskFrom_tail (text : List Char) : allBlank (maskFrom .tail text) = true := by
  induction text with
  | nil => rfl
  | cons c rest ih =>
    rw [maskFrom, allBlank_append, allBlank_veil .tail c rfl, Bool.true_and]
    exact ih

theorem after_group (outer : Nat) (unclosed : ')' ∉ text) :
    ∃ further, (Zone.group outer).after text = .group (outer + further) := by
  induction text generalizing outer with
  | nil => exact ⟨0, rfl⟩
  | cons c rest ih =>
    have inside : c ≠ ')' := fun same => unclosed (same ▸ List.mem_cons_self)
    have others : ')' ∉ rest := fun member => unclosed (List.mem_cons_of_mem c member)
    by_cases opening : c = '('
    · obtain ⟨further, ends⟩ := ih (outer + 1) others
      refine ⟨further + 1, ?_⟩
      have next : (Zone.group outer).next c = .group (outer + 1) := if_pos opening
      rw [Zone.after_cons, next, ends, Zone.group.injEq]
      omega
    · obtain ⟨further, ends⟩ := ih outer others
      refine ⟨further, ?_⟩
      have next : (Zone.group outer).next c = .group outer := by
        simp only [Zone.next, if_neg opening, if_neg inside]
      rw [Zone.after_cons, next, ends]

theorem after_eq_self (comment : zone ≠ .code) (level : ∀ c ∈ text, c ≠ '(' ∧ c ≠ ')') :
    zone.after text = zone := by
  induction text with
  | nil => rfl
  | cons c rest ih =>
    have first := level c List.mem_cons_self
    have same : zone.next c = zone := by
      cases zone with
      | code => exact absurd rfl comment
      | group outer => simp [Zone.next, first]
      | tail => rfl
    rw [Zone.after_cons, same]
    exact ih fun d member => level d (List.mem_cons_of_mem c member)

theorem level_of_comment (comment : zone ≠ .code) (level : ∀ c ∈ text, c ≠ '(' ∧ c ≠ ')') :
    allBlank (maskFrom zone text) = true ∧ zone.after text = zone :=
  ⟨allBlank_maskFrom comment fun member => (level _ member).2 rfl, after_eq_self comment level⟩

/-! ### Groups opened and closed -/

theorem after_opening (outer n : Nat) :
    (Zone.group outer).after (List.replicate n '(') = .group (outer + n) := by
  induction n generalizing outer with
  | zero => rfl
  | succ n ih =>
    rw [List.replicate_succ, Zone.after_cons]
    show (Zone.group (outer + 1)).after _ = _
    rw [ih, Nat.add_right_comm, Nat.add_assoc]

theorem closing (outer n : Nat) :
    allBlank (maskFrom (.group (outer + n)) (List.replicate n ')')) = true ∧
      (Zone.group (outer + n)).after (List.replicate n ')') = .group outer := by
  induction n with
  | zero => exact ⟨rfl, rfl⟩
  | succ n ih =>
    have next : (Zone.group (outer + (n + 1))).next ')' = .group (outer + n) := rfl
    rw [List.replicate_succ, maskFrom, Zone.after_cons, next, allBlank_append, allBlank_veil _ _ rfl, ih.1]
    exact ⟨rfl, ih.2⟩

theorem closing_all (outer : Nat) :
    allBlank (maskFrom (.group outer) (List.replicate (outer + 1) ')')) = true ∧
      (Zone.group outer).after (List.replicate (outer + 1) ')') = .code := by
  have some := closing 0 outer
  rw [Nat.zero_add] at some
  rw [List.replicate_succ', allBlank_maskFrom_append, Zone.after_append, some.1, some.2]
  exact ⟨by decide, rfl⟩

/-- The same place with further groups around it, one more than `outermost`. -/
def Zone.within (outermost : Nat) : Zone → Zone
  | code => group outermost
  | group outer => group (outer + outermost + 1)
  | tail => tail

/-- A text that shows nothing shows nothing further inside either, unless it has a tail, where the
parentheses did not count. -/
theorem allBlank_maskFrom_within (outermost : Nat) (hidden : allBlank (maskFrom zone text) = true)
    (noTail : zone.after text ≠ .tail) : allBlank (maskFrom (zone.within outermost) text) = true := by
  induction text generalizing zone with
  | nil => rfl
  | cons c rest ih =>
    rw [maskFrom, allBlank_append, Bool.and_eq_true] at hidden
    obtain ⟨here, later⟩ := hidden
    have inside : (zone.within outermost).next c = (zone.next c).within outermost := by
      cases zone with
      | code =>
        have notClosing : c ≠ ')' := by
          rintro rfl
          revert here
          decide
        have notTail : c ≠ ';' := by
          rintro rfl
          exact noTail (after_tail rest)
        by_cases opening : c = '('
        · simp [Zone.next, Zone.within, opening]
        · simp [Zone.next, Zone.within, opening, notClosing, notTail]
      | group outer =>
        by_cases opening : c = '('
        · simp only [Zone.next, Zone.within, if_pos opening, Zone.group.injEq]
          omega
        · by_cases closing : c = ')'
          · cases outer with
            | zero => simp [Zone.next, Zone.within, closing]
            | succ outer =>
              simp only [Zone.next, Zone.within, if_neg opening, if_pos closing, Zone.group.injEq]
              omega
          · simp only [Zone.next, Zone.within, if_neg opening, if_neg closing]
      | tail => rfl
    have others := ih later noTail
    have hidden : (zone.within outermost).hides c = true := by cases zone <;> rfl
    rw [maskFrom, allBlank_append, inside, others, Bool.and_true]
    exact allBlank_veil _ c hidden

end ToolChanger.Program
