import ToolChanger.Proofs.Override.Codec

/-!
# What an override is read from

`Override.Means` lists which values mean what, and everything else is refused (`Override.ofJson_eq_ok_iff`). A tool
is named by its number in decimal digits.
-/

namespace ToolChanger

namespace Text

/-- A text is a whole number in decimal digits, with a sign or without one. -/
inductive Denotes : List Char → Int → Prop where
  | plain {digits : List Char} {n : Nat} : digitsValue digits = some n → Denotes digits n
  | positive {digits : List Char} {n : Nat} : digitsValue digits = some n → Denotes ('+' :: digits) n
  | negative {digits : List Char} {n : Nat} : digitsValue digits = some n → Denotes ('-' :: digits) (-n)

variable {text digits : List Char}

theorem ne_cons_of_digitsValue {n : Nat} (reads : digitsValue digits = some n) {c : Char}
    (sign : c.isDigit = false) (rest : List Char) : digits ≠ c :: rest := by
  rintro rfl
  simp [digitsValue, sign] at reads

theorem readUInt32_eq_some_iff {n : UInt32} (positive : n ≠ 0) :
    readUInt32 text = some n ↔ Denotes text n.toNat := by
  have bounded (value : Nat) : (if value < 0x100000000 then some value.toUInt32 else none) = some n ↔
      value = n.toNat := by
    constructor
    · intro made
      split at made
      · rename_i fits
        rw [← Option.some.inj made]
        exact (UInt32.toNat_ofNat_of_lt' fits).symm
      · cases made
    · rintro rfl
      rw [if_pos n.toNat_lt]
      simp
  have reads (digits : List Char) : ((digitsValue digits).bind fun value =>
      if value < 0x100000000 then some value.toUInt32 else none) = some n ↔ digitsValue digits = some n.toNat := by
    simp [Option.bind_eq_some_iff, bounded]
  unfold readUInt32
  constructor
  · intro made
    split at made
    · rename_i digits
      exact .positive ((reads digits).mp made)
    · exact .plain ((reads text).mp made)
  · generalize given : (n.toNat : Int) = value
    rintro (⟨plain⟩ | ⟨signed⟩ | ⟨-⟩)
    · obtain rfl := Int.ofNat.inj given
      split
      · rename_i rest
        exact absurd rfl (ne_cons_of_digitsValue plain (by decide) rest)
      · exact (reads text).mpr plain
    · obtain rfl := Int.ofNat.inj given
      exact (reads _).mpr signed
    · -- only zero could be written so
      have zero : n.toNat = 0 := by omega
      exact absurd (UInt32.toNat_inj.mp zero) positive

theorem readInt64_eq_some_iff {n : Int} : readInt64 text = some n ↔
    Denotes text n ∧ -0x8000000000000000 ≤ n ∧ n < 0x8000000000000000 := by
  have reads (found : Option Int) : (found.bind fun value =>
      if -0x8000000000000000 ≤ value ∧ value < 0x8000000000000000 then some value else none) = some n ↔
        found = some n ∧ -0x8000000000000000 ≤ n ∧ n < 0x8000000000000000 := by
    cases found with
    | none => simp
    | some value =>
      rw [Option.bind_some, Option.some.injEq]
      constructor
      · intro made
        split at made
        · rename_i fits
          obtain rfl := Option.some.inj made
          exact ⟨rfl, fits⟩
        · cases made
      · rintro ⟨rfl, fits⟩
        exact if_pos fits
  unfold readInt64
  constructor
  · intro made
    split at made
    · obtain ⟨found, fits⟩ := (reads _).mp made
      obtain ⟨value, digits, rfl⟩ := Option.map_eq_some_iff.mp found
      exact ⟨.positive digits, fits⟩
    · obtain ⟨found, fits⟩ := (reads _).mp made
      obtain ⟨value, digits, rfl⟩ := Option.map_eq_some_iff.mp found
      exact ⟨.negative digits, fits⟩
    · obtain ⟨found, fits⟩ := (reads _).mp made
      obtain ⟨value, digits, rfl⟩ := Option.map_eq_some_iff.mp found
      exact ⟨.plain digits, fits⟩
  · rintro ⟨plain | signed | signed, fits⟩
    · split
      · rename_i rest
        exact absurd rfl (ne_cons_of_digitsValue plain (by decide) rest)
      · rename_i rest
        exact absurd rfl (ne_cons_of_digitsValue plain (by decide) rest)
      · exact (reads _).mpr ⟨by rw [plain]; rfl, fits⟩
    · exact (reads _).mpr ⟨by rw [signed]; rfl, fits⟩
    · exact (reads _).mpr ⟨by rw [signed]; rfl, fits⟩

theorem Denotes.not_none {n : Int} (denotes : Denotes text n) :
    text ≠ [] ∧ sameIgnoringCase text "none".toList = false := by
  have leads : ∃ c rest, text = c :: rest ∧ c.toNat < 65 := by
    rcases denotes with reads | _ | _
    · cases digits : text with
      | nil => simp [digits, digitsValue] at reads
      | cons c rest =>
        have digit : c.isDigit = true := by
          by_contra other
          exact ne_cons_of_digitsValue reads (Bool.eq_false_iff.mpr other) rest digits
        have range : 48 ≤ c.toNat ∧ c.toNat ≤ 57 := by
          simpa [Char.isDigit, UInt32.le_iff_toNat_le] using digit
        exact ⟨c, rest, rfl, by omega⟩
    · exact ⟨_, _, rfl, by decide⟩
    · exact ⟨_, _, rfl, by decide⟩
  obtain ⟨c, rest, rfl, low⟩ := leads
  refine ⟨List.cons_ne_nil _ _, beq_eq_false_iff_ne.mpr fun same => ?_⟩
  obtain ⟨head, -⟩ := List.cons.inj same
  have lower : c.toLower = c := by
    unfold Char.toLower
    rw [dif_neg]
    rintro ⟨first, -⟩
    have first : 65 ≤ c.toNat := first
    omega
  rw [← lower, head] at low
  exact absurd low (by decide)

end Text

namespace Override

variable {value : Json} {decided : Override}

/-- The values that an override is read from. A text counts without the blanks around it. -/
inductive Means : Json → Override → Prop where
  | null : Means .null .outOfMagazine
  | number {decided : Override} (fits : -0x8000000000000000 ≤ decided.toInt ∧ decided.toInt < 0x10000000000000000) :
    decided ≠ .inPocket 0 → Means (.number (.whole decided.toInt fits)) decided
  | blank {text : String} : Text.trim text.toList = [] → Means (.string text) .outOfMagazine
  /-- the word in small or capital letters -/
  | word {text : String} :
    Text.sameIgnoringCase (Text.trim text.toList) "none".toList = true → Means (.string text) .outOfMagazine
  | numeral {text : String} {decided : Override} :
    Text.Denotes (Text.trim text.toList) decided.toInt → decided ≠ .inPocket 0 → Means (.string text) decided

theorem toInt_within (decided : Override) : -1 ≤ decided.toInt ∧ decided.toInt < 0x100000000 := by
  cases decided with
  | inPocket pocket =>
    have below := pocket.toNat_lt
    exact ⟨by simp only [toInt]; omega, by simp only [toInt]; omega⟩
  | outOfMagazine => decide

theorem ofInt_eq_ok_iff {n : Int} : ofInt n = .ok decided ↔ decided.toInt = n ∧ decided ≠ .inPocket 0 := by
  constructor
  · intro made
    unfold ofInt at made
    split at made
    · obtain rfl := Except.ok.inj made
      exact ⟨by rename_i out; exact out.symm, nofun⟩
    split at made
    · rename_i within
      obtain rfl := Except.ok.inj made
      have small : n.toNat < 0x100000000 := by omega
      have value : n.toNat.toUInt32.toNat = n.toNat := UInt32.toNat_ofNat_of_lt' small
      refine ⟨by simp only [toInt, value]; omega, fun zero => ?_⟩
      have none := congrArg UInt32.toNat (Override.inPocket.inj zero)
      rw [value, UInt32.toNat_zero] at none
      omega
    · cases made
  · rintro ⟨rfl, positive⟩
    cases decided with
    | outOfMagazine => rfl
    | inPocket pocket =>
      have above : pocket.toNat ≠ 0 := fun zero => positive (congrArg inPocket (UInt32.toNat_inj.mp zero))
      have below := pocket.toNat_lt
      change ofInt pocket.toNat = _
      rw [ofInt, if_neg (by omega), if_pos (by omega)]
      simp

theorem ofText_eq_ok_iff {text : String} : ofText text = .ok decided ↔ Means (.string text) decided := by
  unfold ofText
  dsimp only
  constructor
  · intro made
    split at made
    · rename_i out
      obtain rfl := Except.ok.inj made
      rcases (Bool.or_eq_true _ _).mp out with empty | word
      · exact .blank (List.isEmpty_iff.mp empty)
      · exact .word word
    split at made
    · rename_i n reads
      obtain ⟨rfl, positive⟩ := ofInt_eq_ok_iff.mp made
      exact .numeral (Text.readInt64_eq_some_iff.mp reads).1 positive
    · cases made
  · rintro (_ | _ | empty | word | ⟨numeral, positive⟩)
    · rw [empty]
      rfl
    · rw [word, Bool.or_true, if_pos rfl]
    · obtain ⟨nonempty, other⟩ := numeral.not_none
      have within := toInt_within decided
      have reads : Text.readInt64 (Text.trim text.toList) = some decided.toInt :=
        Text.readInt64_eq_some_iff.mpr ⟨numeral, by omega, by omega⟩
      have read : (Text.trim text.toList).isEmpty = false := List.isEmpty_eq_false_iff.mpr nonempty
      rw [read, other, Bool.or_false, if_neg Bool.false_ne_true, reads]
      exact ofInt_eq_ok_iff.mpr ⟨rfl, positive⟩

theorem ofJson_eq_ok_iff : ofJson value = .ok decided ↔ Means value decided := by
  have refused (error : PocketError) : Except.error error ≠ Except.ok decided := by
    intro same
    cases same
  have unmeant {value : Json} (neither : ¬ Means value decided) (error : PocketError)
      (made : ofJson value = .error error) : ofJson value = .ok decided ↔ Means value decided :=
    iff_of_false (made ▸ refused error) neither
  cases value with
  | null =>
    constructor
    · intro made
      obtain rfl := Except.ok.inj made
      exact .null
    · rintro ⟨⟩
      rfl
  | string text => exact ofText_eq_ok_iff
  | number number =>
    cases number with
    | real x => exact unmeant (by rintro ⟨⟩) _ rfl
    | whole n fits =>
      have made : ofJson (.number (.whole n fits)) =
          if n < 0x8000000000000000 then ofInt n else .error (.unreadable "non-numeric value") := by
        rw [ofJson, Json.asInt64?]
        · by_cases small : n < 0x8000000000000000
          · rw [if_pos small, if_pos small]
          · rw [if_neg small, if_neg small]
        · intro same
          cases same
        · intro text same
          cases same
      rw [made]
      constructor
      · intro stands
        split at stands
        · obtain ⟨rfl, positive⟩ := ofInt_eq_ok_iff.mp stands
          exact .number fits positive
        · exact absurd stands (refused _)
      · rintro (_ | ⟨_, positive⟩)
        have within := toInt_within decided
        rw [if_pos (by omega)]
        exact ofInt_eq_ok_iff.mpr ⟨rfl, positive⟩
  | bool _ => exact unmeant (by rintro ⟨⟩) _ rfl
  | array _ => exact unmeant (by rintro ⟨⟩) _ rfl
  | object _ => exact unmeant (by rintro ⟨⟩) _ rfl

end Override

namespace Overrides

/-- A name stands for a tool if it is the tool's number, blanks around it aside. -/
def Names (name : String) (tool : ToolId) : Prop :=
  tool ≠ 0 ∧ Text.Denotes (Text.trim name.toList) tool.toNat

variable {name : String} {value : Json} {tool : ToolId} {decided : Override}

theorem readId_eq_some_iff : readId name = some tool ↔ Names name tool := by
  rw [readId, Option.filter_eq_some_iff, decide_eq_true_eq, Names, and_comm]
  exact and_congr_right Text.readUInt32_eq_some_iff

theorem meaning?_eq_some_iff :
    meaning? (name, value) = some (tool, decided) ↔ Names name tool ∧ Override.Means value decided := by
  rw [← readId_eq_some_iff, ← Override.ofJson_eq_ok_iff, meaning?]
  cases readId name <;> cases Override.ofJson value <;> simp

end Overrides

end ToolChanger
