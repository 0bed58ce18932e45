import Mathlib.Data.String.Basic
import ToolChanger.Text.Utf8

namespace ToolChanger.Text

def bytes (text : String) : List UInt8 := text.toUTF8.data.toList

theorem bytes_eq (text : String) : bytes text = text.toList.flatMap String.utf8EncodeChar := by
  have encoded : text.toUTF8 = (text.toList.flatMap String.utf8EncodeChar).toByteArray := by
    conv_lhs => rw [← String.ofList_toList (s := text)]
    exact String.toByteArray_ofList
  rw [bytes, encoded, List.data_toByteArray]

theorem ofNat_cons_lt {m n : Nat} (low : m < 256) (high : n < 256) (front back : List UInt8) :
    UInt8.ofNat m :: front < UInt8.ofNat n :: back ↔ m < n ∨ m = n ∧ front < back := by
  have value {k : Nat} (small : k < 256) : (UInt8.ofNat k).toNat = k := by
    rw [UInt8.toNat_ofNat', Nat.mod_eq_of_lt small]
  rw [List.cons_lt_cons_iff, UInt8.lt_iff_toNat_lt, ← UInt8.toNat_inj, value low, value high]

/-- The bytes of a lower character come first, whatever follows them. -/
theorem utf8EncodeChar_append_lt {c d : Char} (below : c < d) (front back : List UInt8) :
    String.utf8EncodeChar c ++ front < String.utf8EncodeChar d ++ back := by
  have lower : c.val.toNat < d.val.toNat := UInt32.lt_iff_toNat_lt.mp below
  have limit : d.val.toNat < 0x110000 := d.valid.elim (fun low => Nat.lt_trans low (by decide)) And.right
  have third (k : Nat) : k / 4096 = k / 64 / 64 := (Nat.div_div_eq_div_mul k 64 64).symm
  have fourth (k : Nat) : k / 262144 = k / 64 / 64 / 64 := by
    rw [Nat.div_div_eq_div_mul, Nat.div_div_eq_div_mul]
  unfold String.utf8EncodeChar
  dsimp only
  generalize c.val.toNat = m at lower
  generalize d.val.toNat = n at lower limit
  -- by the lengths of the two; where the second is shorter nothing is left
  split_ifs
  all_goals
    simp only [List.cons_append, List.nil_append, third, fourth]
    repeat rw [ofNat_cons_lt (by omega) (by omega)]
    omega

theorem flatMap_lt {a b : List Char} (below : a < b) :
    a.flatMap String.utf8EncodeChar < b.flatMap String.utf8EncodeChar := by
  induction (List.lt_iff_lex_lt a b).mp below with
  | @nil c rest =>
    rw [List.flatMap_nil, List.flatMap_cons]
    cases bytes : String.utf8EncodeChar c with
    | nil => exact absurd bytes String.utf8EncodeChar_ne_nil
    | cons first others => exact List.nil_lt_cons _ _
  | rel less =>
    rw [List.flatMap_cons, List.flatMap_cons]
    exact utf8EncodeChar_append_lt less _ _
  | cons later ih =>
    rw [List.flatMap_cons, List.flatMap_cons]
    exact List.append_left_lt (ih ((List.lt_iff_lex_lt _ _).mpr later))

theorem lt_iff_bytes (a b : String) : a < b ↔ bytes a < bytes b := by
  rw [String.lt_iff_toList_lt, bytes_eq, bytes_eq]
  refine ⟨flatMap_lt, fun below => ?_⟩
  rcases lt_trichotomy a.toList b.toList with less | same | above
  · exact less
  · rw [same] at below
    exact absurd below (List.lt_irrefl _)
  · exact absurd below (List.lt_asymm (flatMap_lt above))

theorem le_iff_bytes (a b : String) : a ≤ b ↔ bytes a ≤ bytes b := by
  rw [← String.not_lt, lt_iff_bytes, List.not_lt]

end ToolChanger.Text
