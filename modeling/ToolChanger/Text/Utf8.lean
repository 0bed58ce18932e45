namespace ToolChanger.Text

theorem fromUTF8?_toUTF8 (text : String) : String.fromUTF8? text.toUTF8 = some text :=
  dif_pos text.isValidUTF8

theorem fromUTF8?_flatMap (text : List Char) :
    String.fromUTF8? ⟨(text.flatMap String.utf8EncodeChar).toArray⟩ = some (String.ofList text) := by
  have bytes : (⟨(text.flatMap String.utf8EncodeChar).toArray⟩ : ByteArray) = (String.ofList text).toUTF8 := by
    rw [String.toUTF8, String.toByteArray_ofList, ByteArray.ext_iff, List.utf8Encode,
      List.data_toByteArray]
  rw [bytes, fromUTF8?_toUTF8]

theorem toNat_of_mem_utf8EncodeChar {byte : UInt8} {c : Char} (small : byte.toNat < 128)
    (listed : byte ∈ String.utf8EncodeChar c) : c.toNat = byte.toNat := by
  have large (n : Nat) (high : 128 ≤ n) (fits : n < 256) : byte ≠ UInt8.ofNat n := by
    rintro rfl
    rw [UInt8.toNat_ofNat', Nat.mod_eq_of_lt fits] at small
    omega
  unfold String.utf8EncodeChar at listed
  simp only at listed
  split at listed
  · obtain rfl := List.mem_singleton.mp listed
    rw [UInt8.toNat_ofNat', Nat.mod_eq_of_lt (by omega)]
    rfl
  split at listed
  · simp only [List.mem_cons, List.not_mem_nil, or_false] at listed
    rcases listed with same | same
    all_goals exact absurd same (large _ (by omega) (by omega))
  split at listed
  · simp only [List.mem_cons, List.not_mem_nil, or_false] at listed
    rcases listed with same | same | same
    all_goals exact absurd same (large _ (by omega) (by omega))
  · simp only [List.mem_cons, List.not_mem_nil, or_false] at listed
    rcases listed with same | same | same | same
    all_goals exact absurd same (large _ (by omega) (by omega))

end ToolChanger.Text
