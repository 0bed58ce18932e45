import ToolChanger.Proofs.Text.Bytes
import ToolChanger.Text.Offset

namespace ToolChanger.Text

/-- What stands before an offset and what stands after it. There is no such cut within a character, and
none beyond the end. -/
def cut? : Nat → List Char → Option (List Char × List Char)
  | 0, text => some ([], text)
  | _ + 1, [] => none
  | n + 1, c :: rest =>
    if c.utf8Size ≤ n + 1 then
      (cut? (n + 1 - c.utf8Size) rest).map fun (front, back) => (c :: front, back)
    else none

def splice? (text : List Char) (range : Span) (replacement : List Char) : Option (List Char) := do
  let (front, _) ← cut? range.start text
  let (_, back) ← cut? range.stop text
  return front ++ replacement ++ back

/-- A part of a text stands at a range of bytes: it begins and ends there, between characters. -/
def Span.Holds (range : Span) (text part : List Char) : Prop :=
  ∃ before after, text = before ++ (part ++ after) ∧
    range = ⟨byteLength before, byteLength before + byteLength part⟩

variable {n : Nat} {text front back part : List Char} {range : Span}

theorem cut?_byteLength (front back : List Char) :
    cut? (byteLength front) (front ++ back) = some (front, back) := by
  induction front with
  | nil =>
    show cut? 0 back = _
    rw [cut?]
  | cons c rest ih =>
    have wide := c.utf8Size_pos
    obtain ⟨n, offset⟩ : ∃ n, byteLength (c :: rest) = n + 1 :=
      Nat.exists_eq_add_one_of_ne_zero (by rw [byteLength]; omega)
    have others : n + 1 - c.utf8Size = byteLength rest := by
      rw [← offset, byteLength]
      omega
    have within : c.utf8Size ≤ n + 1 := by
      rw [← offset, byteLength]
      omega
    rw [offset, List.cons_append, cut?, if_pos within, others, ih]
    rfl

theorem cut?_eq_some_iff : cut? n text = some (front, back) ↔ text = front ++ back ∧ n = byteLength front := by
  constructor
  · intro cut
    fun_induction cut? n text generalizing front back with
    | case1 text =>
      obtain ⟨rfl, rfl⟩ := Prod.mk.inj (Option.some.inj cut)
      exact ⟨rfl, rfl⟩
    | case2 n => cases cut
    | case3 n c rest within ih =>
      obtain ⟨⟨first, last⟩, later, same⟩ := Option.map_eq_some_iff.mp cut
      obtain ⟨rfl, rfl⟩ := Prod.mk.inj same
      obtain ⟨rfl, offset⟩ := ih later
      exact ⟨rfl, by rw [byteLength]; omega⟩
    | case4 n c rest beyond => cases cut
  · rintro ⟨rfl, rfl⟩
    exact cut?_byteLength front back

theorem Span.Holds.eq {other : List Char} (first : range.Holds text part) (second : range.Holds text other) :
    part = other := by
  have read {part : List Char} (holds : range.Holds text part) : slice text range = part := by
    obtain ⟨before, after, rfl, rfl⟩ := holds
    exact slice_append before part after
  rw [← read first, read second]

theorem splice?_of_holds (holds : range.Holds text part) (replacement : List Char) :
    splice? text range replacement = some (splice text range replacement) := by
  obtain ⟨before, after, rfl, rfl⟩ := holds
  have first : cut? (byteLength before) (before ++ (part ++ after)) = some (before, part ++ after) :=
    cut?_eq_some_iff.mpr ⟨rfl, rfl⟩
  have second : cut? (byteLength before + byteLength part) (before ++ (part ++ after)) =
      some (before ++ part, after) :=
    cut?_eq_some_iff.mpr ⟨(List.append_assoc before part after).symm, (byteLength_append before part).symm⟩
  unfold splice?
  rw [first, second, splice_append, ← List.append_assoc]
  rfl

theorem length_bytes (text : List Char) : (bytes (String.ofList text)).length = byteLength text := by
  rw [bytes_eq, String.toList_ofList]
  induction text with
  | nil => rfl
  | cons c rest ih => rw [List.flatMap_cons, List.length_append, ih, String.length_utf8EncodeChar, byteLength]

end ToolChanger.Text
