import ToolChanger.Store.Path

namespace ToolChanger.Path

/-- A name that leads from a directory to something in it. -/
structure Descends (name : String) : Prop where
  undivided : '/' ∉ name.toList
  nonempty : name.toList ≠ []
  onward : name.toList ≠ ['.']
  down : name ≠ ".."
  short : isName name = true

variable {directory name : String}

theorem toList_join (directory name : String) :
    (directory.toList = [] ∧ join directory name = name) ∨
      ∃ front, (join directory name).toList = front ++ '/' :: name.toList ∧
        (directory.toList = front ++ ['/'] ∨ directory.toList = front ∧ front ≠ []) := by
  unfold join
  split
  · rename_i empty
    rw [String.isEmpty_iff.mp empty]
    exact .inl ⟨rfl, rfl⟩
  rename_i nonempty
  split
  · rename_i last
    obtain ⟨front, ends⟩ := List.getLast?_eq_some_iff.mp last
    refine .inr ⟨front, ?_, .inl ends⟩
    rw [String.toList_append, ends, List.append_assoc]
    rfl
  · refine .inr ⟨directory.toList, ?_, .inr ⟨rfl, ?_⟩⟩
    · rw [String.toList_append, String.toList_append, List.append_assoc]
      rfl
    · intro empty
      exact nonempty (by simpa using empty)

theorem splitOn_append_slash (front later : List Char) :
    (front ++ '/' :: later).splitOn '/' = front.splitOn '/' ++ later.splitOn '/' :=
  List.splitOnP_append_cons front later rfl

namespace Descends

variable (descends : Descends name)
include descends

theorem splitOn_name : name.toList.splitOn '/' = [name.toList] := List.splitOn_eq_singleton descends.undivided

theorem parts_join (directory : String) : parts (join directory name) = parts directory ++ [name] := by
  have single : ([name.toList].filter fun part => part ≠ [] && part ≠ ['.']).map String.ofList = [name] := by
    simp [descends.nonempty, descends.onward]
  unfold parts
  rcases toList_join directory name with ⟨empty, same⟩ | ⟨front, joined, ends | ⟨same, -⟩⟩
  · rw [same, empty, descends.splitOn_name, single]
    rfl
  · rw [joined, ends, splitOn_append_slash, splitOn_append_slash, descends.splitOn_name, List.filter_append,
      List.map_append, single, List.filter_append, List.map_append]
    simp
  · rw [joined, same, splitOn_append_slash, descends.splitOn_name, List.filter_append, List.map_append, single]

theorem isAbsolute_join (directory : String) : isAbsolute (join directory name) = isAbsolute directory := by
  unfold isAbsolute
  rcases toList_join directory name with ⟨empty, same⟩ | ⟨front, joined, ends | ⟨same, nonempty⟩⟩
  · rw [same, empty]
    cases text : name.toList with
    | nil => rfl
    | cons c rest =>
      have other : c ≠ '/' := fun slash => descends.undivided (text ▸ slash ▸ List.mem_cons_self)
      simp [other]
  · rw [joined, ends]
    cases front <;> rfl
  · rw [joined, same]
    cases front with
    | nil => exact absurd rfl nonempty
    | cons c rest => rfl

theorem namesDirectory_join (directory : String) : namesDirectory (join directory name) = false := by
  have last : ((join directory name).toList.splitOn '/').getLast? = some name.toList := by
    rcases toList_join directory name with ⟨empty, same⟩ | ⟨front, joined, -⟩
    · rw [same, descends.splitOn_name]
      rfl
    · rw [joined, splitOn_append_slash, descends.splitOn_name, List.getLast?_concat]
  rw [namesDirectory, last]
  split
  · rename_i absent
    cases absent
  · rename_i empty
    exact absurd (Option.some.inj empty) descends.nonempty
  · rename_i dot
    exact absurd (Option.some.inj dot) descends.onward
  · rfl

end Descends

end ToolChanger.Path
