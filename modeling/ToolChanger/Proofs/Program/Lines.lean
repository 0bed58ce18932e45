import Mathlib.Data.List.Basic
import ToolChanger.Program.ToolChange

namespace ToolChanger.Program

theorem lines_newline (rest : List Char) : lines ('\n' :: rest) = [] :: lines rest := by
  rw [lines, List.splitOn_cons_eq_if_modifyHead, if_pos (beq_self_eq_true '\n')]
  rfl

theorem lines_ne_nil (text : List Char) : lines text ≠ [] := List.splitOn_ne_nil _ _

theorem exists_lines (text : List Char) : ∃ first others, lines text = first :: others :=
  List.exists_cons_of_ne_nil (lines_ne_nil text)

theorem lines_cons {c : Char} {rest first : List Char} {others : List (List Char)} (inLine : c ≠ '\n')
    (cut : lines rest = first :: others) : lines (c :: rest) = (c :: first) :: others := by
  unfold lines at cut ⊢
  rw [List.splitOn_cons_eq_if_modifyHead, if_neg (mt beq_iff_eq.mp inLine), cut]
  rfl

theorem newline_notMem_of_mem_lines {program line : List Char} (member : line ∈ lines program) :
    '\n' ∉ line := by
  induction program generalizing line with
  | nil =>
    obtain rfl := List.mem_singleton.mp member
    exact List.not_mem_nil
  | cons c rest ih =>
    by_cases ends : c = '\n'
    · subst ends
      rw [lines_newline] at member
      rcases List.mem_cons.mp member with rfl | later
      · exact List.not_mem_nil
      · exact ih later
    · obtain ⟨first, others, cut⟩ := exists_lines rest
      rw [lines_cons ends cut] at member
      rw [cut] at ih
      rcases List.mem_cons.mp member with rfl | later
      · intro broken
        rcases List.mem_cons.mp broken with same | inside
        · exact ends same.symm
        · exact ih List.mem_cons_self inside
      · exact ih (List.mem_cons_of_mem first later)

theorem ofLines_singleton (text : List Char) : ofLines [text] = text := List.intercalate_singleton

theorem ofLines_cons {texts : List (List Char)} (nonempty : texts ≠ []) (text : List Char) :
    ofLines (text :: texts) = text ++ '\n' :: ofLines texts := by
  obtain ⟨next, rest, rfl⟩ := List.exists_cons_of_ne_nil nonempty
  rw [ofLines, List.intercalate_cons_cons, List.append_assoc, List.singleton_append, ofLines]

theorem ofLines_lines (text : List Char) : ofLines (lines text) = text := List.intercalate_splitOn '\n'

theorem lines_ofLines {texts : List (List Char)} (nonempty : texts ≠ [])
    (unbroken : ∀ text ∈ texts, '\n' ∉ text) : lines (ofLines texts) = texts :=
  List.splitOn_intercalate '\n' unbroken nonempty

theorem lines_of_unbroken {line : List Char} (unbroken : '\n' ∉ line) : lines line = [line] := by
  have alone := lines_ofLines (List.cons_ne_nil line []) fun _ member => List.mem_singleton.mp member ▸ unbroken
  rwa [ofLines_singleton] at alone

theorem length_lines (program : List Char) : (lines program).length = program.count '\n' + 1 := by
  induction program with
  | nil => rfl
  | cons c rest ih =>
    by_cases ends : c = '\n'
    · subst ends
      rw [lines_newline, List.length_cons, ih, List.count_cons_self]
    · obtain ⟨first, others, cut⟩ := exists_lines rest
      rw [cut] at ih
      rw [lines_cons ends cut, List.count_cons_of_ne ends, ← ih]
      rfl

theorem length_lines_ofLines {texts : List (List Char)} (nonempty : texts ≠ []) :
    (lines (ofLines texts)).length = texts.length ↔ ∀ text ∈ texts, '\n' ∉ text := by
  have breaks : (ofLines texts).count '\n' + 1 = texts.length + (texts.map (List.count '\n')).sum := by
    induction texts with
    | nil => exact absurd rfl nonempty
    | cons text rest ih =>
      cases rest with
      | nil => simp [ofLines_singleton, Nat.add_comm]
      | cons next rest =>
        have later := ih (List.cons_ne_nil _ _)
        rw [ofLines_cons (List.cons_ne_nil _ _), List.count_append, List.count_cons_self, List.map_cons,
          List.sum_cons, List.length_cons]
        omega
  rw [length_lines, breaks, Nat.add_eq_left, List.sum_eq_zero_iff_forall_eq_nat]
  simp [List.count_eq_zero]

end ToolChanger.Program
