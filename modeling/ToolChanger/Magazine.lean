import ToolChanger.Tool.Number

namespace ToolChanger

inductive PocketError where
  | outsideMagazine (pocket capacity : UInt32)
  | invalid (value : Int)
  | unreadable (text : String)
  deriving DecidableEq, Repr

def PocketError.message : PocketError → String
  | outsideMagazine pocket capacity =>
    "Pocket " ++ toString pocket.toNat ++ " is outside the magazine (1..=" ++
      toString capacity.toNat ++ ")"
  | invalid value => "Invalid pocket value: " ++ toString value
  | unreadable text => "Unparsable pocket value: " ++ text

namespace Magazine

def has (capacity : UInt32) (pocket : Pocket) : Bool := pocket ≠ 0 && pocket ≤ capacity

def check (pocket : Pocket) (capacity : UInt32) : Except PocketError Unit :=
  if has capacity pocket then .ok () else .error (.outsideMagazine pocket capacity)

def pockets (capacity : UInt32) : List Pocket :=
  (List.range capacity.toNat).map fun n => (n + 1).toUInt32

theorem has_eq_true_iff {capacity : UInt32} {pocket : Pocket} :
    has capacity pocket = true ↔ 1 ≤ pocket ∧ pocket ≤ capacity := by
  have positive : pocket ≠ 0 ↔ 1 ≤ pocket := by
    rw [ne_eq, ← UInt32.toNat_inj, UInt32.le_iff_toNat_le, UInt32.toNat_zero, UInt32.toNat_one]
    omega
  rw [has, Bool.and_eq_true, decide_eq_true_eq, decide_eq_true_eq, positive]

def insertOnce (pocket : Pocket) : List Pocket → List Pocket
  | [] => [pocket]
  | other :: rest =>
    if pocket < other then pocket :: other :: rest
    else if pocket = other then other :: rest
    else other :: insertOnce pocket rest

def ascending (pockets : List Pocket) : List Pocket := pockets.foldr insertOnce []

theorem mem_insertOnce {pocket x : Pocket} {pockets : List Pocket} :
    x ∈ insertOnce pocket pockets ↔ x = pocket ∨ x ∈ pockets := by
  induction pockets with
  | nil => simp [insertOnce]
  | cons other rest ih =>
    simp only [insertOnce]
    split
    · simp
    · split
      · rename_i same
        subst same
        simp
      · simp only [List.mem_cons, ih]
        grind

theorem sorted_insertOnce (pocket : Pocket) {pockets : List Pocket}
    (sorted : pockets.Pairwise (· < ·)) : (insertOnce pocket pockets).Pairwise (· < ·) := by
  induction pockets with
  | nil => simp [insertOnce]
  | cons other rest ih =>
    have above := (List.pairwise_cons.mp sorted).1
    have tail := (List.pairwise_cons.mp sorted).2
    simp only [insertOnce]
    split
    · rename_i less
      refine List.pairwise_cons.mpr ⟨fun x member => ?_, sorted⟩
      rcases List.mem_cons.mp member with rfl | inside
      · exact less
      · exact UInt32.lt_trans less (above x inside)
    · split
      · exact sorted
      · rename_i notLess different
        refine List.pairwise_cons.mpr ⟨fun x member => ?_, ih tail⟩
        rcases mem_insertOnce.mp member with rfl | inside
        · exact UInt32.lt_of_le_of_ne (UInt32.not_lt.mp notLess) fun same => different same.symm
        · exact above x inside

@[simp] theorem mem_ascending {x : Pocket} {pockets : List Pocket} :
    x ∈ ascending pockets ↔ x ∈ pockets := by
  induction pockets with
  | nil => rfl
  | cons other rest ih =>
    rw [ascending, List.foldr_cons, mem_insertOnce, List.mem_cons]
    exact or_congr Iff.rfl ih

theorem sorted_ascending (pockets : List Pocket) : (ascending pockets).Pairwise (· < ·) := by
  induction pockets with
  | nil => exact .nil
  | cons other rest ih => exact sorted_insertOnce other ih

end Magazine

end ToolChanger
