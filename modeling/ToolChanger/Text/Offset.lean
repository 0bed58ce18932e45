/-!
# Byte offsets

Positions in a text counted in bytes of its UTF-8 form, and cuts at them. A cut that would fall inside a
character falls before it.
-/

namespace ToolChanger.Text

def byteLength : List Char → Nat
  | [] => 0
  | c :: rest => c.utf8Size + byteLength rest

/-- The characters that end at or before an offset. -/
def takeBytes : Nat → List Char → List Char
  | _, [] => []
  | n, c :: rest => if c.utf8Size ≤ n then c :: takeBytes (n - c.utf8Size) rest else []

def dropBytes : Nat → List Char → List Char
  | _, [] => []
  | n, c :: rest => if c.utf8Size ≤ n then dropBytes (n - c.utf8Size) rest else c :: rest

/-- A range of bytes: from `start` up to, but not including, `stop`. -/
structure Span where
  start : Nat
  stop : Nat
  deriving DecidableEq, Repr

/-- The text with one range of bytes exchanged for another text. -/
def splice (text : List Char) (range : Span) (replacement : List Char) : List Char :=
  takeBytes range.start text ++ replacement ++ dropBytes range.stop text

def slice (text : List Char) (range : Span) : List Char :=
  takeBytes (range.stop - range.start) (dropBytes range.start text)

theorem byteLength_append (a b : List Char) : byteLength (a ++ b) = byteLength a + byteLength b := by
  induction a with
  | nil => simp [byteLength]
  | cons c rest ih => simp [byteLength, ih]; omega

theorem takeBytes_append_dropBytes (n : Nat) (text : List Char) :
    takeBytes n text ++ dropBytes n text = text := by
  induction text generalizing n with
  | nil => rfl
  | cons c rest ih =>
    simp only [takeBytes, dropBytes]
    split <;> simp [ih]

theorem takeBytes_byteLength (a b : List Char) : takeBytes (byteLength a) (a ++ b) = a := by
  induction a with
  | nil =>
    cases b with
    | nil => rfl
    | cons c rest => simp [takeBytes, byteLength, Nat.not_le.mpr c.utf8Size_pos]
  | cons c rest ih =>
    simp only [List.cons_append, byteLength, takeBytes]
    rw [if_pos (by omega), Nat.add_sub_cancel_left, ih]

theorem dropBytes_byteLength (a b : List Char) : dropBytes (byteLength a) (a ++ b) = b := by
  have whole := takeBytes_append_dropBytes (byteLength a) (a ++ b)
  rw [takeBytes_byteLength] at whole
  exact List.append_cancel_left whole

theorem dropBytes_add (a b : List Char) (n : Nat) :
    dropBytes (byteLength a + n) (a ++ b) = dropBytes n b := by
  induction a with
  | nil => simp [byteLength]
  | cons c rest ih =>
    simp only [List.cons_append, byteLength, dropBytes]
    have less : c.utf8Size + byteLength rest + n - c.utf8Size = byteLength rest + n := by omega
    rw [if_pos (by omega), less, ih]

theorem splice_append (a b c replacement : List Char) :
    splice (a ++ (b ++ c)) ⟨byteLength a, byteLength a + byteLength b⟩ replacement =
      a ++ (replacement ++ c) := by
  unfold splice
  rw [takeBytes_byteLength, dropBytes_add, dropBytes_byteLength, List.append_assoc]

theorem slice_append (a b c : List Char) :
    slice (a ++ (b ++ c)) ⟨byteLength a, byteLength a + byteLength b⟩ = b := by
  unfold slice
  rw [dropBytes_byteLength, show byteLength a + byteLength b - byteLength a = byteLength b by omega,
    takeBytes_byteLength]

theorem takeBytes_append_of_le {n : Nat} {text : List Char} (within : n ≤ byteLength text)
    (back : List Char) : takeBytes n (text ++ back) = takeBytes n text := by
  induction text generalizing n with
  | nil =>
    obtain rfl := Nat.le_zero.mp within
    exact takeBytes_byteLength [] back
  | cons c rest ih =>
    rw [byteLength] at within
    rw [List.cons_append, takeBytes, takeBytes, ih (by omega)]

theorem dropBytes_append_of_le {n : Nat} {text : List Char} (within : n ≤ byteLength text)
    (back : List Char) : dropBytes n (text ++ back) = dropBytes n text ++ back := by
  induction text generalizing n with
  | nil =>
    obtain rfl := Nat.le_zero.mp within
    exact dropBytes_byteLength [] back
  | cons c rest ih =>
    rw [byteLength] at within
    rw [List.cons_append, dropBytes, dropBytes, ih (by omega)]
    split <;> rfl

theorem splice_append_of_le {text : List Char} {range : Span} (order : range.start ≤ range.stop)
    (within : range.stop ≤ byteLength text) (back replacement : List Char) :
    splice (text ++ back) range replacement = splice text range replacement ++ back := by
  unfold splice
  rw [takeBytes_append_of_le (Nat.le_trans order within), dropBytes_append_of_le within, List.append_assoc,
    List.append_assoc, List.append_assoc]

theorem byteLength_le_dropBytes (n : Nat) (text : List Char) :
    byteLength text ≤ n + byteLength (dropBytes n text) := by
  induction text generalizing n with
  | nil => exact Nat.zero_le _
  | cons c rest ih =>
    rw [dropBytes, byteLength]
    split
    · have later := ih (n - c.utf8Size)
      omega
    · exact Nat.le_add_left _ _

theorem slice_append_of_le {text : List Char} {range : Span} (order : range.start ≤ range.stop)
    (within : range.stop ≤ byteLength text) (back : List Char) :
    slice (text ++ back) range = slice text range := by
  have left := byteLength_le_dropBytes range.start text
  unfold slice
  rw [dropBytes_append_of_le (Nat.le_trans order within), takeBytes_append_of_le (by omega)]

end ToolChanger.Text
