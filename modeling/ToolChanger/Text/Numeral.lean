import ToolChanger.Text.Digit

namespace ToolChanger.Text

def numeral (n : Nat) : List Char := Nat.toDigits 10 n

/-- The number that a nonempty run of ASCII digits stands for. -/
def digitsValue (text : List Char) : Option Nat :=
  if text.isEmpty || !text.all Char.isDigit then none else some (Nat.ofDigitChars 10 text 0)

/-- A number of at most 32 bits, with an optional plus sign. -/
def readUInt32 (text : List Char) : Option UInt32 := do
  let digits := match text with
    | '+' :: rest => rest
    | _ => text
  let n ← digitsValue digits
  if n < 0x100000000 then some n.toUInt32 else none

def readInt64 (text : List Char) : Option Int := do
  let n ← match text with
    | '+' :: rest => (digitsValue rest).map Int.ofNat
    | '-' :: rest => (digitsValue rest).map fun n => -Int.ofNat n
    | _ => (digitsValue text).map Int.ofNat
  if -0x8000000000000000 ≤ n ∧ n < 0x8000000000000000 then some n else none

def hexValue (c : Char) : Option Nat :=
  if '0' ≤ c ∧ c ≤ '9' then some (c.toNat - 48)
  else if 'a' ≤ c ∧ c ≤ 'f' then some (c.toNat - 87)
  else if 'A' ≤ c ∧ c ≤ 'F' then some (c.toNat - 55)
  else none

def readBase (base : Nat) (text : List Char) : Option Nat :=
  text.foldl (fun acc c => do
    let n ← acc
    let d ← hexValue c
    if d < base then some (n * base + d) else none) (some 0)

theorem numeral_isDigit (n : Nat) : (numeral n).all Char.isDigit = true :=
  List.all_eq_true.mpr fun _ member => Nat.isDigit_of_mem_toDigits (by decide) (by decide) member

theorem numeral_ne_nil (n : Nat) : numeral n ≠ [] := Nat.toDigits_ne_nil

theorem digitsValue_numeral (n : Nat) : digitsValue (numeral n) = some n := by
  have nonempty : (numeral n).isEmpty = false := by simpa using numeral_ne_nil n
  rw [digitsValue, nonempty, numeral_isDigit]
  simp [numeral, Nat.ofDigitChars_ten_toDigits]

theorem readUInt32_numeral (n : UInt32) : readUInt32 (numeral n.toNat) = some n := by
  have unsigned (rest : List Char) : numeral n.toNat ≠ '+' :: rest := by
    intro same
    have digit := numeral_isDigit n.toNat
    rw [same] at digit
    cases digit
  have fits : n.toNat < 0x100000000 := n.toNat_lt
  unfold readUInt32
  split
  · rename_i rest same
    exact absurd same (unsigned rest)
  · simp [digitsValue_numeral, fits]

end ToolChanger.Text
