import ToolChanger.Decimal.Binary64

/-!
# Decimals in double arithmetic

The leading digits of a decimal, as many as fit a word, are rounded to a double, which is multiplied or divided
by a power of ten. Each step rounds, so the result may lie beside the nearest double.
-/

namespace ToolChanger.Decimal

/-- Appends digits to a whole number as long as it stays a word of 64 bits, and counts them. -/
def appendDigits (n : Nat) : List Char → Nat × Nat
  | [] => (n, 0)
  | c :: rest =>
    let longer := Nat.ofDigitChars 10 [c] n
    if longer < 0x10000000000000000 then
      let (all, count) := appendDigits longer rest
      (all, count + 1)
    else (n, 0)

namespace Binary64

def ofQuotient (negative : Bool) (n d : Nat) : Option Binary64 :=
  if finite : nearestPlace n d < 2047 * binade then some ⟨negative, nearestPlace n d, finite⟩ else none

def mul (x y : Binary64) : Option Binary64 :=
  ofQuotient (x.negative != y.negative) (x.fraction.1 * y.fraction.1) (x.fraction.2 * y.fraction.2)

def div (x y : Binary64) : Option Binary64 :=
  ofQuotient (x.negative != y.negative) (x.fraction.1 * y.fraction.2) (x.fraction.2 * y.fraction.1)

def powerOfTen (k : Nat) : Option Binary64 := ofQuotient false (Nat.pow 10 k) 1

/-- A word of 64 bits, rounded to a double, times a power of ten. Where the exponent is below -308 the
division takes two steps; where it is below -616 they leave nothing of the word. -/
def scale (x : Binary64) (exponent : Int) : Option Binary64 :=
  if x.place = 0 then some x
  else if 308 < exponent then none
  else if 0 ≤ exponent then do x.mul (← powerOfTen exponent.toNat)
  else if -308 ≤ exponent then do x.div (← powerOfTen (-exponent).toNat)
  else do (← x.div (← powerOfTen 308)).div (← powerOfTen (min (-exponent - 308) 308).toNat)

/-- The number of some digits before and after the point and a power of ten, read in double arithmetic.
Digits that no longer fit the word only count for the place of the point. -/
def ofDigits (negative : Bool) (whole places : List Char) (exponent : Int) : Option Binary64 := do
  let (leading, kept) := appendDigits 0 whole
  let (all, more) := appendDigits leading places
  (← ofQuotient negative all 1).scale (exponent + (whole.length - kept) - more)

end Binary64

end ToolChanger.Decimal
