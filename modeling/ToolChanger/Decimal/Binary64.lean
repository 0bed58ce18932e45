/-!
# Finite double precision numbers

A finite binary64 number is a sign and a place in the ascending list of nonnegative finite doubles, which
is also its bit pattern without the sign. Decimals are read to the nearest double, ties to the even place.
-/

namespace ToolChanger.Decimal

/-- The number of doubles from one power of two up to, but without, the next. -/
abbrev binade : Nat := 0x10000000000000

/-- A finite IEEE 754 binary64 number. -/
structure Binary64 where
  negative : Bool
  /-- The number of nonnegative doubles below the absolute value. -/
  place : Nat
  finite : place < 2047 * binade
  deriving DecidableEq, Repr

namespace Binary64

/-- The absolute value is `significand * 2 ^ exponent`. -/
def significand (x : Binary64) : Nat :=
  if x.place < binade then x.place else binade + x.place % binade

def exponent (x : Binary64) : Int :=
  if x.place < binade then -1074 else (x.place / binade : Nat) - 1075

def fraction (x : Binary64) : Nat × Nat :=
  (x.significand * Nat.pow 2 x.exponent.toNat, Nat.pow 2 (-x.exponent).toNat)

def zero (negative : Bool) : Binary64 := ⟨negative, 0, by decide⟩

end Binary64

def roundHalfEven (n d : Nat) : Nat :=
  if 2 * (n % d) < d then n / d
  else if d < 2 * (n % d) then n / d + 1
  else n / d + n / d % 2

def roundHalfUp (n d : Nat) : Nat := if 2 * (n % d) < d then n / d else n / d + 1

/-- The place of the double nearest to `n / d`. Beyond the greatest double the places go on as if the
exponent had no bound. -/
def nearestPlace (n d : Nat) : Nat :=
  let scaled := n * Nat.pow 2 1074
  let shift := Nat.log2 (scaled / d) - 52
  shift * binade + roundHalfEven scaled (d * Nat.pow 2 shift)

/-- The place of the double nearest to `digits * 10 ^ exponent`. Far outside the range of doubles the
answer does not depend on the digits, so no huge power is formed. -/
def decimalPlace (digits : Nat) (exponent : Int) : Nat :=
  let magnitude := (Nat.toDigits 10 digits).length + exponent
  if digits = 0 ∨ magnitude < -330 then 0
  else if 330 < magnitude then 2047 * binade
  else nearestPlace (digits * Nat.pow 10 exponent.toNat) (Nat.pow 10 (-exponent).toNat)

def Binary64.ofDecimal (negative : Bool) (digits : Nat) (exponent : Int) : Option Binary64 :=
  if finite : decimalPlace digits exponent < 2047 * binade then
    some ⟨negative, decimalPlace digits exponent, finite⟩
  else none

end ToolChanger.Decimal
