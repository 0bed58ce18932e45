import ToolChanger.Decimal.Binary64

/-!
# The shortest decimal of a double

The fewest digits that read back, and of those the ones nearest to the number. Where two decimals are equally near,
the format that is written decides between them (`Ties`).
-/

namespace ToolChanger.Decimal

/-- The nonnegative number `digits * 10 ^ exponent`. -/
structure Scaled where
  digits : Nat
  exponent : Int
  deriving DecidableEq, Repr

/-- Which of two equally near neighbours stands for a number. -/
inductive Ties where
  | toEven
  | up
  deriving DecidableEq, Repr

def Ties.round : Ties → Nat → Nat → Nat
  | toEven => roundHalfEven
  | up => roundHalfUp

namespace Binary64

/-- The power of ten just above the absolute value: `10 ^ (p - 1) ≤ |x| < 10 ^ p` for a nonzero `x`. A
quotient below one has as many zeros after the point as its inverse, rounded up, has digits but one. -/
def decimalPoint (x : Binary64) : Int :=
  let (num, den) := x.fraction
  if den ≤ num then (Nat.toDigits 10 (num / den)).length
  else 1 - (Nat.toDigits 10 ((den - 1) / num)).length

def readsBack (x : Binary64) (d : Scaled) : Bool := decimalPlace d.digits d.exponent == x.place

/-- A multiple of `10 ^ exponent` that reads back: one of the number's two neighbours among them, the
nearer one if both do; `ties` decides between two that are equally near. -/
def onGrid? (x : Binary64) (ties : Ties) (exponent : Int) : Option Scaled :=
  let num := x.fraction.1 * Nat.pow 10 (-exponent).toNat
  let den := x.fraction.2 * Nat.pow 10 exponent.toNat
  let below : Scaled := ⟨num / den, exponent⟩
  let above : Scaled := ⟨num / den + 1, exponent⟩
  let nearer := if ties.round num den = below.digits then [below, above] else [above, below]
  nearer.find? x.readsBack

def exactDecimal (x : Binary64) : Scaled :=
  if 0 ≤ x.exponent then ⟨x.significand * Nat.pow 2 x.exponent.toNat, 0⟩
  else ⟨x.significand * Nat.pow 5 (-x.exponent).toNat, x.exponent⟩

/-- The shortest decimal that reads back: grids of one digit, two digits and so on are tried. Seventeen
digits always suffice, so the search ends there. -/
def shortest (x : Binary64) (ties : Ties) : Scaled :=
  let point := x.decimalPoint
  ((List.range 17).findSome? fun (more : Nat) => x.onGrid? ties (point - 1 - more)).getD x.exactDecimal

end Binary64

/-- A number in writing: its digits without zeros at the end, and how many of them, counting zeros to be
filled in, stand before the point. -/
structure Layout where
  digits : List Char
  point : Int
  deriving DecidableEq, Repr

def Scaled.layout (d : Scaled) : Layout :=
  if d.digits = 0 then ⟨['0'], 1⟩
  else
    let all := Nat.toDigits 10 d.digits
    ⟨(all.reverse.dropWhile (· == '0')).reverse, all.length + d.exponent⟩

def Layout.positional (l : Layout) : List Char :=
  let count : Int := l.digits.length
  if l.point ≤ 0 then
    '0' :: '.' :: (List.replicate (-l.point).toNat '0' ++ l.digits)
  else if count ≤ l.point then
    l.digits ++ List.replicate (l.point - count).toNat '0' ++ ['.', '0']
  else
    l.digits.take l.point.toNat ++ '.' :: l.digits.drop l.point.toNat

def Layout.scientific (l : Layout) : List Char :=
  let power := l.point - 1
  let body := match l.digits with
    | first :: second :: rest => first :: '.' :: second :: rest
    | digits => digits
  body ++ 'e' :: (if power < 0 then '-' else '+') :: Nat.toDigits 10 power.natAbs

end ToolChanger.Decimal
