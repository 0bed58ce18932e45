import Mathlib
import ToolChanger.Json.Basic

namespace ToolChanger

namespace Decimal

/-! ### Rounding -/

theorem roundHalfEven_mul (k n d : Nat) (positive : 0 < k) :
    roundHalfEven (k * n) (k * d) = roundHalfEven n d := by
  have scale (r : Nat) : 2 * (k * r) = k * (2 * r) := Nat.mul_left_comm 2 k r
  simp only [roundHalfEven, Nat.mul_mod_mul_left, Nat.mul_div_mul_left n d positive, scale,
    Nat.mul_lt_mul_left positive]

theorem roundHalfEven_exact (q : Nat) {d : Nat} (positive : 0 < d) : roundHalfEven (q * d) d = q := by
  rw [roundHalfEven, Nat.mul_mod_left, Nat.mul_div_cancel q positive, if_pos (by omega)]

theorem nearestPlace_mul (k n d : Nat) (positive : 0 < k) :
    nearestPlace (k * n) (k * d) = nearestPlace n d := by
  unfold nearestPlace
  simp only [Nat.mul_assoc, Nat.mul_div_mul_left _ d positive, roundHalfEven_mul k _ _ positive]

/-! ### Doubles -/

namespace Binary64

theorem fraction_pos (x : Binary64) : 0 < x.fraction.2 := Nat.pow_pos (by decide)

theorem pow_mul_pow {a b c d : Nat} (same : a + b = c + d) :
    Nat.pow 2 a * Nat.pow 2 b = Nat.pow 2 c * Nat.pow 2 d :=
  (Nat.pow_add 2 a b).symm.trans (same ▸ Nat.pow_add 2 c d)

theorem exists_scaled (x : Binary64) : ∃ shift,
    x.fraction.1 * Nat.pow 2 1074 = x.significand * Nat.pow 2 shift * x.fraction.2 ∧
      Nat.log2 (x.significand * Nat.pow 2 shift) - 52 = shift ∧ shift * binade + x.significand = x.place := by
  have numerator : x.fraction.1 = x.significand * Nat.pow 2 x.exponent.toNat := rfl
  have denominator : x.fraction.2 = Nat.pow 2 (-x.exponent).toNat := rfl
  by_cases small : x.place < binade
  · have significand : x.significand = x.place := if_pos small
    have exponent : x.exponent = -1074 := if_pos small
    refine ⟨0, ?_, ?_, ?_⟩
    · have up : x.exponent.toNat = 0 := exponent ▸ rfl
      have down : (-x.exponent).toNat = 1074 := exponent ▸ rfl
      rw [numerator, denominator, up, ← down]
    · have below : x.place.log2 < 52 ∨ x.place = 0 := by
        by_cases zero : x.place = 0
        · exact .inr zero
        · exact .inl ((Nat.log2_lt zero).mpr small)
      rw [significand, show x.place * Nat.pow 2 0 = x.place from Nat.mul_one _]
      rcases below with below | zero
      · omega
      · rw [zero]
        rfl
    · rw [Nat.zero_mul, Nat.zero_add, significand]
  · have significand : x.significand = binade + x.place % binade := if_neg small
    have exponent : x.exponent = (x.place / binade : Nat) - 1075 := if_neg small
    have cut := Nat.div_add_mod x.place binade
    obtain ⟨shift, normal⟩ : ∃ shift, x.place / binade = shift + 1 :=
      Nat.exists_eq_add_one.mpr ((Nat.one_le_div_iff (by decide)).mpr (Nat.le_of_not_lt small))
    have least : 2 ^ 52 ≤ x.significand := significand ▸ Nat.le_add_right _ _
    have greatest : x.significand < 2 ^ 53 :=
      significand ▸ Nat.add_lt_add_left (Nat.mod_lt _ (by decide)) binade
    refine ⟨shift, ?_, ?_, ?_⟩
    · have powers : x.exponent.toNat + 1074 = shift + (-x.exponent).toNat := by omega
      rw [numerator, denominator, Nat.mul_assoc, Nat.mul_assoc, pow_mul_pow powers]
    · have positive : 0 < 2 ^ shift := Nat.pow_pos (by decide)
      have leading : Nat.log2 (x.significand * 2 ^ shift) = 52 + shift := by
        refine (Nat.log2_eq_iff (Nat.mul_ne_zero (by omega) (by omega))).mpr ⟨?_, ?_⟩
        · rw [Nat.pow_add]
          exact Nat.mul_le_mul_right _ least
        · rw [Nat.add_right_comm, Nat.pow_add]
          exact Nat.mul_lt_mul_of_pos_right greatest positive
      exact (congrArg (· - 52) leading).trans (Nat.add_sub_cancel_left ..)
    · rw [significand, ← Nat.add_assoc, ← Nat.succ_mul, Nat.succ_eq_add_one, ← normal, Nat.mul_comm]
      exact cut

theorem nearestPlace_fraction (x : Binary64) : nearestPlace x.fraction.1 x.fraction.2 = x.place := by
  obtain ⟨shift, scaled, leading, place⟩ := x.exists_scaled
  have positive : 0 < x.fraction.2 * Nat.pow 2 shift := Nat.mul_pos x.fraction_pos (Nat.pow_pos (by decide))
  simp only [nearestPlace, scaled, Nat.mul_div_cancel _ x.fraction_pos, leading]
  rw [Nat.mul_assoc, Nat.mul_comm (Nat.pow 2 shift), roundHalfEven_exact _ positive]
  exact place

/-- The number that a double stands for. -/
def value (x : Binary64) : Rat :=
  mkRat (if x.negative then -(x.fraction.1 : Int) else x.fraction.1) x.fraction.2

theorem value_eq_iff {x : Binary64} {n : Int} :
    x.value = n ↔ (if x.negative then -(x.fraction.1 : Int) else x.fraction.1) = n * x.fraction.2 := by
  have whole : (n : Rat) = mkRat n 1 := (Rat.mkRat_one n).symm
  rw [value, whole, Rat.mkRat_eq_iff (Nat.ne_of_gt x.fraction_pos) (by decide)]
  simp

end Binary64

theorem ofDecimal_of_value {x : Binary64} {n : Int} (fits : n.natAbs < 10 ^ 20) (same : x.value = n) :
    ∃ y, Binary64.ofDecimal (n < 0) n.natAbs 0 = some y ∧ y.value = n := by
  have equation := Binary64.value_eq_iff.mp same
  by_cases zero : n = 0
  · subst zero
    exact ⟨.zero false, rfl, Binary64.value_eq_iff.mpr (by rw [Int.zero_mul]; rfl)⟩
  · have nonzero : n.natAbs ≠ 0 := Int.natAbs_ne_zero.mpr zero
    have absolute : x.fraction.1 = n.natAbs * x.fraction.2 := by
      have abs := congrArg Int.natAbs equation
      rw [Int.natAbs_mul, Int.natAbs_natCast] at abs
      rw [← abs]
      split <;> simp
    have sign : x.negative = decide (n < 0) := by
      have positive : (0 : Int) < x.fraction.2 := Int.natCast_pos.mpr x.fraction_pos
      have above : (0 : Int) < x.fraction.1 := by
        rw [absolute, Int.natCast_mul]
        exact Int.mul_pos (by omega) positive
      cases negative : x.negative with
      | true =>
        rw [negative, if_pos rfl] at equation
        refine (decide_eq_true (Int.not_le.mp fun up => ?_)).symm
        have product := Int.mul_nonneg up (Int.le_of_lt positive)
        omega
      | false =>
        rw [negative, if_neg (by decide)] at equation
        refine (decide_eq_false fun down => ?_).symm
        have product := Int.mul_neg_of_neg_of_pos down positive
        omega
    have length : (Nat.toDigits 10 n.natAbs).length ≤ 20 :=
      (Nat.length_toDigits_le_iff (by decide) (by decide)).mpr fits
    have place : decimalPlace n.natAbs 0 = x.place := by
      rw [← x.nearestPlace_fraction, absolute]
      have cancel := nearestPlace_mul x.fraction.2 n.natAbs 1 x.fraction_pos
      rw [Nat.mul_one, Nat.mul_comm] at cancel
      rw [cancel, decimalPlace, if_neg (by omega), if_neg (by omega)]
      rw [show Nat.pow 10 (0 : Int).toNat = 1 from rfl, show Nat.pow 10 (-0 : Int).toNat = 1 from rfl, Nat.mul_one]
    refine ⟨x, ?_, same⟩
    rw [Binary64.ofDecimal, dif_pos (place ▸ x.finite)]
    simp only [place, ← sign]

end Decimal

open Decimal

/-- What a number is worth, however it is written. -/
def Number.value : Number → Rat
  | whole n _ => n
  | real x => x.value

/-- Read as a double, a number keeps its value exactly if it is the value of some double. -/
theorem Json.value_of_asReal? {number : Number} {x : Binary64}
    (reads : (Json.number number).asReal? = some x) :
    number.value = x.value ↔ ∃ y : Binary64, y.value = number.value := by
  refine ⟨fun same => ⟨x, same.symm⟩, fun ⟨y, same⟩ => ?_⟩
  cases number with
  | whole n fits =>
    obtain ⟨z, nearest, exact⟩ := ofDecimal_of_value (by omega) same
    obtain rfl := Option.some.inj (nearest.symm.trans reads)
    exact exact.symm
  | real z =>
    obtain rfl : z = x := Option.some.inj reads
    rfl

end ToolChanger
