import Mathlib.Algebra.Order.Ring.Int
import Mathlib.Tactic.Ring

/-!
# Products of integers and `float64` constants

A `float64` is an integer of at most 53 bits times a power of two, and a product is rounded to the
nearest such number, to an even one in a tie. For the constants 1.2 and 0.8, which are not
`float64` numbers, truncating the rounded product gives the same integer as exact arithmetic.
-/

namespace Zrpc.Lib

/-- The bits of `x` that do not fit 53 bits. -/
def excessBits (x : Nat) : Nat := x.log2 + 1 - 53

/-- The number with at most 53 significant bits that is nearest to `x`. -/
def roundFloat (x : Nat) : Nat :=
  let w := 2 ^ excessBits x
  let q := x / w
  let r := x % w
  (if 2 * r < w ∨ 2 * r = w ∧ q % 2 = 0 then q else q + 1) * w

/-- Go's `int(float64(n) * c)` for the constant `c = m / 2 ^ e`. -/
def mulTrunc (m e : Nat) (n : Int) : Int :=
  n.sign * ((roundFloat (n.natAbs * m) / 2 ^ e : Nat) : Int)

lemma pow_excessBits_bounds (x : Nat) :
    x < 2 ^ excessBits x * 2 ^ 53 ∧ (excessBits x = 0 ∨ 2 ^ excessBits x * 2 ^ 52 ≤ x) := by
  unfold excessBits
  by_cases hx : x = 0
  · subst hx
    simp
  have hlow := Nat.log2_self_le hx
  have hhigh : x < 2 ^ (x.log2 + 1) := Nat.lt_log2_self
  rw [← pow_add, ← pow_add]
  by_cases hbits : x.log2 + 1 ≤ 53
  · have hzero : x.log2 + 1 - 53 = 0 := by omega
    rw [hzero]
    exact ⟨hhigh.trans_le (Nat.pow_le_pow_right (by omega) (by omega)), .inl rfl⟩
  · refine ⟨?_, .inr ?_⟩
    · rwa [show x.log2 + 1 - 53 + 53 = x.log2 + 1 by omega]
    · rwa [show x.log2 + 1 - 53 + 52 = x.log2 by omega]

/-- Rounding moves a number by at most half the weight of its last bit. -/
lemma roundFloat_error (x : Nat) :
    2 * roundFloat x ≤ 2 * x + 2 ^ excessBits x ∧ 2 * x ≤ 2 * roundFloat x + 2 ^ excessBits x := by
  unfold roundFloat
  have hw : 0 < 2 ^ excessBits x := Nat.two_pow_pos _
  generalize 2 ^ excessBits x = w at hw ⊢
  have hx := Nat.div_add_mod x w
  rw [Nat.mul_comm w (x / w)] at hx
  have hr := Nat.mod_lt x hw
  dsimp only
  split
  · omega
  · rw [Nat.add_mul, Nat.one_mul]
    omega

/-- A multiple of the weight of the last bit that is nearer than half of it is the result. -/
lemma roundFloat_eq {x y : Nat} (hy : 2 ^ excessBits x ∣ y)
    (hbelow : 2 * x < 2 * y + 2 ^ excessBits x) (habove : 2 * y < 2 * x + 2 ^ excessBits x) :
    roundFloat x = y := by
  have hround : 2 ^ excessBits x ∣ roundFloat x := Nat.dvd_mul_left _ _
  obtain ⟨herror, herror'⟩ := roundFloat_error x
  generalize 2 ^ excessBits x = w at *
  obtain ⟨a, rfl⟩ := hy
  obtain ⟨b, hb⟩ := hround
  rw [hb] at herror herror' ⊢
  -- Both are multiples of `w` and less than `w` apart.
  have hab : w * b < w * (a + 1) := by
    rw [Nat.mul_add, Nat.mul_one]
    omega
  have hba : w * a < w * (b + 1) := by
    rw [Nat.mul_add, Nat.mul_one]
    omega
  have h₁ := Nat.lt_of_mul_lt_mul_left hab
  have h₂ := Nat.lt_of_mul_lt_mul_left hba
  rw [show b = a by omega]

lemma excessBits_le {x : Nat} (hx : x < 2 ^ 84) : excessBits x ≤ 31 ∧ 2 ^ excessBits x ≤ 2 ^ 31 := by
  have hle : excessBits x ≤ 31 := by
    by_contra hgt
    obtain ⟨-, hzero | hlow⟩ := pow_excessBits_bounds x
    · omega
    · have hpow : 2 ^ 32 ≤ 2 ^ excessBits x := Nat.pow_le_pow_right (by omega) (by omega)
      omega
  exact ⟨hle, Nat.pow_le_pow_right (by omega) hle⟩

lemma dvd_mul_pow_of_excessBits {x : Nat} (hx : x < 2 ^ 84) (k e : Nat) (he : 31 ≤ e) :
    2 ^ excessBits x ∣ k * 2 ^ e :=
  (Nat.pow_dvd_pow 2 ((excessBits_le hx).1.trans he)).mul_left k

/-- `5404319552844595 / 2 ^ 52` is the `float64` nearest to 1.2. -/
lemma roundFloat_six_fifths {n : Nat} (hn : n < 2 ^ 31 + 1) :
    roundFloat (n * 5404319552844595) / 2 ^ 52 = 6 * n / 5 := by
  have hx : n * 5404319552844595 < 2 ^ 84 := by omega
  obtain ⟨hhigh, -⟩ := pow_excessBits_bounds (n * 5404319552844595)
  obtain ⟨herror, herror'⟩ := roundFloat_error (n * 5404319552844595)
  obtain ⟨-, hw⟩ := excessBits_le hx
  by_cases hexact : 6 * n % 5 = 0
  · -- The exact product is an integer, and the nearest number to the product of the constants.
    have hround : roundFloat (n * 5404319552844595) = 6 * n / 5 * 2 ^ 52 := by
      refine roundFloat_eq (dvd_mul_pow_of_excessBits hx _ 52 (by omega)) ?_ ?_ <;> omega
    rw [hround, Nat.mul_div_cancel _ (by omega)]
  · omega

/-- `7205759403792794 / 2 ^ 53` is the `float64` nearest to 0.8. -/
lemma roundFloat_four_fifths {n : Nat} (hn : n < 2 ^ 31 + 1) :
    roundFloat (n * 7205759403792794) / 2 ^ 53 = 4 * n / 5 := by
  have hx : n * 7205759403792794 < 2 ^ 84 := by omega
  obtain ⟨hhigh, -⟩ := pow_excessBits_bounds (n * 7205759403792794)
  obtain ⟨herror, herror'⟩ := roundFloat_error (n * 7205759403792794)
  obtain ⟨-, hw⟩ := excessBits_le hx
  by_cases hexact : 4 * n % 5 = 0
  · have hround : roundFloat (n * 7205759403792794) = 4 * n / 5 * 2 ^ 53 := by
      refine roundFloat_eq (dvd_mul_pow_of_excessBits hx _ 53 (by omega)) ?_ ?_ <;> omega
    rw [hround, Nat.mul_div_cancel _ (by omega)]
  · omega

lemma sign_mul_natAbs_div (a b : Nat) (n : Int) :
    n.sign * ((a * n.natAbs / b : Nat) : Int) = (a * n : Int).tdiv b := by
  obtain ⟨k, rfl | rfl⟩ := n.eq_nat_or_neg
  · obtain rfl | hk := Nat.eq_zero_or_pos k
    · simp
    · rw [Int.sign_eq_one_of_pos (by omega), Int.natAbs_natCast, one_mul, ← Int.natCast_mul,
        ← Int.ofNat_tdiv]
  · obtain rfl | hk := Nat.eq_zero_or_pos k
    · simp
    · rw [Int.sign_eq_neg_one_of_neg (by omega), Int.natAbs_neg, Int.natAbs_natCast, mul_neg,
        Int.neg_tdiv, ← Int.natCast_mul, ← Int.ofNat_tdiv, neg_one_mul]

theorem mulTrunc_six_fifths {n : Int} (hlow : -2 ^ 31 ≤ n) (hhigh : n < 2 ^ 31) :
    mulTrunc 5404319552844595 52 n = (6 * n).tdiv 5 := by
  unfold mulTrunc
  rw [roundFloat_six_fifths (by omega), sign_mul_natAbs_div]
  rfl

theorem mulTrunc_four_fifths {n : Int} (hlow : -2 ^ 31 ≤ n) (hhigh : n < 2 ^ 31) :
    mulTrunc 7205759403792794 53 n = (4 * n).tdiv 5 := by
  unfold mulTrunc
  rw [roundFloat_four_fifths (by omega), sign_mul_natAbs_div]
  rfl

end Zrpc.Lib
