import Zrpc.ClientOptions

/-!
# The backoff of the retry loop

The product of the base time and the power of two is computed in 64 bits before it is compared with
the cap. This file says for which options the wait is the capped product of exact integers.
-/

namespace Zrpc

/-- The wait in exact integers. -/
def exactWait (opt : RetryOption) (retry : Int) : Int :=
  min (opt.retryBackoff * 2 ^ (retry - 1).toNat) opt.maxRetryBackoff

namespace Proofs

variable {opt : RetryOption} {retry : Int}

lemma int64_mul_int64 (a b : Int) : int64 (a * int64 b) = int64 (a * b) := by
  have hb : int64 b = b - 2 ^ 64 * ((b + 2 ^ 63) / 2 ^ 64) := by
    unfold int64
    omega
  rw [hb, mul_sub, mul_left_comm a]
  unfold int64
  omega

/-- The shift and the product together: one reduction of the exact product. -/
lemma retryWait_eq (hretry : 2 ≤ retry) (hb : 0 < opt.retryBackoff) :
    retryWait opt retry =
      some (min (int64 (opt.retryBackoff * 2 ^ (retry - 1).toNat)) opt.maxRetryBackoff) := by
  unfold retryWait oneShifted
  rw [if_pos ⟨by omega, hb⟩, int64_mul_int64]
  dsimp only
  congr 1
  split <;> omega

lemma product_pos (hb : 0 < opt.retryBackoff) (n : Nat) : 0 < opt.retryBackoff * 2 ^ n :=
  mul_pos hb (pow_pos (by decide) n)

lemma product_mono (hb : 0 < opt.retryBackoff) {n m : Nat} (h : n ≤ m) :
    opt.retryBackoff * 2 ^ n ≤ opt.retryBackoff * 2 ^ m :=
  mul_le_mul_of_nonneg_left (pow_le_pow_right₀ (by decide) h) hb.le

/-- The wait is exact when the product fits in 63 bits, or when it wraps to a value that the cap
hides. -/
lemma retryWait_exact_iff (hretry : 2 ≤ retry) (hb : 0 < opt.retryBackoff)
    (hmax : opt.maxRetryBackoff < 2 ^ 63) :
    retryWait opt retry = some (exactWait opt retry) ↔
      opt.retryBackoff * 2 ^ (retry - 1).toNat < 2 ^ 63 ∨
      opt.maxRetryBackoff ≤ int64 (opt.retryBackoff * 2 ^ (retry - 1).toNat) := by
  have hpos := product_pos hb (retry - 1).toNat
  rw [retryWait_eq hretry hb, Option.some.injEq, exactWait]
  generalize opt.retryBackoff * 2 ^ (retry - 1).toNat = product at hpos ⊢
  by_cases hfits : product < 2 ^ 63
  · rw [int64_eq (by omega) hfits]
    exact iff_of_true rfl (.inl hfits)
  · omega

lemma exactWait_bounds (hb : 0 < opt.retryBackoff) (hmax : 0 < opt.maxRetryBackoff) :
    0 < exactWait opt retry ∧ exactWait opt retry ≤ opt.maxRetryBackoff := by
  have hpos := product_pos hb (retry - 1).toNat
  unfold exactWait
  omega

lemma exactWait_mono (hb : 0 < opt.retryBackoff) {retry' : Int} (h : retry ≤ retry') :
    exactWait opt retry ≤ exactWait opt retry' := by
  have hprod := product_mono hb (show (retry - 1).toNat ≤ (retry' - 1).toNat by omega)
  unfold exactWait
  omega

/-- From attempt 65 on, the shift leaves nothing: the loop does not wait at all. -/
theorem retryWait_of_ge (hretry : 65 ≤ retry) (hb : 0 < opt.retryBackoff)
    (hmax : 0 < opt.maxRetryBackoff) : retryWait opt retry = some 0 := by
  obtain ⟨k, hk⟩ : ∃ k, (retry - 1).toNat = 64 + k := ⟨(retry - 1).toNat - 64, by omega⟩
  rw [retryWait_eq (by omega) hb, hk, pow_add, mul_left_comm]
  generalize opt.retryBackoff * 2 ^ k = product
  have hzero : int64 (2 ^ 64 * product) = 0 := by
    unfold int64
    omega
  rw [hzero, min_eq_left hmax.le]

/-- The wait before an attempt is the capped exponential of exact integers exactly when the product
does not wrap, or wraps to a value that is not below the cap. If the product of the last attempt
fits, all waits are positive, at most the cap, and non-decreasing. -/
theorem backoff_capped_exponential (opt : RetryOption) (hb : 0 < opt.retryBackoff)
    (hmax : 0 < opt.maxRetryBackoff) (hmax' : opt.maxRetryBackoff < 2 ^ 63) :
    (∀ retry, 2 ≤ retry → retry ≤ opt.maxRetries →
      (retryWait opt retry = some (exactWait opt retry) ↔
        opt.retryBackoff * 2 ^ (retry - 1).toNat < 2 ^ 63 ∨
        opt.maxRetryBackoff ≤ int64 (opt.retryBackoff * 2 ^ (retry - 1).toNat))) ∧
    (opt.retryBackoff * 2 ^ (opt.maxRetries - 1).toNat < 2 ^ 63 →
      ∀ retry, 2 ≤ retry → retry ≤ opt.maxRetries → ∃ wait, retryWait opt retry = some wait ∧
        wait = exactWait opt retry ∧ 0 < wait ∧ wait ≤ opt.maxRetryBackoff ∧
        ∀ retry' wait', retry ≤ retry' → retry' ≤ opt.maxRetries →
          retryWait opt retry' = some wait' → wait ≤ wait') := by
  refine ⟨fun retry hretry _ => retryWait_exact_iff hretry hb hmax', ?_⟩
  intro hfits retry hretry hle
  have hexact : ∀ r, 2 ≤ r → r ≤ opt.maxRetries → retryWait opt r = some (exactWait opt r) := by
    intro r hr hr'
    have hprod := product_mono hb (show (r - 1).toNat ≤ (opt.maxRetries - 1).toNat by omega)
    exact (retryWait_exact_iff hr hb hmax').mpr (.inl (hprod.trans_lt hfits))
  obtain ⟨hpos, hcap⟩ := exactWait_bounds hb hmax
  refine ⟨exactWait opt retry, hexact retry hretry hle, rfl, hpos, hcap, ?_⟩
  intro retry' wait' hrr hle' hwait'
  rw [hexact retry' (hretry.trans hrr) hle', Option.some.injEq] at hwait'
  rw [← hwait']
  exact exactWait_mono hb hrr

theorem backoff_capped_exponential_default :
    ∃ wait, retryWait defaultRetryOption 2 = some wait ∧ wait = 2 * 10 ^ 8 ∧ wait ≤ 10 ^ 9 := by
  obtain ⟨-, h⟩ := backoff_capped_exponential defaultRetryOption (by decide) (by decide) (by decide)
  obtain ⟨wait, hwait, hexact, -, hcap, -⟩ := h (by decide) 2 (by decide) (by decide)
  exact ⟨wait, hwait, hexact, hcap⟩

/-- With the default base time and cap, the attempt of number 38 does not wait: the product has
become negative. -/
theorem backoff_negative :
    retryWait (newRetryOption [.dialWithMaxRetries 38]) 38 = some (-4702848726509551616) ∧
    exactWait (newRetryOption [.dialWithMaxRetries 38]) 38 = 10 ^ 9 := by
  decide +kernel

end Proofs

end Zrpc
