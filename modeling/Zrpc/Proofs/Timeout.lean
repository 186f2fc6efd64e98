import Zrpc.Lib.Decimal
import Zrpc.Proofs.DecodeSafe

/-!
# Timeouts on the wire

`DecodeTimeout` accepts one to eight digits and a unit, and computes without overflow. What
`EncodeTimeout` writes for a duration is read back as that duration rounded up to the finest unit
in which it has at most eight digits.
-/

namespace Zrpc

open Zrpc.Lib

/-- The letters of the units, with their nanoseconds. -/
def timeoutUnits : List (UInt8 × Int) :=
  [(72, 3600 * 10 ^ 9), (77, 60 * 10 ^ 9), (83, 10 ^ 9), (109, 10 ^ 6), (117, 10 ^ 3), (110, 1)]

namespace Proofs

variable {E : Env}

lemma timeoutUnitToDuration_eq_some {u : UInt8} {unit : Int} :
    timeoutUnitToDuration u = some unit ↔ (u, unit) ∈ timeoutUnits := by
  constructor
  · intro h
    unfold timeoutUnitToDuration at h
    repeat' split at h
    all_goals cases h
    all_goals simp_all [timeoutUnits, hour, minute, second, millisecond, microsecond, nanosecond]
  · intro h
    simp only [timeoutUnits, List.mem_cons, Prod.mk.injEq, List.not_mem_nil, or_false] at h
    obtain ⟨rfl, rfl⟩ | ⟨rfl, rfl⟩ | ⟨rfl, rfl⟩ | ⟨rfl, rfl⟩ | ⟨rfl, rfl⟩ | ⟨rfl, rfl⟩ := h <;> rfl

lemma parseUint_eq_ok {s : GoString} (hs : s.length ≤ 8) {t : Nat} :
    parseUint E s = .ok t ↔ s ≠ [] ∧ (∀ c ∈ s, IsDigit c) ∧ t = decimalValue s := by
  have hany : s.any (fun c => c < 48 || 57 < c) = true ↔ ¬∀ c ∈ s, IsDigit c := by
    simp only [List.any_eq_true, IsDigit]
    push Not
    refine exists_congr fun c => and_congr_right fun _ => ?_
    simp only [Bool.or_eq_true, decide_eq_true_eq, ← UInt8.not_le]
    tauto
  unfold parseUint
  simp only [hany]
  by_cases hc : s = [] ∨ ¬∀ c ∈ s, IsDigit c
  · rw [if_pos hc]
    constructor
    · intro h
      cases h
    · rintro ⟨hne, hall, -⟩
      exact absurd hall (hc.resolve_left hne)
  · rw [if_neg hc]
    rw [not_or, not_not] at hc
    have hlt : decimalValue s < 2 ^ 64 := by
      have h := decimalValue_lt hc.2
      have hpow : 10 ^ s.length ≤ 10 ^ 8 := Nat.pow_le_pow_right (by decide) hs
      omega
    have hfold : s.foldl (fun n c => 10 * n + (c.toNat - 48)) 0 = decimalValue s := rfl
    simp only [hfold, if_pos hlt]
    constructor
    · intro h
      cases h
      exact ⟨hc.1, hc.2, rfl⟩
    · rintro ⟨-, -, rfl⟩
      rfl

/-- The value `DecodeTimeout` returns for a unit and a number of at most eight digits is the
product, cut at the largest `int64`. Only hours can pass it, and they are checked. -/
lemma timeout_product {u : UInt8} {unit : Int} (hu : (u, unit) ∈ timeoutUnits) {t : Nat}
    (ht : t < 10 ^ 8) :
    (if unit = hour ∧ maxHours < t then 2 ^ 63 - 1 else int64 (unit * int64 t)) =
      min (t * unit) (2 ^ 63 - 1) := by
  have hhour : hour = 3600 * 10 ^ 9 := rfl
  have hmax : maxHours = 2562047 := rfl
  have hint : int64 t = t := int64_eq (by omega) (by omega)
  rw [hhour, hmax, hint]
  simp only [timeoutUnits, List.mem_cons, Prod.mk.injEq, List.not_mem_nil, or_false] at hu
  unfold int64
  obtain ⟨-, rfl⟩ | ⟨-, rfl⟩ | ⟨-, rfl⟩ | ⟨-, rfl⟩ | ⟨-, rfl⟩ | ⟨-, rfl⟩ := hu <;> omega

lemma decodeTimeout_of_length {s : GoString} (h : s.length < 2 ∨ 9 < s.length) (d : Int) :
    decodeTimeout E s ≠ .ok d := by
  unfold decodeTimeout
  by_cases h2 : s.length < 2
  · rw [if_pos h2]
    simp [fail, bind, Except.bind]
  · rw [if_neg h2, if_pos (by omega)]
    simp [fail, bind, Except.bind]

/-- `DecodeTimeout` on a string of admissible length, with its index and its slice evaluated. -/
lemma decodeTimeout_append {digits : GoString} {u : UInt8} (hpos : 1 ≤ digits.length)
    (hle : digits.length ≤ 8) :
    decodeTimeout E (digits ++ [u]) =
      match timeoutUnitToDuration u with
      | none => fail (str "timeout unit is not recognized: " ++ E.quote (digits ++ [u]))
      | some unit =>
        match parseUint E digits with
        | .error e => fail e
        | .ok t => .ok (if unit = hour ∧ maxHours < t then 2 ^ 63 - 1
            else int64 (unit * int64 t)) := by
  have hlen : (digits ++ [u]).length = digits.length + 1 := by simp
  have hi : index (digits ++ [u]) digits.length = .ok u := by
    unfold index
    simp
  have hs : slice (digits ++ [u]) 0 digits.length = .ok digits := by
    unfold slice
    simp
  unfold decodeTimeout
  simp only [hlen]
  rw [if_neg (by omega), if_neg (by omega), Nat.add_sub_cancel, hi, hs]
  simp only [bind, Except.bind, pure, Except.pure]
  cases timeoutUnitToDuration u with
  | none => rfl
  | some unit =>
    cases parseUint E digits with
    | error e => rfl
    | ok t => exact (apply_ite Except.ok _ _ _).symm

lemma decodeTimeout_eq_ok {s : GoString} {d : Int} :
    decodeTimeout E s = .ok d ↔ ∃ (digits : GoString) (u : UInt8) (unit : Int),
      s = digits ++ [u] ∧ 1 ≤ digits.length ∧ digits.length ≤ 8 ∧ (∀ c ∈ digits, IsDigit c) ∧
        (u, unit) ∈ timeoutUnits ∧ d = min (decimalValue digits * unit) (2 ^ 63 - 1) := by
  constructor
  · intro h
    have hlen : ¬(s.length < 2 ∨ 9 < s.length) := fun hl => decodeTimeout_of_length hl d h
    obtain ⟨digits, u, rfl⟩ : ∃ digits u, s = digits ++ [u] :=
      ⟨s.dropLast, s.getLast (by rintro rfl; simp at hlen), (List.dropLast_append_getLast _).symm⟩
    rw [List.length_append, List.length_singleton] at hlen
    have hpos : 1 ≤ digits.length := by omega
    have hle : digits.length ≤ 8 := by omega
    rw [decodeTimeout_append hpos hle] at h
    cases hu : timeoutUnitToDuration u with
    | none =>
      rw [hu] at h
      cases h
    | some unit =>
      cases hp : parseUint E digits with
      | error e =>
        rw [hu, hp] at h
        cases h
      | ok t =>
        rw [hu, hp] at h
        obtain ⟨-, hdigits, rfl⟩ := (parseUint_eq_ok hle).mp hp
        have hmem := timeoutUnitToDuration_eq_some.mp hu
        have hlt : decimalValue digits < 10 ^ 8 :=
          (decimalValue_lt hdigits).trans_le (Nat.pow_le_pow_right (by decide) hle)
        have hd := Except.ok.inj h
        rw [timeout_product hmem hlt] at hd
        exact ⟨digits, u, unit, rfl, hpos, hle, hdigits, hmem, hd.symm⟩
  · rintro ⟨digits, u, unit, rfl, hpos, hle, hdigits, hmem, rfl⟩
    have hlt : decimalValue digits < 10 ^ 8 :=
      (decimalValue_lt hdigits).trans_le (Nat.pow_le_pow_right (by decide) hle)
    have hne : digits ≠ [] := List.ne_nil_of_length_pos hpos
    rw [decodeTimeout_append hpos hle, timeoutUnitToDuration_eq_some.mpr hmem,
      (parseUint_eq_ok hle).mpr ⟨hne, hdigits, rfl⟩]
    exact congrArg Except.ok (timeout_product hmem hlt)

lemma timeoutUnits_pos {u : UInt8} {unit : Int} (hu : (u, unit) ∈ timeoutUnits) : 0 < unit := by
  simp only [timeoutUnits, List.mem_cons, Prod.mk.injEq, List.not_mem_nil, or_false] at hu
  omega

/-- `DecodeTimeout` accepts one to eight decimal digits followed by a unit, and nothing else. Its
result is the exact product cut at the largest `int64`. -/
theorem decodeTimeout_grammar (E : Env) (s : GoString) :
    (∀ d, decodeTimeout E s = .ok d ↔ ∃ (digits : GoString) (u : UInt8) (unit : Int),
      s = digits ++ [u] ∧ 1 ≤ digits.length ∧ digits.length ≤ 8 ∧ (∀ c ∈ digits, IsDigit c) ∧
        (u, unit) ∈ timeoutUnits ∧ d = min (decimalValue digits * unit) (2 ^ 63 - 1)) ∧
    (∀ d, decodeTimeout E s = .ok d → 0 ≤ d ∧ d < 2 ^ 63) ∧
    decodeTimeout E s ≠ .error .panic := by
  refine ⟨fun d => decodeTimeout_eq_ok, ?_, ?_⟩
  · intro d h
    obtain ⟨digits, u, unit, -, -, -, -, hu, rfl⟩ := decodeTimeout_eq_ok.mp h
    have hprod : 0 ≤ (decimalValue digits : Int) * unit :=
      mul_nonneg (Int.natCast_nonneg _) (timeoutUnits_pos hu).le
    omega
  · exact (safe_decodeTimeout E s).ne_panic

/-! ## Encoding and decoding -/

/-- The shortest unit in which a duration is written with at most eight digits, or the hour. -/
def timeoutUnitOf (t : Int) : UInt8 × Int :=
  if t ≤ 99999999 then (110, 1)
  else if t ≤ 99999999 * 10 ^ 3 then (117, 10 ^ 3)
  else if t ≤ 99999999 * 10 ^ 6 then (109, 10 ^ 6)
  else if t ≤ 99999999 * 10 ^ 9 then (83, 10 ^ 9)
  else if t ≤ 99999999 * (60 * 10 ^ 9) then (77, 60 * 10 ^ 9)
  else (72, 3600 * 10 ^ 9)

/-- How many units a duration takes, rounded up. -/
def timeoutCount (t : Int) : Int :=
  (t + (timeoutUnitOf t).2 - 1) / (timeoutUnitOf t).2

/-- The duration a peer reads from the header written for `t`. -/
def propagatedTimeout (t : Int) : Int :=
  if t ≤ 0 then 0 else min (timeoutCount t * (timeoutUnitOf t).2) (2 ^ 63 - 1)

/-- Six copies of one argument: the sum in `div` does not wrap, and the quotient is rounded up. -/
lemma div_eq {t unit : Int} (ht : 0 < t) (hlt : t < 2 ^ 63) {u : UInt8}
    (hu : (u, unit) ∈ timeoutUnits) : div t unit = (t + unit - 1) / unit := by
  have hmod : t.tmod unit = t % unit := Int.tmod_eq_emod_of_nonneg ht.le
  have hdiv : t.tdiv unit = t / unit := Int.tdiv_eq_ediv_of_nonneg ht.le
  unfold div
  rw [hmod, hdiv]
  unfold int64
  simp only [timeoutUnits, List.mem_cons, Prod.mk.injEq, List.not_mem_nil, or_false] at hu
  obtain ⟨-, rfl⟩ | ⟨-, rfl⟩ | ⟨-, rfl⟩ | ⟨-, rfl⟩ | ⟨-, rfl⟩ | ⟨-, rfl⟩ := hu <;> omega

lemma str_toString {z : Int} (hz : 0 ≤ z) : str (toString z) = decimalBytes z.toNat := by
  obtain ⟨n, rfl⟩ := Int.eq_ofNat_of_zero_le hz
  rfl

/-- A number of units is written with at most eight digits when the duration is short enough. -/
lemma div_le_max {t unit : Int} (ht : 0 < t) (hlt : t < 2 ^ 63) {u : UInt8}
    (hu : (u, unit) ∈ timeoutUnits) : div t unit ≤ maxTimeoutValue ↔ t ≤ 99999999 * unit := by
  have hmax : maxTimeoutValue + 1 = 10 ^ 8 := rfl
  rw [div_eq ht hlt hu, ← Int.lt_add_one_iff, hmax, Int.ediv_lt_iff_lt_mul (timeoutUnits_pos hu)]
  omega

lemma div_nonneg {t unit : Int} (ht : 0 < t) (hlt : t < 2 ^ 63) {u : UInt8}
    (hu : (u, unit) ∈ timeoutUnits) : 0 ≤ div t unit := by
  have hpos := timeoutUnits_pos hu
  rw [div_eq ht hlt hu]
  exact Int.ediv_nonneg (by omega) hpos.le

/-- One branch of `EncodeTimeout`. -/
lemma encodeTimeout_branch {t unit : Int} (ht : 0 < t) (hlt : t < 2 ^ 63) {u : UInt8}
    (hu : (u, unit) ∈ timeoutUnits) :
    str (toString (div t unit)) ++ [u] = decimalBytes ((t + unit - 1) / unit).toNat ++ [u] := by
  rw [str_toString (div_nonneg ht hlt hu), div_eq ht hlt hu]

lemma encodeTimeout_eq {t : Int} (ht : 0 < t) (hlt : t < 2 ^ 63) :
    encodeTimeout t = decimalBytes (timeoutCount t).toNat ++ [(timeoutUnitOf t).1] := by
  have hn : (110, nanosecond) ∈ timeoutUnits := by decide
  have hu : (117, microsecond) ∈ timeoutUnits := by decide
  have hm : (109, millisecond) ∈ timeoutUnits := by decide
  have hS : (83, second) ∈ timeoutUnits := by decide
  have hM : (77, minute) ∈ timeoutUnits := by decide
  have hH : (72, hour) ∈ timeoutUnits := by decide
  unfold encodeTimeout timeoutCount timeoutUnitOf
  simp only [if_neg ht.not_ge, div_le_max ht hlt hn, div_le_max ht hlt hu, div_le_max ht hlt hm,
    div_le_max ht hlt hS, div_le_max ht hlt hM]
  by_cases h₁ : t ≤ 99999999
  · rw [if_pos (show t ≤ 99999999 * nanosecond from h₁), if_pos h₁]
    exact encodeTimeout_branch ht hlt hn
  rw [if_neg (show ¬t ≤ 99999999 * nanosecond from h₁), if_neg h₁]
  by_cases h₂ : t ≤ 99999999 * 10 ^ 3
  · rw [if_pos (show t ≤ 99999999 * microsecond from h₂), if_pos h₂]
    exact encodeTimeout_branch ht hlt hu
  rw [if_neg (show ¬t ≤ 99999999 * microsecond from h₂), if_neg h₂]
  by_cases h₃ : t ≤ 99999999 * 10 ^ 6
  · rw [if_pos (show t ≤ 99999999 * millisecond from h₃), if_pos h₃]
    exact encodeTimeout_branch ht hlt hm
  rw [if_neg (show ¬t ≤ 99999999 * millisecond from h₃), if_neg h₃]
  by_cases h₄ : t ≤ 99999999 * 10 ^ 9
  · rw [if_pos (show t ≤ 99999999 * second from h₄), if_pos h₄]
    exact encodeTimeout_branch ht hlt hS
  rw [if_neg (show ¬t ≤ 99999999 * second from h₄), if_neg h₄]
  by_cases h₅ : t ≤ 99999999 * (60 * 10 ^ 9)
  · rw [if_pos (show t ≤ 99999999 * minute from h₅), if_pos h₅]
    exact encodeTimeout_branch ht hlt hM
  rw [if_neg (show ¬t ≤ 99999999 * minute from h₅), if_neg h₅]
  exact encodeTimeout_branch ht hlt hH

lemma timeoutUnitOf_mem (t : Int) :
    ((timeoutUnitOf t).1, (timeoutUnitOf t).2) ∈ timeoutUnits := by
  unfold timeoutUnitOf
  split_ifs <;> decide

/-- The number of units has at most eight digits, and is the quotient rounded up. -/
lemma timeoutCount_spec {t : Int} (ht : 0 < t) (hlt : t < 2 ^ 63) :
    0 < timeoutCount t ∧ timeoutCount t < 10 ^ 8 ∧ t ≤ timeoutCount t * (timeoutUnitOf t).2 ∧
      timeoutCount t * (timeoutUnitOf t).2 < t + (timeoutUnitOf t).2 := by
  unfold timeoutCount timeoutUnitOf
  split_ifs <;> dsimp only <;> omega

theorem decodeTimeout_encodeTimeout (E : Env) {t : Int} (hlt : t < 2 ^ 63) :
    decodeTimeout E (encodeTimeout t) = .ok (propagatedTimeout t) := by
  unfold propagatedTimeout
  by_cases ht : t ≤ 0
  · rw [if_pos ht, decodeTimeout_eq_ok]
    unfold encodeTimeout
    rw [if_pos ht]
    have hdigit : ∀ c ∈ ([48] : GoString), IsDigit c := List.forall_mem_singleton.mpr (by decide)
    exact ⟨[48], 110, 1, rfl, by decide, by decide, hdigit, by decide, rfl⟩
  · rw [not_le] at ht
    obtain ⟨hpos, hcount, -⟩ := timeoutCount_spec ht hlt
    have hlen : (decimalBytes (timeoutCount t).toNat).length ≤ 8 :=
      length_decimalBytes_le (by decide) (by omega)
    have hne := List.length_pos_iff.mpr (decimalBytes_ne_nil (timeoutCount t).toNat)
    rw [if_neg ht.not_ge, decodeTimeout_eq_ok, encodeTimeout_eq ht hlt]
    refine ⟨_, _, _, rfl, hne, hlen, isDigit_of_mem_decimalBytes, timeoutUnitOf_mem t, ?_⟩
    rw [decimalValue_decimalBytes, Int.toNat_of_nonneg hpos.le]

lemma propagatedTimeout_of_nonpos {t : Int} (ht : t ≤ 0) : propagatedTimeout t = 0 := if_pos ht

lemma propagatedTimeout_of_pos {t : Int} (ht : 0 < t) :
    propagatedTimeout t = min (timeoutCount t * (timeoutUnitOf t).2) (2 ^ 63 - 1) :=
  if_neg ht.not_ge

lemma le_propagatedTimeout {t : Int} (hlt : t < 2 ^ 63) : max t 0 ≤ propagatedTimeout t := by
  by_cases ht : t ≤ 0
  · rw [propagatedTimeout_of_nonpos ht]
    omega
  · have h := timeoutCount_spec (not_le.mp ht) hlt
    rw [propagatedTimeout_of_pos (not_le.mp ht)]
    omega

lemma timeoutUnitOf_step {t t' : Int} (htt : t ≤ t') (hne : timeoutUnitOf t ≠ timeoutUnitOf t') :
    t ≤ 99999999 * (timeoutUnitOf t).2 ∧ 99999999 * (timeoutUnitOf t).2 < t' := by
  revert hne
  unfold timeoutUnitOf
  split_ifs <;> first | exact fun h => absurd rfl h | (intro _; dsimp only; omega)

/-- A duration that is written in a longer unit than another one is longer than what a peer reads
for that other one. -/
lemma propagatedTimeout_lt_of_unit {t t' : Int} (ht : 0 < t) (htt : t ≤ t')
    (hunit : timeoutUnitOf t ≠ timeoutUnitOf t') : propagatedTimeout t < t' := by
  have hpos : 0 < (timeoutUnitOf t).2 := timeoutUnits_pos (timeoutUnitOf_mem t)
  obtain ⟨hle, hlt⟩ := timeoutUnitOf_step htt hunit
  have hcount : timeoutCount t ≤ 99999999 := by
    unfold timeoutCount
    rw [← Int.lt_add_one_iff, Int.ediv_lt_iff_lt_mul hpos]
    omega
  have hprod := Int.mul_le_mul_of_nonneg_right hcount hpos.le
  rw [propagatedTimeout_of_pos ht]
  omega

theorem propagatedTimeout_mono {t t' : Int} (htt : t ≤ t') (hlt : t' < 2 ^ 63) :
    propagatedTimeout t ≤ propagatedTimeout t' := by
  have hself := le_propagatedTimeout hlt
  by_cases ht : t ≤ 0
  · rw [propagatedTimeout_of_nonpos ht]
    omega
  rw [not_le] at ht
  by_cases hunit : timeoutUnitOf t = timeoutUnitOf t'
  · have hpos : 0 < (timeoutUnitOf t').2 := timeoutUnits_pos (timeoutUnitOf_mem t')
    have hcount : timeoutCount t ≤ timeoutCount t' := by
      unfold timeoutCount
      rw [hunit]
      exact Int.ediv_le_ediv hpos (by omega)
    have hprod := Int.mul_le_mul_of_nonneg_right hcount hpos.le
    rw [propagatedTimeout_of_pos ht, propagatedTimeout_of_pos (ht.trans_le htt), hunit]
    omega
  · have h := propagatedTimeout_lt_of_unit ht htt hunit
    omega

/-- The hour is the only unit whose product with eight digits can pass the largest `int64`. -/
lemma product_lt {u : UInt8} {unit : Int} (hu : (u, unit) ∈ timeoutUnits) (value : Nat)
    (hvalue : value < 10 ^ 8) (hhour : unit = hour → (value : Int) ≤ maxHours) :
    value * unit < 2 ^ 63 := by
  have hmax : maxHours = 2562047 := rfl
  have h : hour = 3600 * 10 ^ 9 := rfl
  rw [hmax, h] at hhour
  simp only [timeoutUnits, List.mem_cons, Prod.mk.injEq, List.not_mem_nil, or_false] at hu
  obtain ⟨-, rfl⟩ | ⟨-, rfl⟩ | ⟨-, rfl⟩ | ⟨-, rfl⟩ | ⟨-, rfl⟩ | ⟨-, rfl⟩ := hu <;> omega

/-- The sum in `div` does not wrap: where a remainder is left, the unit is longer than a
nanosecond, and the quotient is at most half of the duration. -/
lemma int64_div_add_one {u : UInt8} {unit : Int} (hu : (u, unit) ∈ timeoutUnits) {t : Int}
    (hlt : t < 2 ^ 63) (hmod : 0 < t.tmod unit) :
    int64 (t.tdiv unit + 1) = t.tdiv unit + 1 := by
  have ht : 0 < t := by
    by_contra hneg
    have h := Int.tmod_nonneg unit (show 0 ≤ -t by omega)
    rw [Int.neg_tmod] at h
    omega
  rw [Int.tmod_eq_emod_of_nonneg ht.le] at hmod
  rw [Int.tdiv_eq_ediv_of_nonneg ht.le]
  unfold int64
  simp only [timeoutUnits, List.mem_cons, Prod.mk.injEq, List.not_mem_nil, or_false] at hu
  obtain ⟨-, rfl⟩ | ⟨-, rfl⟩ | ⟨-, rfl⟩ | ⟨-, rfl⟩ | ⟨-, rfl⟩ | ⟨-, rfl⟩ := hu <;> omega

/-- What a peer reads from the header written for a duration: never less than the duration, less
than one unit more, the duration itself up to eight digits of nanoseconds, and a monotone function
of it. No sum of the encoder and no product of the decoder wraps. -/
theorem timeout_never_shortened (E : Env) : ∃ d : Int → Int,
    (∀ t : Int, -2 ^ 63 ≤ t → t < 2 ^ 63 →
      decodeTimeout E (encodeTimeout t) = .ok (d t) ∧ max t 0 ≤ d t ∧ (t ≤ 0 → d t = 0) ∧
      (0 < t → t ≤ 99999999 → d t = t) ∧
      (0 < t → ∃ (value : Nat) (u : UInt8) (unit : Int),
        encodeTimeout t = decimalBytes value ++ [u] ∧ (u, unit) ∈ timeoutUnits ∧
        value < 10 ^ 8 ∧ d t - t < unit ∧ d t = min (value * unit) (2 ^ 63 - 1) ∧
        (2 ^ 63 ≤ value * unit → unit = hour))) ∧
    (∀ t t' : Int, -2 ^ 63 ≤ t → t ≤ t' → t' < 2 ^ 63 → d t ≤ d t') ∧
    (∀ (u : UInt8) (unit t : Int), (u, unit) ∈ timeoutUnits → -2 ^ 63 ≤ t → t < 2 ^ 63 →
      0 < t.tmod unit → int64 (t.tdiv unit + 1) = t.tdiv unit + 1) ∧
    (∀ (u : UInt8) (unit : Int) (value : Nat), (u, unit) ∈ timeoutUnits → value < 10 ^ 8 →
      ¬(unit = hour ∧ maxHours < value) → int64 (unit * int64 value) = unit * value) := by
  refine ⟨propagatedTimeout, ?_, ?_, ?_, ?_⟩
  · intro t _ hlt
    refine ⟨decodeTimeout_encodeTimeout E hlt, le_propagatedTimeout hlt,
      propagatedTimeout_of_nonpos, ?_, ?_⟩
    · intro ht hsmall
      have hunit : timeoutUnitOf t = (110, 1) := if_pos hsmall
      have h := timeoutCount_spec ht hlt
      rw [hunit] at h
      rw [propagatedTimeout_of_pos ht, hunit]
      omega
    · intro ht
      obtain ⟨hpos, hcount, -, hlast⟩ := timeoutCount_spec ht hlt
      have hmem := timeoutUnitOf_mem t
      have hnat : ((timeoutCount t).toNat : Int) = timeoutCount t := Int.toNat_of_nonneg hpos.le
      refine ⟨(timeoutCount t).toNat, (timeoutUnitOf t).1, (timeoutUnitOf t).2,
        encodeTimeout_eq ht hlt, hmem, by omega, ?_, ?_, ?_⟩
      · rw [propagatedTimeout_of_pos ht]
        omega
      · rw [propagatedTimeout_of_pos ht, hnat]
      · intro hbig
        by_contra hne
        have h := product_lt hmem (timeoutCount t).toNat (by omega)
          (fun hh => absurd hh hne)
        omega
  · intro t t' _ htt hlt
    exact propagatedTimeout_mono htt hlt
  · intro u unit t hu _ hlt hmod
    exact int64_div_add_one hu hlt hmod
  · intro u unit value hu hvalue hhour
    have hprod := product_lt hu value hvalue fun hh => not_lt.mp fun hm => hhour ⟨hh, hm⟩
    have hnonneg := mul_nonneg (Int.natCast_nonneg value) (timeoutUnits_pos hu).le
    rw [mul_comm] at hprod hnonneg
    rw [int64_eq (by omega) (by omega : (value : Int) < 2 ^ 63), int64_eq (by omega) hprod]

end Proofs

end Zrpc
