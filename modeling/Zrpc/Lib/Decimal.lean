import Mathlib.Algebra.Order.Ring.Nat
import Mathlib.Data.List.Induction

/-!
# Decimal numbers as bytes

The ASCII text of a number, and the number that a text of digits stands for.
-/

namespace Zrpc.Lib

def IsDigit (c : UInt8) : Prop := 48 ≤ c ∧ c ≤ 57

instance (c : UInt8) : Decidable (IsDigit c) := instDecidableAnd

/-- The value of a text of digits. -/
def decimalValue (s : List UInt8) : Nat := s.foldl (fun n c => 10 * n + (c.toNat - 48)) 0

/-- The text of a number, without leading zeros. -/
def decimalBytes (n : Nat) : List UInt8 := (toString n).toUTF8.data.toList

lemma decimalValue_append_singleton (s : List UInt8) (c : UInt8) :
    decimalValue (s ++ [c]) = 10 * decimalValue s + (c.toNat - 48) := by
  rw [decimalValue, List.foldl_append]
  rfl

lemma decimalValue_lt {s : List UInt8} (hs : ∀ c ∈ s, IsDigit c) :
    decimalValue s < 10 ^ s.length := by
  induction s using List.reverseRecOn with
  | nil => decide
  | append_singleton s c ih =>
    have hlt := ih fun d hd => hs d (List.mem_append_left _ hd)
    have hc : c.toNat ≤ 57 := (hs c (by simp)).2
    rw [decimalValue_append_singleton, List.length_append, List.length_singleton, pow_succ]
    omega

lemma decimalBytes_eq (n : Nat) :
    decimalBytes n = (Nat.toDigits 10 n).flatMap String.utf8EncodeChar := by
  have hrepr : toString n = String.ofList (Nat.toDigits 10 n) := Nat.toString_eq_ofList_toDigits
  rw [decimalBytes, hrepr]
  change ((Nat.toDigits 10 n).flatMap String.utf8EncodeChar).toByteArray.data.toList = _
  rw [List.data_toByteArray]

lemma decimalBytes_of_lt {n : Nat} (hn : n < 10) : decimalBytes n = [UInt8.ofNat (48 + n)] := by
  rw [decimalBytes_eq, Nat.toDigits_of_lt_base hn]
  revert n
  decide

lemma decimalBytes_of_le {n : Nat} (hn : 10 ≤ n) :
    decimalBytes n = decimalBytes (n / 10) ++ [UInt8.ofNat (48 + n % 10)] := by
  have hlast := decimalBytes_of_lt (Nat.mod_lt n (by decide : 0 < 10))
  rw [decimalBytes_eq, Nat.toDigits_of_lt_base (Nat.mod_lt n (by decide))] at hlast
  rw [decimalBytes_eq, decimalBytes_eq, Nat.toDigits_of_base_le (by decide) hn,
    List.flatMap_append, hlast]

lemma toNat_digit {d : Nat} (hd : d < 10) : (UInt8.ofNat (48 + d)).toNat = 48 + d := by
  rw [UInt8.toNat_ofNat']
  omega

lemma isDigit_digit {d : Nat} (hd : d < 10) : IsDigit (UInt8.ofNat (48 + d)) := by
  have hnat := toNat_digit hd
  refine ⟨UInt8.le_iff_toNat_le.mpr ?_, UInt8.le_iff_toNat_le.mpr ?_⟩ <;> rw [hnat]
  · change 48 ≤ 48 + d
    omega
  · change 48 + d ≤ 57
    omega

theorem decimalValue_decimalBytes (n : Nat) : decimalValue (decimalBytes n) = n := by
  induction n using Nat.strong_induction_on with
  | _ n ih =>
    by_cases hn : n < 10
    · rw [decimalBytes_of_lt hn]
      change 10 * 0 + ((UInt8.ofNat (48 + n)).toNat - 48) = n
      rw [toNat_digit hn]
      omega
    · rw [decimalBytes_of_le (by omega), decimalValue_append_singleton, ih (n / 10) (by omega),
        toNat_digit (Nat.mod_lt n (by decide))]
      omega

lemma isDigit_of_mem_decimalBytes {n : Nat} : ∀ c ∈ decimalBytes n, IsDigit c := by
  induction n using Nat.strong_induction_on with
  | _ n ih =>
    by_cases hn : n < 10
    · rw [decimalBytes_of_lt hn]
      intro c hc
      rw [List.mem_singleton.mp hc]
      exact isDigit_digit hn
    · rw [decimalBytes_of_le (by omega)]
      intro c hc
      obtain hc | hc := List.mem_append.mp hc
      · exact ih (n / 10) (by omega) c hc
      · rw [List.mem_singleton.mp hc]
        exact isDigit_digit (Nat.mod_lt n (by decide))

lemma decimalBytes_ne_nil (n : Nat) : decimalBytes n ≠ [] := by
  by_cases hn : n < 10
  · rw [decimalBytes_of_lt hn]
    exact List.cons_ne_nil _ _
  · rw [decimalBytes_of_le (by omega)]
    exact List.append_ne_nil_of_right_ne_nil _ (List.cons_ne_nil _ _)

lemma length_decimalBytes_le {n k : Nat} (hk : 0 < k) (hn : n < 10 ^ k) :
    (decimalBytes n).length ≤ k := by
  induction k generalizing n with
  | zero => exact absurd hk (lt_irrefl 0)
  | succ k ih =>
    by_cases hten : n < 10
    · rw [decimalBytes_of_lt hten]
      exact Nat.succ_le_succ (Nat.zero_le k)
    · have hk' : 0 < k := by
        by_contra hzero
        rw [show k = 0 by omega] at hn
        omega
      have hle := ih hk' (n := n / 10) (by rw [pow_succ] at hn; omega)
      rw [decimalBytes_of_le (by omega), List.length_append, List.length_singleton]
      omega

end Zrpc.Lib
