import Mathlib.Algebra.BigOperators.Group.List.Basic
import Mathlib.Algebra.Order.Ring.Nat

/-!
# Sums over the parts of a state

A resource that several parts of a state may hold is counted by a sum over the list of the parts;
the share of a part may depend on its index. A step that changes one part changes the sum by the
difference of that part's share.
-/

namespace Zrpc.Lib

universe u
variable {α : Type u}

def tally (f : Nat → α → Nat) (l : List α) : Nat := (l.mapIdx f).sum

@[simp] lemma tally_nil (f : Nat → α → Nat) : tally f [] = 0 := rfl

@[simp] lemma tally_cons (f : Nat → α → Nat) (x : α) (l : List α) :
    tally f (x :: l) = f 0 x + tally (fun i => f (i + 1)) l := by
  simp [tally]

lemma tally_const (f : α → Nat) (l : List α) :
    tally (fun _ => f) l = (l.map f).sum := by
  induction l with
  | nil => rfl
  | cons x l ih => rw [tally_cons, ih, List.map_cons, List.sum_cons]

lemma tally_countP (P : α → Bool) (l : List α) :
    tally (fun _ x => if P x = true then 1 else 0) l = l.countP P := by
  induction l with
  | nil => rfl
  | cons x l ih =>
    rw [tally_cons, ih, List.countP_cons]
    omega

lemma tally_mono {f g : Nat → α → Nat} (h : ∀ i x, f i x ≤ g i x) (l : List α) :
    tally f l ≤ tally g l := by
  induction l generalizing f g with
  | nil => exact Nat.le_refl _
  | cons x l ih =>
    rw [tally_cons, tally_cons]
    exact Nat.add_le_add (h 0 x) (ih (fun i => h (i + 1)))

lemma tally_append (f : Nat → α → Nat) (l m : List α) :
    tally f (l ++ m) = tally f l + tally (fun i => f (i + l.length)) m := by
  simp [tally, List.mapIdx_append]

lemma tally_modify {f : Nat → α → Nat} {l : List α} {i : Nat} {x : α} (h : l[i]? = some x)
    (g : α → α) : tally f (l.modify i g) + f i x = tally f l + f i (g x) := by
  induction l generalizing i f with
  | nil => simp at h
  | cons y l ih =>
    cases i with
    | zero =>
      cases h
      simp only [List.modify_zero_cons, tally_cons]
      omega
    | succ i =>
      have hi := ih (f := fun j => f (j + 1)) h
      simp only [List.modify_succ_cons, tally_cons]
      omega

lemma modify_of_none {l : List α} {i : Nat} (h : l[i]? = none) (g : α → α) : l.modify i g = l := by
  rw [List.modify_eq_set_getElem?, h]
  rfl

lemma tally_set {f : Nat → α → Nat} {l : List α} {i : Nat} {x : α} (h : l[i]? = some x) (y : α) :
    tally f (l.set i y) + f i x = tally f l + f i y := by
  have hm := tally_modify (f := f) h (fun _ => y)
  rwa [List.modify_eq_set_getElem?, h] at hm

lemma le_tally {f : Nat → α → Nat} {l : List α} {i : Nat} {x : α} (h : l[i]? = some x) :
    f i x ≤ tally f l := by
  induction l generalizing i f with
  | nil => simp at h
  | cons y l ih =>
    cases i with
    | zero =>
      cases h
      simp
    | succ i =>
      have hi := ih (f := fun j => f (j + 1)) h
      simp only [tally_cons]
      omega

/-- Two different parts hold no more than all of them. -/
lemma add_le_tally {f : Nat → α → Nat} {l : List α} {i j : Nat} {x y : α} (hi : l[i]? = some x)
    (hj : l[j]? = some y) (hne : i ≠ j) : f i x + f j y ≤ tally f l := by
  induction l generalizing i j f with
  | nil => simp at hi
  | cons z l ih =>
    cases i with
    | zero =>
      cases j with
      | zero => exact absurd rfl hne
      | succ j =>
        cases hi
        have hle := le_tally (f := fun j => f (j + 1)) (l := l) hj
        simp only [tally_cons]
        omega
    | succ i =>
      cases j with
      | zero =>
        cases hj
        have hle := le_tally (f := fun j => f (j + 1)) (l := l) hi
        simp only [tally_cons]
        omega
      | succ j =>
        have hle := ih (f := fun j => f (j + 1)) hi hj (fun he => hne (by rw [he]))
        simp only [tally_cons]
        omega

lemma exists_of_tally_pos {f : Nat → α → Nat} {l : List α} (h : 0 < tally f l) :
    ∃ i x, l[i]? = some x ∧ 0 < f i x := by
  induction l generalizing f with
  | nil => simp at h
  | cons y l ih =>
    rw [tally_cons] at h
    by_cases hy : 0 < f 0 y
    · exact ⟨0, y, rfl, hy⟩
    · have hl : 0 < tally (fun i => f (i + 1)) l := by omega
      obtain ⟨i, x, hi, hx⟩ := ih hl
      exact ⟨i + 1, x, hi, hx⟩

end Zrpc.Lib
