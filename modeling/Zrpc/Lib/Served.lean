import Mathlib.Data.List.Flatten
import Mathlib.Data.List.Perm.Subperm
import Mathlib.Data.List.Range

/-!
# Serving the entries of a list in some order

The entries of a list are served one by one, in an order that the scheduler chooses, and each yields
a list of outputs. `handOut f l i` is what serving entry `i` of `l` yields. If no entry is served
twice, the outputs are among those of serving `l` from front to back; if every entry is served,
they are those outputs in another order.
-/

namespace Zrpc.Lib

universe u v
variable {α : Type u} {β : Type v}

def handOut (f : α → List β) (l : List α) (i : Nat) : List β :=
  match l[i]? with
  | some a => f a
  | none => []

lemma handOut_of_getElem? {f : α → List β} {l : List α} {i : Nat} {a : α} (h : l[i]? = some a) :
    handOut f l i = f a := by
  simp only [handOut, h]

lemma handOut_append {f : α → List β} {l : List α} {i : Nat} (h : i < l.length) (m : List α) :
    handOut f (l ++ m) i = handOut f l i := by
  simp only [handOut, List.getElem?_append_left h]

lemma flatMap_handOut_append {f : α → List β} {l : List α} {order : List Nat}
    (h : ∀ i ∈ order, i < l.length) (m : List α) :
    order.flatMap (handOut f (l ++ m)) = order.flatMap (handOut f l) := by
  induction order with
  | nil => rfl
  | cons i order ih =>
    rw [List.flatMap_cons, List.flatMap_cons, handOut_append (h i List.mem_cons_self),
      ih (fun j hj => h j (List.mem_cons_of_mem _ hj))]

lemma flatMap_handOut_range (f : α → List β) (l : List α) :
    (List.range l.length).flatMap (handOut f l) = l.flatMap f := by
  induction l using List.reverseRecOn with
  | nil => rfl
  | append_singleton l a ih =>
    have hold : (List.range l.length).flatMap (handOut f (l ++ [a])) = l.flatMap f := by
      rw [flatMap_handOut_append (fun i hi => List.mem_range.mp hi), ih]
    have hnew : handOut f (l ++ [a]) l.length = f a := handOut_of_getElem? (by simp)
    rw [List.length_append, List.length_singleton, List.range_succ, List.flatMap_append, hold,
      List.flatMap_append, List.flatMap_singleton, List.flatMap_singleton, hnew]

theorem flatMap_handOut_subperm (f : α → List β) {l : List α} {order : List Nat}
    (hnodup : order.Nodup) (hlt : ∀ i ∈ order, i < l.length) :
    (order.flatMap (handOut f l)).Subperm (l.flatMap f) := by
  have hsub : order.Subperm (List.range l.length) :=
    List.subperm_of_subset hnodup (fun i hi => List.mem_range.mpr (hlt i hi))
  obtain ⟨order', hperm, hle⟩ := hsub
  rw [← flatMap_handOut_range f l]
  exact ⟨order'.flatMap (handOut f l), hperm.flatMap_right _, hle.flatMap _⟩

theorem flatMap_handOut_perm (f : α → List β) {l : List α} {order : List Nat}
    (hnodup : order.Nodup) (hmem : ∀ i, i ∈ order ↔ i < l.length) :
    (order.flatMap (handOut f l)).Perm (l.flatMap f) := by
  have hperm : order.Perm (List.range l.length) := by
    rw [List.perm_ext_iff_of_nodup hnodup List.nodup_range]
    intro i
    rw [hmem, List.mem_range]
  rw [← flatMap_handOut_range f l]
  exact hperm.flatMap_right _

lemma subperm_map (f : α → β) {l m : List α} (h : l.Subperm m) : (l.map f).Subperm (m.map f) := by
  obtain ⟨l', hperm, hsub⟩ := h
  exact ⟨l'.map f, hperm.map f, hsub.map f⟩

lemma set_of_getElem? {l : List α} {i : Nat} {a : α} (h : l[i]? = some a) : l.set i a = l := by
  obtain ⟨hlt, rfl⟩ := List.getElem?_eq_some_iff.mp h
  exact List.set_getElem_self hlt

/-- One party's contribution changes; the contributions of the others stay. -/
theorem flatMap_set_perm (f : α → List β) {l : List α} {i : Nat} {a : α} (h : l[i]? = some a)
    (b : α) : (f a ++ (l.set i b).flatMap f).Perm (f b ++ l.flatMap f) := by
  have hswap : ∀ p q r : List β, (p ++ (q ++ r)).Perm (q ++ (p ++ r)) := by
    intro p q r
    rw [← List.append_assoc, ← List.append_assoc]
    exact List.perm_append_comm.append_right _
  induction l generalizing i with
  | nil => cases h
  | cons x l ih =>
    cases i with
    | zero =>
      cases h
      rw [List.set_cons_zero, List.flatMap_cons, List.flatMap_cons]
      exact hswap _ _ _
    | succ i =>
      rw [List.set_cons_succ, List.flatMap_cons, List.flatMap_cons]
      exact ((hswap _ _ _).trans ((ih h).append_left _)).trans (hswap _ _ _)

end Zrpc.Lib
