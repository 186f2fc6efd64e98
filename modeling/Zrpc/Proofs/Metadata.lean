import Zrpc.Message

/-!
# Metadata as a map

`values_appendAll` says what a sequence of `Append` calls leaves under each key, in terms of the
entries alone. Maps without empty value lists are determined by their values.
-/

namespace Zrpc.Proofs

/-- No key is present without values. -/
def Proper (md : MD) : Prop := ∀ k, md.lookup k ≠ some []

lemma lookup_push (md : MD) (k k' : GoString) (vs : List GoString) :
    (md.push k vs).lookup k' = if k = k' then some (md.values k ++ vs) else md.lookup k' := by
  by_cases h : k = k'
  · subst h
    rw [if_pos rfl, MD.push, AList.lookup_insert]
  · rw [if_neg h, MD.push, AList.lookup_insert_ne (Ne.symm h)]

lemma values_push (md : MD) (k k' : GoString) (vs : List GoString) :
    (md.push k vs).values k' = if k = k' then md.values k' ++ vs else md.values k' := by
  unfold MD.values
  rw [lookup_push]
  by_cases h : k = k'
  · subst h
    simp [MD.values]
  · simp [h]

@[simp] lemma values_empty (k : GoString) : MD.values ∅ k = [] := by
  simp [MD.values]

lemma proper_empty : Proper ∅ := by
  intro k
  simp

lemma Proper.push {md : MD} (h : Proper md) (k : GoString) {vs : List GoString} (hv : vs ≠ []) :
    Proper (md.push k vs) := by
  intro k'
  rw [lookup_push]
  split_ifs with hk
  · intro he
    exact hv (List.append_eq_nil_iff.mp (Option.some.inj he)).2
  · exact h k'

lemma append_singleton (E : Env) (md : MD) (k v : GoString) :
    md.append E k [v] = md.push (E.toLower k) [v] := rfl

/-- Proper maps with the same values are the same map. -/
lemma same_of_values {a b : MD} (ha : Proper a) (hb : Proper b)
    (h : ∀ k, a.values k = b.values k) : MD.Same a b := by
  intro k
  have hk := h k
  have hak := ha k
  have hbk := hb k
  unfold MD.values at hk
  cases hla : a.lookup k with
  | none =>
    cases hlb : b.lookup k with
    | none => rfl
    | some vs =>
      rw [hla, hlb] at hk
      have hnil : [] = vs := hk
      exact absurd (hlb.trans (congrArg some hnil.symm)) hbk
  | some us =>
    cases hlb : b.lookup k with
    | none =>
      rw [hla, hlb] at hk
      have hnil : us = [] := hk
      exact absurd (hla.trans (congrArg some hnil)) hak
    | some vs =>
      rw [hla, hlb] at hk
      exact congrArg some hk

/-- The `Append` calls of a list of entries, value by value. -/
def appendAll (E : Env) (md : MD) (es : List MDEntry) : MD :=
  es.foldl (fun md e => e.2.foldl (fun md v => md.append E e.1 [v]) md) md

lemma values_appendValues (E : Env) (k k' : GoString) (vs : List GoString) (md : MD) :
    (vs.foldl (fun md v => md.append E k [v]) md).values k' =
      if E.toLower k = k' then md.values k' ++ vs else md.values k' := by
  induction vs generalizing md with
  | nil => simp
  | cons v vs ih =>
    rw [List.foldl_cons, ih, append_singleton, values_push]
    by_cases h : E.toLower k = k'
    · simp [h]
    · simp [h]

/-- Under every key stand, in order, the values of the entries that lower-case to it. -/
theorem values_appendAll (E : Env) (es : List MDEntry) (md : MD) (k : GoString) :
    (appendAll E md es).values k =
      md.values k ++ (es.filter (fun e => E.toLower e.1 = k)).flatMap (fun e => e.2) := by
  induction es generalizing md with
  | nil => simp [appendAll]
  | cons e es ih =>
    have hcons : appendAll E md (e :: es) =
        appendAll E (e.2.foldl (fun md v => md.append E e.1 [v]) md) es := rfl
    rw [hcons, ih, values_appendValues]
    by_cases h : E.toLower e.1 = k
    · simp [h]
    · simp [h]

lemma proper_appendValues (E : Env) (k : GoString) (vs : List GoString) {md : MD} (h : Proper md) :
    Proper (vs.foldl (fun md v => md.append E k [v]) md) := by
  induction vs generalizing md with
  | nil => exact h
  | cons v vs ih => exact ih (h.push (E.toLower k) (by simp))

lemma proper_appendAll (E : Env) (es : List MDEntry) {md : MD} (h : Proper md) :
    Proper (appendAll E md es) := by
  induction es generalizing md with
  | nil => exact h
  | cons e es ih => exact ih (proper_appendValues E e.1 e.2 h)

/-- In a list of entries with distinct keys at most one entry answers to a key. -/
lemma flatMap_filter_eq_dlookup {l : List MDEntry} (hl : l.NodupKeys) (k : GoString) :
    (l.filter (fun e => e.1 = k)).flatMap (fun e => e.2) = (l.dlookup k).getD [] := by
  induction l with
  | nil => rfl
  | cons e l ih =>
    obtain ⟨k', vs⟩ := e
    have hl' := List.nodupKeys_cons.mp hl
    by_cases h : k' = k
    · subst h
      have hnone : l.filter (fun e => e.1 = k') = [] := by
        apply List.filter_eq_nil_iff.mpr
        intro e he hk
        have hk' : e.1 = k' := by simpa using hk
        have hmem := List.mem_keys_of_mem he
        rw [hk'] at hmem
        exact hl'.1 hmem
      simp [hnone]
    · have hd : List.dlookup k (⟨k', vs⟩ :: l) = List.dlookup k l :=
        List.dlookup_cons_ne l ⟨k', vs⟩ (Ne.symm h)
      rw [hd, ← ih hl'.2]
      simp [h]

/-- Every iteration order of a map finds the same values under a key. -/
lemma values_of_order {md : MD} {order : List MDEntry} (h : order.Perm md.entries) (k : GoString) :
    (order.filter (fun e => e.1 = k)).flatMap (fun e => e.2) = md.values k := by
  have hnodup : order.NodupKeys := (List.perm_nodupKeys h).mpr md.nodupKeys
  rw [flatMap_filter_eq_dlookup hnodup, List.perm_dlookup k hnodup h]
  rfl

end Zrpc.Proofs
