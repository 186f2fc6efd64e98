import Mathlib.Data.List.AList

/-!
# Loops that range over a map and change it

A loop over the keys of a map visits them in some order, and its body may update or delete the
entry it is at. If the body touches no other entry, the order does not matter.
-/

namespace Zrpc.Lib

universe u v

variable {α : Type u} {β : Type v} [DecidableEq α]

/-- The order in which a loop ranges over maps. -/
structure RangeOrder (α : Type u) (β : Type v) where
  order : AList (fun _ : α => β) → List α
  perm : ∀ m, (order m).Perm m.keys

namespace RangeOrder

/-- The order in which the entries are stored. -/
def stored : RangeOrder α β := ⟨AList.keys, fun _ => .refl _⟩

variable (o : RangeOrder α β) (m : AList (fun _ : α => β))

omit [DecidableEq α] in
lemma nodup : (o.order m).Nodup := (o.perm m).nodup_iff.mpr m.keys_nodup

lemma mem_order {k : α} : k ∈ o.order m ↔ (m.lookup k).isSome = true := by
  rw [(o.perm m).mem_iff, AList.lookup_isSome, AList.mem_keys]

end RangeOrder

/-- The loop body changes the entry it is at by `f`, and no other. -/
def ChangesOwn (body : AList (fun _ : α => β) → α → AList (fun _ : α => β))
    (f : α → β → Option β) : Prop :=
  ∀ m k k', (body m k).lookup k' = if k' = k then (m.lookup k').bind (f k') else m.lookup k'

lemma lookup_foldl {body : AList (fun _ : α => β) → α → AList (fun _ : α => β)}
    {f : α → β → Option β} (h : ChangesOwn body f) {ks : List α} (hks : ks.Nodup)
    (m : AList (fun _ : α => β)) (k : α) :
    (ks.foldl body m).lookup k = if k ∈ ks then (m.lookup k).bind (f k) else m.lookup k := by
  induction ks generalizing m with
  | nil => simp
  | cons a ks ih =>
    obtain ⟨ha, hrest⟩ := List.nodup_cons.mp hks
    rw [List.foldl_cons, ih hrest, h]
    by_cases hk : k = a
    · subst hk
      simp [ha]
    · simp [hk]

theorem lookup_range {body : AList (fun _ : α => β) → α → AList (fun _ : α => β)}
    {f : α → β → Option β} (h : ChangesOwn body f) (o : RangeOrder α β)
    (m : AList (fun _ : α => β)) (k : α) :
    ((o.order m).foldl body m).lookup k = (m.lookup k).bind (f k) := by
  rw [lookup_foldl h (o.nodup m)]
  split
  · rfl
  · next hk =>
    rw [o.mem_order, Bool.not_eq_true, Option.isSome_eq_false_iff, Option.isNone_iff_eq_none] at hk
    rw [hk, Option.bind_none]

end Zrpc.Lib
