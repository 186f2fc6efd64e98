import Mathlib.Data.List.AList
import Mathlib.Data.List.Induction

/-!
# Maps filled one entry after the other

A loop that assigns `m[key x] = val x` for each `x` of a list leaves under each key the value of the
last `x` with that key.
-/

namespace Zrpc.Lib

universe u v w

variable {α : Type u} {κ : Type v} {β : Type w} [DecidableEq κ]

/-- The loop `for x in xs { m[key x] = val x }`. -/
def putAll (key : α → κ) (val : α → β) (m : AList (fun _ : κ => β)) (xs : List α) :
    AList (fun _ : κ => β) :=
  xs.foldl (fun m x => m.insert (key x) (val x)) m

variable {key : α → κ} {val : α → β} {m : AList (fun _ : κ => β)} {xs : List α} {k : κ} {v : β}

lemma putAll_append (ys : List α) :
    putAll key val m (xs ++ ys) = putAll key val (putAll key val m xs) ys := List.foldl_append

lemma lookup_putAll_concat (x : α) :
    (putAll key val m (xs ++ [x])).lookup k =
      if key x = k then some (val x) else (putAll key val m xs).lookup k := by
  rw [putAll_append]
  unfold putAll
  rw [List.foldl_cons, List.foldl_nil]
  split
  · next h => rw [h, AList.lookup_insert]
  · next h => exact AList.lookup_insert_ne (Ne.symm h)

/-- A key that no entry has keeps its value. -/
lemma lookup_putAll_of_ne (h : ∀ x ∈ xs, key x ≠ k) :
    (putAll key val m xs).lookup k = m.lookup k := by
  induction xs using List.reverseRecOn with
  | nil => rfl
  | append_singleton xs x ih =>
    rw [lookup_putAll_concat, if_neg (h x (by simp))]
    exact ih fun y hy => h y (List.mem_append_left _ hy)

/-- What a key holds is the value of an entry that has it. -/
lemma exists_of_lookup_putAll (h : (putAll key val ∅ xs).lookup k = some v) :
    ∃ x ∈ xs, key x = k ∧ val x = v := by
  induction xs using List.reverseRecOn with
  | nil => cases h
  | append_singleton xs x ih =>
    rw [lookup_putAll_concat] at h
    split at h
    · next hx => exact ⟨x, by simp, hx, Option.some.inj h⟩
    · obtain ⟨y, hy, hkey⟩ := ih h
      exact ⟨y, List.mem_append_left _ hy, hkey⟩

/-- Where all entries with a key agree on the value, the order does not matter. -/
lemma lookup_putAll_of_agree {x : α} (hx : x ∈ xs) (hk : key x = k)
    (h : ∀ y ∈ xs, key y = k → val y = v) : (putAll key val m xs).lookup k = some v := by
  induction xs using List.reverseRecOn with
  | nil => cases hx
  | append_singleton xs y ih =>
    rw [lookup_putAll_concat]
    split
    · next hy => rw [h y (by simp) hy]
    · next hy =>
      have hxs : x ∈ xs := by
        obtain hxs | hlast := List.mem_append.mp hx
        · exact hxs
        · exact absurd (List.mem_singleton.mp hlast ▸ hk) hy
      exact ih hxs fun z hz => h z (List.mem_append_left _ hz)

end Zrpc.Lib
