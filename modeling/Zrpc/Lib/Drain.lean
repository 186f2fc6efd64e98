import Mathlib.Data.List.Basic

/-!
# Reading until the end

A source is read by repeating one step, which delivers some elements and either ends or says where
to go on. This file gives the two rules about the repetition: it ends with all of the content if no
step delivers nothing and every step takes what it delivers from the content, and it never ends if
no state that it can reach ends.
-/

namespace Zrpc.Lib

universe u v w x
variable {σ : Type u} {τ : Type v} {α : Type w} {ε : Type x}

/-- The elements of at most `fuel` steps, if the last of them has ended the reading. -/
def drain (step : σ → Except ε (List α × (τ ⊕ σ))) : Nat → σ → Except ε (Option (τ × List α))
  | 0, _ => .ok none
  | fuel + 1, s =>
    match step s with
    | .error e => .error e
    | .ok (xs, .inl t) => .ok (some (t, xs))
    | .ok (xs, .inr s) =>
      match drain step fuel s with
      | .error e => .error e
      | .ok none => .ok none
      | .ok (some (t, ys)) => .ok (some (t, xs ++ ys))

variable (step : σ → Except ε (List α × (τ ⊕ σ)))

/-- If every step ends with what is left, or delivers a part of it, the content is delivered. -/
theorem drain_content (Inv : σ → Prop) (content : σ → List α)
    (hstep : ∀ s, Inv s → (∃ t, step s = .ok (content s, .inl t)) ∨
      ∃ xs s', step s = .ok (xs, .inr s') ∧ xs ≠ [] ∧ content s = xs ++ content s' ∧ Inv s')
    {s : σ} (hs : Inv s) : ∃ fuel t, drain step fuel s = .ok (some (t, content s)) := by
  -- the content gets shorter with every step that goes on
  induction hn : (content s).length using Nat.strongRecOn generalizing s with
  | ind n ih =>
    rcases hstep s hs with ⟨t, hend⟩ | ⟨xs, s', hmore, hne, hsplit, hs'⟩
    · refine ⟨1, t, ?_⟩
      rw [drain, hend]
    · have hpos : 0 < xs.length := List.length_pos_iff.mpr hne
      have hlen := congrArg List.length hsplit
      rw [List.length_append] at hlen
      obtain ⟨fuel, t, hrest⟩ := ih (content s').length (by omega) hs' rfl
      refine ⟨fuel + 1, t, ?_⟩
      rw [drain, hmore]
      dsimp only
      rw [hrest, hsplit]

/-- If no step from a state that meets `Inv` ends, the reading does not. -/
theorem drain_never_ends (Inv : σ → Prop)
    (hstep : ∀ s, Inv s → ∀ xs r, step s = .ok (xs, r) → ∃ s', r = .inr s' ∧ Inv s')
    {s : σ} (hs : Inv s) (fuel : Nat) (r : τ × List α) : drain step fuel s ≠ .ok (some r) := by
  induction fuel generalizing s r with
  | zero =>
    intro h
    cases h
  | succ fuel ih =>
    intro h
    rw [drain] at h
    cases hs' : step s with
    | error e =>
      rw [hs'] at h
      cases h
    | ok out =>
      obtain ⟨xs, next⟩ := out
      obtain ⟨s', rfl, hinv⟩ := hstep s hs xs next hs'
      rw [hs'] at h
      dsimp only at h
      split at h
      · cases h
      · cases h
      · next t ys hrest => exact ih hinv _ hrest

end Zrpc.Lib
