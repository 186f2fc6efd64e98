import Mathlib.Data.List.Basic

/-!
# Postconditions of fallible computations

A computation in `Except ε` ensures a postcondition, up to a set of errors it is allowed to end
with. The rules follow the computation: a bind needs the postcondition of its first part as the
precondition of its second.
-/

namespace Zrpc.Lib

universe u v
variable {ε : Type u} {α β : Type v} {fine : ε → Prop}

/-- The computation returns a value that satisfies `post`, or an error that is `fine`. -/
def Ensures (fine : ε → Prop) (x : Except ε α) (post : α → Prop) : Prop :=
  match x with
  | .ok a => post a
  | .error e => fine e

lemma Ensures.bind {x : Except ε α} {f : α → Except ε β} {p : α → Prop} {q : β → Prop}
    (hx : Ensures fine x p) (hf : ∀ a, p a → Ensures fine (f a) q) : Ensures fine (x >>= f) q := by
  cases x with
  | error e => exact hx
  | ok a => exact hf a hx

lemma Ensures.error {x : Except ε α} {p : α → Prop} {e : ε} (hx : Ensures fine x p)
    (h : x = .error e) : fine e := by
  subst h
  exact hx

/-- What a computation that returns has done up to a bind. -/
lemma bind_eq_ok {x : Except ε α} {f : α → Except ε β} {b : β} (h : x >>= f = .ok b) :
    ∃ a, x = .ok a ∧ f a = .ok b := by
  cases x with
  | error e => cases h
  | ok a => exact ⟨a, rfl, h⟩

lemma Ensures.pure {a : α} {p : α → Prop} (h : p a) : Ensures fine (Pure.pure a : Except ε α) p := h

end Zrpc.Lib
