import Mathlib.Data.List.Basic

/-!
# Filling a buffer from the front

A `Writer` is a buffer with a running offset. Writing past the end fails. `Holds` describes
what a partly filled buffer contains, whatever it contained before.
-/

namespace Zrpc.Lib

universe u
variable {α : Type u}

structure Writer (α : Type u) where
  buf : List α
  offset : Nat

/-- Overwrites the next `bs.length` positions and moves the offset past them. -/
def Writer.write (w : Writer α) (bs : List α) : Option (Writer α) :=
  if w.offset + bs.length ≤ w.buf.length then
    some ⟨w.buf.take w.offset ++ bs ++ w.buf.drop (w.offset + bs.length), w.offset + bs.length⟩
  else none

/-- The positions before the offset hold `done`, and `room` positions are left. -/
structure Writer.Holds (w : Writer α) (done : List α) (room : Nat) : Prop where
  filled : w.buf.take w.offset = done
  offset : w.offset = done.length
  length : w.buf.length = done.length + room

lemma Writer.holds_start (buf : List α) : (Writer.mk buf 0).Holds [] buf.length :=
  ⟨rfl, rfl, by simp⟩

/-- One write inside the remaining room appends to what the buffer holds. -/
theorem Writer.Holds.write {w : Writer α} {done bs : List α} {room : Nat}
    (h : w.Holds done (bs.length + room)) :
    ∃ w', w.write bs = some w' ∧ w'.Holds (done ++ bs) room := by
  have hfit : w.offset + bs.length ≤ w.buf.length := by
    rw [h.offset, h.length]
    omega
  refine ⟨_, if_pos hfit, ?_, ?_, ?_⟩
  · have hlen : (w.buf.take w.offset ++ bs).length = w.offset + bs.length := by
      rw [List.length_append, h.filled, h.offset]
    rw [← hlen, List.take_left, h.filled]
  · rw [List.length_append, h.offset]
  · simp only [List.length_append, List.length_take, List.length_drop, h.offset, h.length]
    omega

lemma Writer.Holds.full {w : Writer α} {done : List α} (h : w.Holds done 0) : w.buf = done := by
  rw [← h.filled, h.offset, List.take_of_length_le]
  rw [h.length]
  omega

end Zrpc.Lib
