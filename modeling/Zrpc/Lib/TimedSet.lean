import Mathlib.Algebra.Order.Ring.Int
import Mathlib.Data.List.Induction
import Mathlib.Data.Option.Basic
import Mathlib.Logic.Function.Basic

/-!
# Timed sets

A set whose members carry the time they were last confirmed. A member leaves it when it is
removed or when a sweep finds its confirmation older than the timeout.
-/

namespace Zrpc.Lib

universe u

variable {α : Type u}

/-- The time of the last confirmation of each member. -/
abbrev TimedSet (α : Type u) := α → Option Int

inductive TimedEvent (α : Type u)
  | put (a : α) (now : Int)
  | remove (a : α)
  | touch (a : α) (now : Int)
  | expire (now : Int)

variable [DecidableEq α]

def TimedSet.step (timeout : Int) (T : TimedSet α) : TimedEvent α → TimedSet α
  | .put a now => Function.update T a (some now)
  | .remove a => Function.update T a none
  | .touch a now => Function.update T a ((T a).map fun _ => now)
  | .expire now => fun a => (T a).filter fun t => now - t ≤ timeout

def TimedSet.after (timeout : Int) (es : List (TimedEvent α)) : TimedSet α :=
  es.foldl (TimedSet.step timeout) fun _ => none

/-- The time at which the event confirms `a`, if it does. -/
def TimedEvent.pings (a : α) : TimedEvent α → Option Int
  | .put b now | .touch b now => if b = a then some now else none
  | .remove _ | .expire _ => none

/-- The time `a` was last confirmed, for an `a` confirmed at `t` before the events. -/
def lastPing (a : α) (t : Int) (es : List (TimedEvent α)) : Int :=
  es.foldl (fun t e => (e.pings a).getD t) t

/-- `a` was put, not removed since, and not swept when its last confirmation was too old; that
confirmation is now `t`. -/
def Standing (timeout : Int) (es : List (TimedEvent α)) (a : α) (t : Int) : Prop :=
  ∃ before start later, es = before ++ .put a start :: later ∧ .remove a ∉ later ∧
    (∀ xs now ys, later = xs ++ .expire now :: ys → now - lastPing a start xs ≤ timeout) ∧
    t = lastPing a start later

namespace TimedSet

variable {timeout : Int} {T : TimedSet α} {a : α} {t : Int}

lemma step_of_some {e : TimedEvent α} (hT : T a = some t) (hremove : e ≠ .remove a)
    (hexpire : ∀ now, e = .expire now → now - t ≤ timeout) :
    step timeout T e a = some ((e.pings a).getD t) := by
  cases e with
  | put b now =>
    by_cases hb : b = a
    · subst hb
      simp [step, TimedEvent.pings]
    · simp [step, TimedEvent.pings, hb, Function.update_of_ne (Ne.symm hb), hT]
  | remove b =>
    have hb : b ≠ a := fun hb => hremove (hb ▸ rfl)
    simp [step, TimedEvent.pings, Function.update_of_ne (Ne.symm hb), hT]
  | touch b now =>
    by_cases hb : b = a
    · subst hb
      simp [step, TimedEvent.pings, hT]
    · simp [step, TimedEvent.pings, hb, Function.update_of_ne (Ne.symm hb), hT]
  | expire now =>
    have hnow : decide (now - t ≤ timeout) = true := decide_eq_true (hexpire now rfl)
    simp only [step, hT, Option.filter_some, hnow, if_true]
    rfl

lemma step_eq_some {e : TimedEvent α} {t' : Int} (h : step timeout T e a = some t') :
    e = .put a t' ∨ ∃ t, T a = some t ∧ e ≠ .remove a ∧
      (∀ now, e = .expire now → now - t ≤ timeout) ∧ t' = (e.pings a).getD t := by
  cases e with
  | put b now =>
    by_cases hb : b = a
    · subst hb
      left
      simpa [step] using h
    · right
      have hT : T a = some t' := by simpa [step, Function.update_of_ne (Ne.symm hb)] using h
      exact ⟨t', hT, by simp, by simp, by simp [TimedEvent.pings, hb]⟩
  | remove b =>
    by_cases hb : b = a
    · subst hb
      simp [step] at h
    · right
      have hT : T a = some t' := by simpa [step, Function.update_of_ne (Ne.symm hb)] using h
      exact ⟨t', hT, by simpa using hb, by simp, by simp [TimedEvent.pings]⟩
  | touch b now =>
    right
    by_cases hb : b = a
    · subst hb
      obtain ⟨t, hT, hnow⟩ : ∃ t, T b = some t ∧ now = t' := by simpa [step] using h
      exact ⟨t, hT, by simp, by simp, by simp [TimedEvent.pings, hnow]⟩
    · have hT : T a = some t' := by simpa [step, Function.update_of_ne (Ne.symm hb)] using h
      exact ⟨t', hT, by simp, by simp, by simp [TimedEvent.pings, hb]⟩
  | expire now =>
    right
    obtain ⟨hT, hnow⟩ : T a = some t' ∧ now - t' ≤ timeout := by
      simpa [step, Option.filter_eq_some_iff] using h
    refine ⟨t', hT, by simp, ?_, by simp [TimedEvent.pings]⟩
    rintro now' ⟨⟩
    exact hnow

lemma foldl_of_some {es : List (TimedEvent α)} (hT : T a = some t) (hremove : .remove a ∉ es)
    (hexpire : ∀ xs now ys, es = xs ++ .expire now :: ys → now - lastPing a t xs ≤ timeout) :
    es.foldl (step timeout) T a = some (lastPing a t es) := by
  induction es generalizing T t with
  | nil => exact hT
  | cons e es ih =>
    have hfirst : step timeout T e a = some ((e.pings a).getD t) := by
      refine step_of_some hT (fun he => hremove (he ▸ List.mem_cons_self)) fun now he => ?_
      exact hexpire [] now es (by rw [he, List.nil_append])
    refine ih hfirst (fun hmem => hremove (List.mem_cons_of_mem _ hmem)) fun xs now ys hes => ?_
    exact hexpire (e :: xs) now ys (by rw [hes, List.cons_append])

end TimedSet

/-- A later event that neither removes `a` nor sweeps it leaves `a` standing. -/
lemma Standing.snoc {timeout : Int} {es : List (TimedEvent α)} {a : α} {t : Int}
    (h : Standing timeout es a t) {e : TimedEvent α} (hremove : e ≠ .remove a)
    (hexpire : ∀ now, e = .expire now → now - t ≤ timeout) :
    Standing timeout (es ++ [e]) a ((e.pings a).getD t) := by
  obtain ⟨before, start, later, rfl, hlater, hswept, rfl⟩ := h
  refine ⟨before, start, later ++ [e], by simp, ?_, fun xs now ys hsplit => ?_, ?_⟩
  · simpa [hlater] using hremove.symm
  · rcases List.eq_nil_or_concat ys with rfl | ⟨ys', e', hys⟩
    · obtain ⟨rfl, he⟩ := List.append_inj' hsplit rfl
      exact hexpire now (by simpa using he)
    · rw [hys, List.concat_eq_append, ← List.cons_append, ← List.append_assoc] at hsplit
      exact hswept xs now ys' (List.append_inj' hsplit rfl).1
  · simp [lastPing]

/-- The members of a timed set, by the history of its events. -/
theorem TimedSet.after_eq_some_iff {timeout : Int} {es : List (TimedEvent α)} {a : α} {t : Int} :
    TimedSet.after timeout es a = some t ↔ Standing timeout es a t := by
  constructor
  · intro h
    induction es using List.reverseRecOn generalizing t with
    | nil => cases h
    | append_singleton es e ih =>
      rw [TimedSet.after, List.foldl_append] at h
      obtain rfl | ⟨t₀, hT, hremove, hexpire, rfl⟩ := TimedSet.step_eq_some h
      · exact ⟨es, t, [], rfl, by simp, by simp, rfl⟩
      · exact (ih hT).snoc hremove hexpire
  · rintro ⟨before, start, later, rfl, hremove, hexpire, rfl⟩
    rw [TimedSet.after, List.foldl_append, List.foldl_cons]
    exact TimedSet.foldl_of_some (Function.update_self ..) hremove hexpire

end Zrpc.Lib
