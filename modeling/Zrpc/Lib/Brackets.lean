import Mathlib.Data.List.Basic

/-!
# Labelled brackets that do not nest

A log in which an opening event is followed by a closing one with the same label before anything
else opens. `scan` follows a log with the label that is open; its success is read off as a
statement about the positions in the log.
-/

namespace Zrpc.Lib

universe u

inductive Bracket (τ : Type u)
  | opens (label : τ)
  | closes (label : τ)
  | neutral
  deriving DecidableEq

variable {τ : Type u}

def Neutral (bs : List (Bracket τ)) : Prop := ∀ b ∈ bs, b = .neutral

/-- Each opening event has its closing event, with only neutral ones in between, and each closing
event its opening one. In a log that is not finished, the last opening event may still be open. -/
structure Bracketed (bs : List (Bracket τ)) (finished : Prop) : Prop where
  closed : ∀ before label after, bs = before ++ .opens label :: after →
    (∃ mid rest, after = mid ++ .closes label :: rest ∧ Neutral mid) ∨ ¬finished ∧ Neutral after
  opened : ∀ before label after, bs = before ++ .closes label :: after →
    ∃ first mid, before = first ++ .opens label :: mid ∧ Neutral mid

lemma neutral_nil : Neutral ([] : List (Bracket τ)) := fun _ hb => absurd hb List.not_mem_nil

lemma Neutral.cons {bs : List (Bracket τ)} (h : Neutral bs) : Neutral (.neutral :: bs) := by
  intro b hb
  obtain rfl | hb := List.mem_cons.mp hb
  · rfl
  · exact h b hb

variable [DecidableEq τ]

/-- The label that is open behind the log, if the log is in order. -/
def scan : Option τ → List (Bracket τ) → Option (Option τ)
  | now, [] => some now
  | now, .neutral :: bs => scan now bs
  | none, .opens label :: bs => scan (some label) bs
  | some _, .opens _ :: _ => none
  | some label, .closes label' :: bs => if label' = label then scan none bs else none
  | none, .closes _ :: _ => none

lemma scan_append (now : Option τ) (as bs : List (Bracket τ)) :
    scan now (as ++ bs) = (scan now as).bind fun now => scan now bs := by
  induction as generalizing now with
  | nil => rfl
  | cons a as ih =>
    cases a with
    | neutral => exact ih now
    | opens label =>
      cases now with
      | none => exact ih (some label)
      | some _ => rfl
    | closes label =>
      cases now with
      | none => rfl
      | some label' =>
        by_cases hlabel : label = label'
        · simp only [List.cons_append, scan, if_pos hlabel]
          exact ih none
        · simp only [List.cons_append, scan, if_neg hlabel, Option.bind_none]

/-- An open label is closed next, or stays open through neutral events. -/
lemma scan_some_cases {label : τ} {bs : List (Bracket τ)} {last : Option τ}
    (h : scan (some label) bs = some last) :
    (∃ mid rest, bs = mid ++ .closes label :: rest ∧ Neutral mid) ∨
      last = some label ∧ Neutral bs := by
  induction bs with
  | nil => exact .inr ⟨(Option.some.inj h).symm, neutral_nil⟩
  | cons b bs ih =>
    cases b with
    | neutral =>
      obtain ⟨mid, rest, rfl, hmid⟩ | ⟨hlast, hbs⟩ := ih h
      · exact .inl ⟨.neutral :: mid, rest, rfl, hmid.cons⟩
      · exact .inr ⟨hlast, hbs.cons⟩
    | opens label' => cases h
    | closes label' =>
      simp only [scan] at h
      split at h
      · next hlabel => exact .inl ⟨[], bs, by rw [hlabel]; rfl, neutral_nil⟩
      · cases h

/-- A label that is open was open from the start, or opened last. -/
lemma scan_eq_some_some {now : Option τ} {label : τ} {bs : List (Bracket τ)}
    (h : scan now bs = some (some label)) :
    (∃ first mid, bs = first ++ .opens label :: mid ∧ Neutral mid) ∨
      now = some label ∧ Neutral bs := by
  induction bs generalizing now with
  | nil => exact .inr ⟨Option.some.inj h, neutral_nil⟩
  | cons b bs ih =>
    cases b with
    | neutral =>
      obtain ⟨first, mid, rfl, hmid⟩ | ⟨hnow, hbs⟩ := ih h
      · exact .inl ⟨.neutral :: first, mid, rfl, hmid⟩
      · exact .inr ⟨hnow, hbs.cons⟩
    | opens label' =>
      cases now with
      | some _ => cases h
      | none =>
        obtain ⟨first, mid, rfl, hmid⟩ | ⟨hnow, hbs⟩ := ih h
        · exact .inl ⟨.opens label' :: first, mid, rfl, hmid⟩
        · cases hnow
          exact .inl ⟨[], bs, rfl, hbs⟩
    | closes label' =>
      cases now with
      | none => cases h
      | some _ =>
        simp only [scan] at h
        split at h
        · obtain ⟨first, mid, rfl, hmid⟩ | ⟨hnow, -⟩ := ih h
          · exact .inl ⟨.closes label' :: first, mid, rfl, hmid⟩
          · cases hnow
        · cases h

theorem bracketed_of_scan {bs : List (Bracket τ)} {last : Option τ} {finished : Prop}
    (h : scan none bs = some last) (hlast : finished → last = none) : Bracketed bs finished where
  closed := by
    rintro before label after rfl
    rw [scan_append] at h
    obtain ⟨now, -, hrest⟩ := Option.bind_eq_some_iff.mp h
    cases now with
    | some _ => cases hrest
    | none =>
      obtain hclosed | ⟨rfl, hneutral⟩ := scan_some_cases hrest
      · exact .inl hclosed
      · exact .inr ⟨fun hf => Option.some_ne_none label (hlast hf), hneutral⟩
  opened := by
    rintro before label after rfl
    rw [scan_append] at h
    obtain ⟨now, hbefore, hrest⟩ := Option.bind_eq_some_iff.mp h
    cases now with
    | none => cases hrest
    | some label' =>
      simp only [scan] at hrest
      split at hrest
      · next hlabel =>
        obtain hopen | ⟨hnone, -⟩ := scan_eq_some_some (hlabel ▸ hbefore)
        · exact hopen
        · cases hnone
      · cases hrest

end Zrpc.Lib
