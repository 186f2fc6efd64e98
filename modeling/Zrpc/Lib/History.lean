import Mathlib.Data.List.Induction
import Zrpc.Lib.Exec

/-!
# What an execution went through

`Past step s₀ as P` says that the execution of `as` from `s₀` went through a state in which `P`
held. An invariant that speaks of the past takes the actions performed so far as an argument;
`exec_history` is the induction rule for it.
-/

namespace Zrpc.Lib

universe u v
variable {σ : Type u} {α : Type v} {step : σ → α → Option σ} {ok : σ → α → Prop} {s₀ s t : σ}
  {as bs : List α} {P Q : σ → Prop}

def Past (step : σ → α → Option σ) (s₀ : σ) (as : List α) (P : σ → Prop) : Prop :=
  ∃ bs t, bs <+: as ∧ exec step s₀ bs = some t ∧ P t

lemma past_of_exec (h : exec step s₀ as = some t) (hp : P t) : Past step s₀ as P :=
  ⟨as, t, List.prefix_refl as, h, hp⟩

lemma Past.append (h : Past step s₀ as P) (bs : List α) : Past step s₀ (as ++ bs) P := by
  obtain ⟨cs, t, hcs, ht, hp⟩ := h
  exact ⟨cs, t, hcs.trans (List.prefix_append as bs), ht, hp⟩

lemma Past.mono (h : Past step s₀ as P) (hpq : ∀ t, P t → Q t) : Past step s₀ as Q := by
  obtain ⟨cs, t, hcs, ht, hp⟩ := h
  exact ⟨cs, t, hcs, ht, hpq t hp⟩

lemma Guarded.drop (h : Guarded step ok s (as ++ bs)) (ht : exec step s as = some t) :
    Guarded step ok t bs := by
  induction as generalizing s with
  | nil =>
    have he : s = t := Option.some.inj ht
    exact he ▸ h
  | cons a as ih =>
    obtain ⟨r, hr, hrest⟩ := exec_cons_some.mp ht
    exact ih (h.tail hr) hrest

theorem exec_history (Inv : List α → σ → Prop) (h₀ : Inv [] s₀)
    (hstep : ∀ as s a t, exec step s₀ as = some s → Inv as s → ok s a → step s a = some t →
      Inv (as ++ [a]) t)
    (hg : Guarded step ok s₀ as) (h : exec step s₀ as = some s) : Inv as s := by
  induction as using List.reverseRecOn generalizing s with
  | nil =>
    have he : s₀ = s := Option.some.inj h
    exact he ▸ h₀
  | append_singleton as a ih =>
    obtain ⟨r, hr, hlast⟩ := exec_append_some.mp h
    obtain ⟨t, ht, hend⟩ := exec_cons_some.mp hlast
    have he : t = s := Option.some.inj hend
    have hok : ok r a := (hg.drop hr).1
    exact he ▸ hstep as r a t hr (ih hg.of_append hr) hok ht

end Zrpc.Lib
