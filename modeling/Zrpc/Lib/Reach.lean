import Mathlib.Order.WellFounded
import Zrpc.Lib.Exec

/-!
# Reaching a goal

From each state that is not a goal some permitted actions lead to a state of lower rank. So some
permitted actions lead to a goal.
-/

namespace Zrpc.Lib

universe u v w
variable {σ : Type u} {α : Type v} {β : Type w} {step : σ → α → Option σ} {ok : α → Prop}

/-- Some actions, all of them permitted, lead from `s` to `t`. -/
def Leads (step : σ → α → Option σ) (ok : α → Prop) (s t : σ) : Prop :=
  ∃ as, (∀ a ∈ as, ok a) ∧ exec step s as = some t

lemma Leads.refl (s : σ) : Leads step ok s s := ⟨[], fun _ ha => (by cases ha), rfl⟩

lemma Leads.single {s t : σ} {a : α} (ha : ok a) (h : step s a = some t) : Leads step ok s t := by
  refine ⟨[a], fun b hb => ?_, exec_cons_some.mpr ⟨t, h, rfl⟩⟩
  rw [List.mem_singleton.mp hb]
  exact ha

lemma Leads.trans {s t r : σ} (h : Leads step ok s t) (h' : Leads step ok t r) :
    Leads step ok s r := by
  obtain ⟨as, has, ht⟩ := h
  obtain ⟨bs, hbs, hr⟩ := h'
  refine ⟨as ++ bs, fun a ha => ?_, exec_append_some.mpr ⟨t, ht, hr⟩⟩
  rcases List.mem_append.mp ha with hold | hnew
  · exact has a hold
  · exact hbs a hnew

theorem leads_to_goal [Preorder β] [WellFoundedLT β] (rank : σ → β) (Inv Goal : σ → Prop)
    (hstep : ∀ s, Inv s → ¬ Goal s → ∃ t, Leads step ok s t ∧ Inv t ∧ rank t < rank s)
    {s : σ} (hs : Inv s) : ∃ t, Leads step ok s t ∧ Inv t ∧ Goal t := by
  induction hn : rank s using WellFoundedLT.induction generalizing s with
  | ind n ih =>
    by_cases hgoal : Goal s
    · exact ⟨s, .refl s, hs, hgoal⟩
    · obtain ⟨t, hlead, ht, hlt⟩ := hstep s hs hgoal
      obtain ⟨r, hrest, hr, hend⟩ := ih (rank t) (hn ▸ hlt) ht rfl
      exact ⟨r, hlead.trans hrest, hr, hend⟩

end Zrpc.Lib
