import Mathlib.Data.List.Basic

/-!
# Stateful computations that follow pure ones

A computation with state and errors follows a pure computation from a state `s`: both end with the
same error, and where the pure one returns `a`, the stateful one returns the value and the state
`out a`. The rules take both computations apart at the same places.
-/

namespace Zrpc.Lib

universe u
variable {ε σ α β γ δ : Type u}

def Follows (x : ExceptT ε (StateM σ) β) (s : σ) (y : Except ε α) (out : α → β × σ) : Prop :=
  match y with
  | .ok a => x.run s = (.ok (out a).1, (out a).2)
  | .error e => (x.run s).1 = .error e

variable {x : ExceptT ε (StateM σ) β} {k : β → ExceptT ε (StateM σ) γ} {s : σ} {y : Except ε α}
  {out : α → β × σ}

lemma Follows.lift : Follows (liftM y : ExceptT ε (StateM σ) α) s y (fun a => (a, s)) := by
  cases y with
  | ok a => exact rfl
  | error e => exact rfl

lemma Follows.pure {b : β} {a : α} (h : out a = (b, s)) :
    Follows (Pure.pure b : ExceptT ε (StateM σ) β) s (Pure.pure a) out := by
  change (Except.ok b, s) = (Except.ok (out a).1, (out a).2)
  rw [h]

lemma run_bind_ok {b : β} {s' : σ} (h : x.run s = (.ok b, s')) :
    (x >>= k).run s = (k b).run s' := by
  change (x.run >>= ExceptT.bindCont k) s = _
  change (match x.run s with | (a, s') => ExceptT.bindCont k a s') = _
  rw [h]
  rfl

lemma run_bind_error {e : ε} (h : (x.run s).1 = .error e) :
    ((x >>= k).run s).1 = .error e := by
  change ((x.run >>= ExceptT.bindCont k) s).1 = _
  change (match x.run s with | (a, s') => ExceptT.bindCont k a s').1 = _
  generalize x.run s = result at h ⊢
  obtain ⟨a, s'⟩ := result
  cases h
  rfl

lemma Follows.bind {g : α → Except ε δ} {out' : δ → γ × σ} (hx : Follows x s y out)
    (hk : ∀ a, y = .ok a → Follows (k (out a).1) (out a).2 (g a) out') :
    Follows (x >>= k) s (y >>= g) out' := by
  cases y with
  | ok a =>
    have hrest := hk a rfl
    change Follows (x >>= k) s (g a) out'
    unfold Follows at hrest ⊢
    rw [run_bind_ok hx]
    exact hrest
  | error e => exact run_bind_error hx

/-- A step of the stateful computation alone. -/
lemma Follows.step {b : β} {s' : σ} {out' : α → γ × σ} (h : x.run s = (.ok b, s'))
    (hk : Follows (k b) s' y out') : Follows (x >>= k) s y out' := by
  unfold Follows at hk ⊢
  rw [run_bind_ok h]
  exact hk

/-- A last step of the pure computation alone. -/
lemma Follows.last {g : α → Except ε δ} {out' : δ → β × σ} (hx : Follows x s y out)
    (hg : ∀ a, y = .ok a → ∃ d, g a = .ok d ∧ out' d = out a) : Follows x s (y >>= g) out' := by
  cases y with
  | ok a =>
    obtain ⟨d, hd, hout⟩ := hg a rfl
    change Follows x s (g a) out'
    rw [hd]
    change x.run s = (.ok (out' d).1, (out' d).2)
    rw [hout]
    exact hx
  | error e => exact hx

/-- Both computations stop with the same error. -/
lemma Follows.error {e : ε} :
    Follows (liftM (Except.error e : Except ε β) : ExceptT ε (StateM σ) β) s
      (.error e : Except ε α) out := rfl

lemma Follows.run_eq_ok (hx : Follows x s y out) {b : β} {s' : σ} :
    x.run s = (.ok b, s') ↔ ∃ a, y = .ok a ∧ out a = (b, s') := by
  constructor
  · intro h
    cases y with
    | ok a =>
      have hrun := hx.symm.trans h
      cases hout : out a with
      | mk b' s'' =>
        rw [hout] at hrun
        cases hrun
        exact ⟨a, rfl, hout⟩
    | error e =>
      have hrun := (congrArg Prod.fst h).symm.trans hx
      cases hrun
  · rintro ⟨a, rfl, hout⟩
    have hrun : x.run s = (.ok (out a).1, (out a).2) := hx
    rw [hrun, hout]

lemma Follows.run_eq_error (hx : Follows x s y out) {e : ε} :
    (x.run s).1 = .error e ↔ y = .error e := by
  cases y with
  | ok a =>
    have hrun : (x.run s).1 = .ok (out a).1 := congrArg Prod.fst hx
    rw [hrun]
    constructor <;> intro h <;> cases h
  | error e' =>
    have hrun : (x.run s).1 = .error e' := hx
    rw [hrun]
    constructor <;> intro h <;> cases h <;> rfl

end Zrpc.Lib
