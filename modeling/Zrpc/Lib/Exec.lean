import Mathlib.Data.List.Basic

/-!
# Executions of a partial step function

A concurrent component is given by a function `step` that performs one atomic action of one
of its parties, or refuses it. `exec` performs a list of actions. This file proves the two
induction rules every safety proof below uses: an invariant kept by each step holds after
every execution, and an invariant kept by each step that meets a side condition holds after
every execution whose steps all meet it.
-/

namespace Zrpc.Lib

universe u v
variable {σ : Type u} {α : Type v}

/-- The state reached by a list of actions; `none` as soon as one of them is not enabled. -/
def exec (step : σ → α → Option σ) : σ → List α → Option σ
  | s, [] => some s
  | s, a :: as => (step s a).bind (fun t => exec step t as)

/-- Every action of the list is taken in a state in which `ok` allows it. -/
def Guarded (step : σ → α → Option σ) (ok : σ → α → Prop) : σ → List α → Prop
  | _, [] => True
  | s, a :: as => ok s a ∧ match step s a with
    | some t => Guarded step ok t as
    | none => True

instance decidableGuarded (step : σ → α → Option σ) (ok : σ → α → Prop)
    [∀ s a, Decidable (ok s a)] : ∀ s as, Decidable (Guarded step ok s as)
  | _, [] => isTrue trivial
  | s, a :: as =>
    let rest : Decidable (match step s a with
        | some t => Guarded step ok t as
        | none => True) :=
      match step s a with
      | some t => decidableGuarded step ok t as
      | none => isTrue trivial
    @instDecidableAnd (ok s a) _ _ rest

/-- In a list of parties of which party `i` has become `a`, each is the new one or as it was. -/
lemma getElem?_set_cases {l : List σ} {a b : σ} {i j : Nat} (h : (l.set i a)[j]? = some b) :
    (i = j ∧ b = a) ∨ (i ≠ j ∧ l[j]? = some b) := by
  rw [List.getElem?_set] at h
  split at h
  · next hij =>
    split at h <;> cases h
    exact .inl ⟨hij, rfl⟩
  · next hij => exact .inr ⟨hij, h⟩

/-- In a list of parties to which `a` has been added, each was there before or is `a`. -/
lemma getElem?_concat_cases {l : List σ} {a b : σ} {j : Nat} (h : (l ++ [a])[j]? = some b) :
    l[j]? = some b ∨ j = l.length ∧ b = a := by
  rcases Nat.lt_or_ge j l.length with hlt | hge
  · rw [List.getElem?_append_left hlt] at h
    exact .inl h
  · have hbound := (List.getElem?_eq_some_iff.mp h).1
    rw [List.getElem?_append_right hge] at h
    refine .inr ⟨?_, List.mem_singleton.mp (List.mem_of_getElem? h)⟩
    rw [List.length_append, List.length_singleton] at hbound
    omega

/-- Of a list of parties of which party `i` has become `b`, who meets `p`. -/
lemma exists_mem_getElem?_set {l : List σ} {a b : σ} {i : Nat} (h : l[i]? = some a) (p : σ → Prop)
    (j : Nat) : (∃ x ∈ (l.set i b)[j]?, p x) ↔ j = i ∧ p b ∨ j ≠ i ∧ ∃ x ∈ l[j]?, p x := by
  by_cases hj : j = i
  · have hi : i < l.length := (List.getElem?_eq_some_iff.mp h).1
    rw [hj, List.getElem?_set_self hi]
    simp
  · rw [List.getElem?_set_ne (Ne.symm hj)]
    simp [hj]

/-- Party `i` has become `b`, and meets `p` if it did. -/
lemma exists_mem_set {l : List σ} {a b : σ} {i : Nat} {p : σ → Prop} (h : l[i]? = some a)
    (hab : p a → p b) : (∃ x ∈ l.set i b, p x) ↔ p b ∨ ∃ x ∈ l, p x := by
  constructor
  · rintro ⟨x, hx, hp⟩
    rcases List.mem_or_eq_of_mem_set hx with hold | rfl
    · exact .inr ⟨x, hold, hp⟩
    · exact .inl hp
  · have hi : i < l.length := (List.getElem?_eq_some_iff.mp h).1
    rintro (hb | ⟨x, hx, hp⟩)
    · exact ⟨b, List.mem_set hi b, hb⟩
    · obtain ⟨j, hj⟩ := List.mem_iff_getElem?.mp hx
      by_cases hij : i = j
      · rw [← hij, h] at hj
        exact ⟨b, List.mem_set hi b, hab (Option.some.inj hj ▸ hp)⟩
      · exact ⟨x, List.mem_of_getElem? ((List.getElem?_set_ne hij).trans hj), hp⟩

lemma exists_mem_getElem?_concat {l : List σ} {b : σ} {p : σ → Prop} (hb : ¬p b) (j : Nat) :
    (∃ x ∈ (l ++ [b])[j]?, p x) ↔ ∃ x ∈ l[j]?, p x := by
  constructor
  · rintro ⟨x, hx, hp⟩
    rcases getElem?_concat_cases hx with hold | ⟨-, rfl⟩
    · exact ⟨x, hold, hp⟩
    · exact absurd hp hb
  · rintro ⟨x, hx, hp⟩
    exact ⟨x, List.getElem?_append_left (List.getElem?_eq_some_iff.mp hx).1 ▸ hx, hp⟩

variable {step : σ → α → Option σ} {ok : σ → α → Prop}

lemma exec_cons_some {s t : σ} {a : α} {as : List α} :
    exec step s (a :: as) = some t ↔ ∃ r, step s a = some r ∧ exec step r as = some t := by
  simp only [exec, Option.bind_eq_some_iff]

lemma exec_append_some {s t : σ} {as bs : List α} :
    exec step s (as ++ bs) = some t ↔ ∃ r, exec step s as = some r ∧ exec step r bs = some t := by
  induction as generalizing s with
  | nil => simp [exec]
  | cons a as ih =>
    rw [List.cons_append, exec_cons_some]
    constructor
    · rintro ⟨u, hu, hrest⟩
      obtain ⟨r, hr, ht⟩ := ih.mp hrest
      exact ⟨r, exec_cons_some.mpr ⟨u, hu, hr⟩, ht⟩
    · rintro ⟨r, hr, ht⟩
      obtain ⟨u, hu, hrest⟩ := exec_cons_some.mp hr
      exact ⟨u, hu, ih.mpr ⟨r, hrest, ht⟩⟩

lemma guarded_of_mem {s : σ} {as : List α} (h : ∀ a ∈ as, ∀ t, ok t a) : Guarded step ok s as := by
  induction as generalizing s with
  | nil => trivial
  | cons a as ih =>
    refine ⟨h a List.mem_cons_self s, ?_⟩
    have hrest := fun b hb => h b (List.mem_cons_of_mem _ hb)
    cases step s a with
    | none => trivial
    | some t => exact ih hrest

lemma Guarded.tail {s t : σ} {a : α} {as : List α} (h : Guarded step ok s (a :: as))
    (ht : step s a = some t) : Guarded step ok t as := by
  have h2 := h.2
  rw [ht] at h2
  exact h2

lemma Guarded.append {s t : σ} {as bs : List α} (h : Guarded step ok s as)
    (ht : exec step s as = some t) (h' : Guarded step ok t bs) : Guarded step ok s (as ++ bs) := by
  induction as generalizing s with
  | nil =>
    have he : s = t := Option.some.inj ht
    rw [List.nil_append, he]
    exact h'
  | cons a as ih =>
    obtain ⟨r, hr, hrest⟩ := exec_cons_some.mp ht
    refine ⟨h.1, ?_⟩
    rw [hr]
    exact ih (h.tail hr) hrest

lemma Guarded.of_append {s : σ} {as bs : List α} (h : Guarded step ok s (as ++ bs)) :
    Guarded step ok s as := by
  induction as generalizing s with
  | nil => trivial
  | cons a as ih =>
    refine ⟨h.1, ?_⟩
    cases ht : step s a with
    | none => trivial
    | some t => exact ih (h.tail ht)

lemma Guarded.mono {ok' : σ → α → Prop} (hle : ∀ s a, ok s a → ok' s a) {s : σ} {as : List α}
    (h : Guarded step ok s as) : Guarded step ok' s as := by
  induction as generalizing s with
  | nil => trivial
  | cons a as ih =>
    refine ⟨hle s a h.1, ?_⟩
    cases ht : step s a with
    | none => trivial
    | some t => exact ih (h.tail ht)

lemma Guarded.and {ok' : σ → α → Prop} {s : σ} {as : List α} (h : Guarded step ok s as)
    (h' : Guarded step ok' s as) : Guarded step (fun s a => ok s a ∧ ok' s a) s as := by
  induction as generalizing s with
  | nil => trivial
  | cons a as ih =>
    refine ⟨⟨h.1, h'.1⟩, ?_⟩
    cases ht : step s a with
    | none => trivial
    | some t => exact ih (h.tail ht) (h'.tail ht)

theorem exec_invariant_guarded (Inv : σ → Prop)
    (hstep : ∀ s a t, Inv s → ok s a → step s a = some t → Inv t)
    {s t : σ} {as : List α} (hs : Inv s) (hg : Guarded step ok s as)
    (h : exec step s as = some t) : Inv t := by
  induction as generalizing s with
  | nil =>
    have he : s = t := Option.some.inj h
    exact he ▸ hs
  | cons a as ih =>
    obtain ⟨r, hr, hrest⟩ := exec_cons_some.mp h
    exact ih (hstep s a r hs hg.1 hr) (hg.tail hr) hrest

theorem exec_invariant (Inv : σ → Prop)
    (hstep : ∀ s a t, Inv s → step s a = some t → Inv t)
    {s t : σ} {as : List α} (hs : Inv s) (h : exec step s as = some t) : Inv t := by
  have hg : Guarded step (fun _ _ => True) s as := guarded_of_mem fun _ _ _ => trivial
  exact exec_invariant_guarded Inv (fun s a t hs _ => hstep s a t hs) hs hg h

/-- Where each step is one step of another system or none, as seen through `f`, each execution is
one of that system. -/
theorem exec_simulation {τ β : Type*} {step' : τ → β → Option τ} (f : σ → τ)
    (hstep : ∀ s a t, step s a = some t → f t = f s ∨ ∃ b, step' (f s) b = some (f t))
    {s t : σ} {as : List α} (h : exec step s as = some t) :
    ∃ bs, exec step' (f s) bs = some (f t) := by
  induction as generalizing s with
  | nil =>
    have he : s = t := Option.some.inj h
    exact ⟨[], congrArg (fun s => some (f s)) he⟩
  | cons a as ih =>
    obtain ⟨r, hr, hrest⟩ := exec_cons_some.mp h
    obtain ⟨bs, hbs⟩ := ih hrest
    rcases hstep s a r hr with hsame | ⟨b, hb⟩
    · exact ⟨bs, hsame ▸ hbs⟩
    · exact ⟨b :: bs, exec_cons_some.mpr ⟨f r, hb, hbs⟩⟩

/-- Where `Inv` holds on the way and a bad state stays bad, an execution that ends in a good state
started in one. -/
lemma exec_good_of_end (Inv Good : σ → Prop) (hinv : ∀ s a t, Inv s → step s a = some t → Inv t)
    (hback : ∀ s a t, Inv s → step s a = some t → Good t → Good s)
    {s t : σ} {as : List α} (hs : Inv s) (h : exec step s as = some t) (ht : Good t) : Good s := by
  induction as generalizing s with
  | nil =>
    have he : s = t := Option.some.inj h
    exact he ▸ ht
  | cons a as ih =>
    obtain ⟨r, hr, hrest⟩ := exec_cons_some.mp h
    exact hback s a r hs hr (ih (hinv s a r hs hr) hrest)

/-- Where a bad state stays bad and a step keeps the state good exactly when `ok` allows it, an
execution ends in a good state exactly when `ok` allows each of its steps. -/
theorem exec_good_iff_guarded_of_inv (Inv Good : σ → Prop)
    (hinv : ∀ s a t, Inv s → step s a = some t → Inv t)
    (hback : ∀ s a t, Inv s → step s a = some t → Good t → Good s)
    (hstep : ∀ s a t, Inv s → Good s → step s a = some t → (Good t ↔ ok s a))
    {s t : σ} {as : List α} (hi : Inv s) (hs : Good s) (h : exec step s as = some t) :
    Good t ↔ Guarded step ok s as := by
  induction as generalizing s with
  | nil =>
    have he : s = t := Option.some.inj h
    exact iff_of_true (he ▸ hs) trivial
  | cons a as ih =>
    obtain ⟨r, hr, hrest⟩ := exec_cons_some.mp h
    have hir := hinv s a r hi hr
    rw [Guarded, hr, ← hstep s a r hi hs hr]
    constructor
    · intro ht
      have hgood := exec_good_of_end Inv Good hinv hback hir hrest ht
      exact ⟨hgood, (ih hir hgood hrest).mp ht⟩
    · rintro ⟨hgood, hg⟩
      exact (ih hir hgood hrest).mpr hg

theorem exec_good_iff_guarded (Good : σ → Prop)
    (hback : ∀ s a t, step s a = some t → Good t → Good s)
    (hstep : ∀ s a t, Good s → step s a = some t → (Good t ↔ ok s a))
    {s t : σ} {as : List α} (hs : Good s) (h : exec step s as = some t) :
    Good t ↔ Guarded step ok s as :=
  exec_good_iff_guarded_of_inv (fun _ => True) Good (fun _ _ _ _ _ => trivial)
    (fun s a t _ => hback s a t) (fun s a t _ => hstep s a t) trivial hs h

/-- Where `Inv` goes on as long as the state is good, and a step from a good state leads to a good
state exactly when `ok` allows it, all states of an execution are good exactly when `ok` allows each
of its steps. -/
theorem exec_always_iff_guarded_of_inv (Inv Good : σ → Prop)
    (hinv : ∀ s a t, Inv s → Good s → step s a = some t → Inv t)
    (hstep : ∀ s a t, Inv s → Good s → step s a = some t → (Good t ↔ ok s a))
    {s t : σ} {as : List α} (hi : Inv s) (hs : Good s) (h : exec step s as = some t) :
    (∀ bs r, bs <+: as → exec step s bs = some r → Good r) ↔ Guarded step ok s as := by
  induction as generalizing s with
  | nil =>
    refine iff_of_true (fun bs r hbs hr => ?_) trivial
    rw [List.prefix_nil.mp hbs] at hr
    exact Option.some.inj hr ▸ hs
  | cons a as ih =>
    obtain ⟨u, hu, hrest⟩ := exec_cons_some.mp h
    have hiu := hinv s a u hi hs hu
    rw [Guarded, hu, ← hstep s a u hi hs hu]
    constructor
    · intro hall
      have hgood : Good u := hall [a] u (by simp) (exec_cons_some.mpr ⟨u, hu, rfl⟩)
      refine ⟨hgood, (ih hiu hgood hrest).mp fun bs r hbs hr => ?_⟩
      exact hall (a :: bs) r (List.cons_prefix_cons.mpr ⟨rfl, hbs⟩)
        (exec_cons_some.mpr ⟨u, hu, hr⟩)
    · rintro ⟨hgood, hg⟩ bs r hbs hr
      cases bs with
      | nil => exact Option.some.inj hr ▸ hs
      | cons b bs =>
        obtain ⟨rfl, htail⟩ := List.cons_prefix_cons.mp hbs
        obtain ⟨u', hu', hr'⟩ := exec_cons_some.mp hr
        rw [hu, Option.some.injEq] at hu'
        subst hu'
        exact (ih hiu hgood hrest).mpr hg bs r htail hr'

theorem exec_always_iff_guarded (Good : σ → Prop)
    (hstep : ∀ s a t, Good s → step s a = some t → (Good t ↔ ok s a))
    {s t : σ} {as : List α} (hs : Good s) (h : exec step s as = some t) :
    (∀ bs r, bs <+: as → exec step s bs = some r → Good r) ↔ Guarded step ok s as :=
  exec_always_iff_guarded_of_inv (fun _ => True) Good (fun _ _ _ _ _ _ => trivial)
    (fun s a t _ => hstep s a t) trivial hs h

end Zrpc.Lib
