import Zrpc.Lib.LastWrite
import Zrpc.OutgoingContext
import Zrpc.Proofs.RoundTrip

/-!
# Outgoing metadata is complete

Contexts read as values that share nothing, so no append disturbs another context. What is lost is
lost in `FromOutgoingContext` alone, where keys of the map that differ only in case overwrite each
other.
-/

namespace Zrpc.Proofs

open Zrpc.Lib

/-! ### Arrays -/

section Arrays

variable {mem : Arrays}

/-- An array that was made before reads as before. -/
lemma read_append {a : Nat} (h : a < mem.length) (more : Arrays) :
    Arrays.read (mem ++ more) (some a) = mem.read (some a) := by
  simp only [Arrays.read, Option.bind_some, List.getElem?_append_left h]

lemma modify_last (a : List (List GoString)) (f : List (List GoString) → List (List GoString)) :
    (mem ++ [a]).modify mem.length f = mem ++ [f a] := by
  rw [List.modify_eq_set_getElem?]
  simp

lemma copy_last (src : List (List GoString)) (v : List GoString) :
    Arrays.copy (mem ++ [src ++ [v]]) mem.length src = mem ++ [src ++ [v]] := by
  rw [Arrays.copy, modify_last, List.length_append, List.take_of_length_le (by simp)]
  simp

lemma copy_make (src : List (List GoString)) :
    Arrays.copy (mem ++ [List.replicate (src.length + 1) []]) mem.length src =
      mem ++ [src ++ [[]]] := by
  rw [Arrays.copy, modify_last, List.length_replicate, List.take_of_length_le (Nat.le_succ _)]
  simp

lemma assign_last (src : List (List GoString)) (v w : List GoString) :
    Arrays.assign (mem ++ [src ++ [v]]) mem.length src.length w = mem ++ [src ++ [w]] := by
  rw [Arrays.assign, modify_last]
  simp

end Arrays

/-- What `AppendToOutgoingContext` leaves in memory: one new array. -/
lemma append_ok (E : Env) (mem : Arrays) (ctx : Context) {kv : List GoString}
    (h : kv.length % 2 ≠ 1) :
    appendToOutgoingContext E mem ctx kv =
      .ok (mem ++ [mem.read (ctx.outgoing.getD ⟨∅, none⟩).added ++ [lowerKeys E kv]],
        .withOutgoing ctx ⟨(ctx.outgoing.getD ⟨∅, none⟩).md, some mem.length⟩) := by
  unfold appendToOutgoingContext
  rw [if_neg h]
  simp only [Arrays.make, copy_make, copy_last, assign_last]

/-! ### Contexts are values -/

/-- A context holds, in memory, what it stands for: the appended lists with their keys in lower
case. -/
structure Reads (E : Env) (mem : Arrays) (ctx : Context) (o : Outgoing) : Prop where
  valid : ∀ raw ∈ ctx.outgoing, ∀ a ∈ raw.added, a < mem.length
  value : (ctx.outgoing.map fun raw => (raw.md, mem.read raw.added)) =
    o.map fun x => (x.1, x.2.map (lowerKeys E))

section Step

variable {E : Env} {mem : Arrays} {ctx : Context} {o : Outgoing}

lemma read_mono {raw : RawRef} (h : ∀ a ∈ raw.added, a < mem.length) (more : Arrays) :
    Arrays.read (mem ++ more) raw.added = mem.read raw.added := by
  cases hadded : raw.added with
  | none => rfl
  | some a => exact read_append (h a hadded) more

lemma Reads.mono (h : Reads E mem ctx o) (more : Arrays) : Reads E (mem ++ more) ctx o := by
  refine ⟨fun raw hraw a ha => ?_, ?_⟩
  · have hlt := h.valid raw hraw a ha
    rw [List.length_append]
    omega
  · rw [← h.value]
    apply Option.map_congr
    intro raw hraw
    rw [read_mono (h.valid raw hraw) more]

lemma Reads.derived (h : Reads E mem ctx o) : Reads E mem (.derived ctx) o := ⟨h.valid, h.value⟩

lemma reads_new (E : Env) (mem : Arrays) (ctx : Context) (md : MD) :
    Reads E mem (newOutgoingContext ctx md) (some (md, [])) := by
  refine ⟨fun raw hraw a ha => ?_, rfl⟩
  cases hraw
  cases ha

/-- The parent's lists and the new one. -/
lemma Reads.append (h : Reads E mem ctx o) (kv : List GoString) :
    Reads E (mem ++ [mem.read (ctx.outgoing.getD ⟨∅, none⟩).added ++ [lowerKeys E kv]])
      (.withOutgoing ctx ⟨(ctx.outgoing.getD ⟨∅, none⟩).md, some mem.length⟩) (o.append kv) := by
  have hvalue := h.value
  constructor
  · intro raw hraw a ha
    cases hraw
    cases ha
    simp
  · have hnew : Arrays.read (mem ++ [mem.read (ctx.outgoing.getD ⟨∅, none⟩).added ++
        [lowerKeys E kv]]) (some mem.length) =
        mem.read (ctx.outgoing.getD ⟨∅, none⟩).added ++ [lowerKeys E kv] := by
      simp [Arrays.read]
    rw [Context.outgoing, Option.map_some, hnew]
    cases hraw : ctx.outgoing with
    | none =>
      rw [hraw, Option.map_none, eq_comm, Option.map_eq_none_iff] at hvalue
      subst hvalue
      rfl
    | some raw =>
      rw [hraw, Option.map_some, eq_comm, Option.map_eq_some_iff] at hvalue
      obtain ⟨⟨md, kvs⟩, rfl, hpair⟩ := hvalue
      obtain ⟨hmd, hadded⟩ := Prod.mk.inj hpair
      dsimp only at hmd hadded
      subst hmd
      simp only [Option.getD_some, Outgoing.append, Option.map_some, ← hadded, List.map_append,
        List.map_singleton]

end Step

/-- Each context made so far reads as the value it stands for. -/
structure Mirrors (E : Env) (s : ContextState) (values : List Outgoing) : Prop where
  length : s.contexts.length = values.length
  reads : ∀ (i : Nat) ctx o, s.contexts[i]? = some ctx → values[i]? = some o → Reads E s.mem ctx o

section Run

variable {E : Env} {s t : ContextState} {values : List Outgoing} {a : ContextAction}

lemma mirrors_init (E : Env) : Mirrors E .init [none] := by
  refine ⟨rfl, fun i ctx o hctx ho => ?_⟩
  cases i with
  | zero =>
    cases hctx
    cases ho
    refine ⟨fun raw hraw => ?_, rfl⟩
    cases hraw
  | succ i => cases hctx

lemma Mirrors.exists_value (hs : Mirrors E s values) {i : Nat} {ctx : Context}
    (h : s.contexts[i]? = some ctx) : ∃ o, values[i]? = some o ∧ Reads E s.mem ctx o := by
  have hlt : i < values.length := hs.length ▸ (List.getElem?_eq_some_iff.mp h).1
  exact ⟨_, List.getElem?_eq_getElem hlt, hs.reads i ctx _ h (List.getElem?_eq_getElem hlt)⟩

lemma Mirrors.push (hs : Mirrors E s values) (more : Arrays) {ctx : Context} {o : Outgoing}
    (hnew : Reads E (s.mem ++ more) ctx o) :
    Mirrors E ({ s with mem := s.mem ++ more }.push ctx) (values ++ [o]) := by
  refine ⟨?_, fun i ctx' o' hctx ho => ?_⟩
  · simp only [ContextState.push, List.length_append, List.length_singleton, hs.length]
  · simp only [ContextState.push] at hctx
    by_cases hi : i < s.contexts.length
    · rw [List.getElem?_append_left hi] at hctx
      rw [List.getElem?_append_left (hs.length ▸ hi)] at ho
      exact (hs.reads i ctx' o' hctx ho).mono more
    · rw [List.getElem?_append_right (not_lt.mp hi)] at hctx
      rw [List.getElem?_append_right (hs.length ▸ not_lt.mp hi)] at ho
      have hc : ctx' ∈ [ctx] := List.mem_of_getElem? hctx
      have hv : o' ∈ [o] := List.mem_of_getElem? ho
      rw [List.mem_singleton.mp hc, List.mem_singleton.mp hv]
      exact hnew

/-- A call makes a context that reads as its value, and touches no array that was there before. -/
lemma Mirrors.step (hs : Mirrors E s values) (h : contextStep E s a = some t) :
    ∃ values', outgoingStep values a = some values' ∧ Mirrors E t values' ∧
      s.mem <+: t.mem ∧ s.contexts <+: t.contexts := by
  have hpush : ∀ ctx o, Reads E s.mem ctx o → Mirrors E (s.push ctx) (values ++ [o]) := by
    intro ctx o hnew
    have hmirrors : Mirrors E ({ s with mem := s.mem ++ [] }.push ctx) (values ++ [o]) :=
      hs.push [] (by rwa [List.append_nil])
    rwa [List.append_nil] at hmirrors
  cases a with
  | derive parent =>
    obtain ⟨ctx, hctx, rfl⟩ := Option.map_eq_some_iff.mp h
    obtain ⟨o, ho, hreads⟩ := hs.exists_value hctx
    refine ⟨values ++ [o], ?_, hpush _ _ hreads.derived, List.prefix_refl _, List.prefix_append _ _⟩
    simp only [outgoingStep, ho, Option.map_some]
  | newOutgoing parent md =>
    obtain ⟨ctx, hctx, rfl⟩ := Option.map_eq_some_iff.mp h
    obtain ⟨o, ho, -⟩ := hs.exists_value hctx
    refine ⟨values ++ [some (md, [])], ?_, hpush _ _ (reads_new E s.mem ctx md), List.prefix_refl _,
      List.prefix_append _ _⟩
    simp only [outgoingStep, ho, Option.map_some]
  | append parent kv =>
    obtain ⟨ctx, hctx, ht⟩ := Option.map_eq_some_iff.mp h
    obtain ⟨o, ho, hreads⟩ := hs.exists_value hctx
    by_cases hodd : kv.length % 2 = 1
    · have hpanic : appendToOutgoingContext E s.mem ctx kv = .error .panic := if_pos hodd
      rw [hpanic] at ht
      subst ht
      refine ⟨values, ?_, hs, List.prefix_refl _, List.prefix_refl _⟩
      simp only [outgoingStep, ho, Option.map_some, if_pos hodd]
    · rw [append_ok E s.mem ctx hodd] at ht
      subst ht
      refine ⟨values ++ [o.append kv], ?_, hs.push _ (hreads.append kv), List.prefix_append _ _,
        List.prefix_append _ _⟩
      simp only [outgoingStep, ho, Option.map_some, if_neg hodd]

lemma Mirrors.run {as : List ContextAction} (hs : Mirrors E s values)
    (h : exec (contextStep E) s as = some t) :
    ∃ values', exec outgoingStep values as = some values' ∧ Mirrors E t values' ∧
      s.mem <+: t.mem ∧ s.contexts <+: t.contexts := by
  induction as generalizing s values with
  | nil =>
    cases h
    exact ⟨values, rfl, hs, List.prefix_refl _, List.prefix_refl _⟩
  | cons a as ih =>
    obtain ⟨r, hr, hrest⟩ := exec_cons_some.mp h
    obtain ⟨values₁, hv₁, hm₁, hmem₁, hctx₁⟩ := hs.step hr
    obtain ⟨values₂, hv₂, hm₂, hmem₂, hctx₂⟩ := ih hm₁ hrest
    exact ⟨values₂, exec_cons_some.mpr ⟨values₁, hv₁, hv₂⟩, hm₂, hmem₁.trans hmem₂,
      hctx₁.trans hctx₂⟩

/-- Later calls do not change what a context returns. -/
lemma Mirrors.fromOutgoing_later {as : List ContextAction} (hs : Mirrors E s values) {i : Nat}
    {ctx : Context} (hctx : s.contexts[i]? = some ctx) (h : exec (contextStep E) s as = some t) :
    t.contexts[i]? = some ctx ∧
      ∀ order, ctx.fromOutgoing E t.mem order = ctx.fromOutgoing E s.mem order := by
  obtain ⟨-, -, -, ⟨more, hmem⟩, ⟨ctxs, hctxs⟩⟩ := hs.run h
  obtain ⟨o, -, hreads⟩ := hs.exists_value hctx
  constructor
  · rw [← hctxs, List.getElem?_append_left (List.getElem?_eq_some_iff.mp hctx).1]
    exact hctx
  · intro order
    unfold Context.fromOutgoing
    cases hraw : ctx.outgoing with
    | none => rfl
    | some raw =>
      dsimp only
      rw [← hmem, read_mono (hreads.valid raw hraw) more]

end Run

/-! ### What `FromOutgoingContext` returns -/

/-- Text in lower case stays what it is. -/
def LowerLaw (E : Env) : Prop := ∀ s, E.toLower (E.toLower s) = E.toLower s

/-- The values of a key-value list whose keys lower-case to `k`. -/
def pairValues (E : Env) (k : GoString) : List GoString → List GoString
  | key :: v :: kv => if E.toLower key = k then v :: pairValues E k kv else pairValues E k kv
  | [_] | [] => []

/-- The values of all keys of a map that lower-case to `k`. -/
def variantValues (E : Env) (entries : List MDEntry) (k : GoString) : List GoString :=
  (entries.filter fun e => E.toLower e.1 = k).flatMap (·.2)

section Values

variable {E : Env}

lemma pairValues_lowerKeys (hE : LowerLaw E) (k : GoString) :
    ∀ kv : List GoString, pairValues E k (lowerKeys E kv) = pairValues E k kv
  | [] => rfl
  | [_] => rfl
  | key :: v :: kv => by
    simp only [lowerKeys, pairValues, hE key, pairValues_lowerKeys hE k kv]

lemma length_lowerKeys (E : Env) : ∀ kv : List GoString, (lowerKeys E kv).length % 2 = 0
  | [] => rfl
  | [_] => rfl
  | key :: v :: kv => by
    have ih := length_lowerKeys E kv
    simp only [lowerKeys, List.length_cons]
    omega

/-- The loop over the pairs of one list. -/
lemma addPairs_ok (E : Env) : ∀ (kv : List GoString) (out : MD), kv.length % 2 = 0 →
    ∃ out', addPairs E out kv = .ok out' ∧ ∀ k, out'.values k = out.values k ++ pairValues E k kv
  | [], out, _ => ⟨out, rfl, fun k => by simp [pairValues]⟩
  | [_], _, h => by cases h
  | key :: v :: kv, out, h => by
    have hrest : kv.length % 2 = 0 := by
      simp only [List.length_cons] at h
      omega
    obtain ⟨out', hok, hvalues⟩ := addPairs_ok E kv (out.push (E.toLower key) [v]) hrest
    refine ⟨out', hok, fun k => ?_⟩
    rw [hvalues k, values_push, pairValues]
    split
    · rw [List.append_assoc, List.singleton_append]
    · rfl

/-- The loop over the appended lists. -/
lemma addAll_ok (E : Env) (kvs : List (List GoString)) (out : MD)
    (h : ∀ kv ∈ kvs, kv.length % 2 = 0) :
    ∃ out', kvs.foldlM (addPairs E) out = .ok out' ∧
      ∀ k, out'.values k = out.values k ++ kvs.flatMap (pairValues E k) := by
  induction kvs generalizing out with
  | nil => exact ⟨out, rfl, fun k => by simp⟩
  | cons kv kvs ih =>
    obtain ⟨out₁, hok₁, hv₁⟩ := addPairs_ok E kv out (h kv List.mem_cons_self)
    obtain ⟨out₂, hok₂, hv₂⟩ := ih out₁ fun kv hkv => h kv (List.mem_cons_of_mem _ hkv)
    refine ⟨out₂, ?_, fun k => ?_⟩
    · rw [List.foldlM_cons, hok₁]
      exact hok₂
    · rw [hv₂ k, hv₁ k, List.flatMap_cons, List.append_assoc]

/-- The first loop of `FromOutgoingContext`, over the map. -/
def baseMap (E : Env) (order : List MDEntry) : MD := putAll (fun e => E.toLower e.1) (·.2) ∅ order

/-- Keys of the map that differ only in case have no values. -/
def NoVariants (E : Env) (md : MD) : Prop :=
  ∀ e ∈ md.entries, ∀ e' ∈ md.entries, e ≠ e' → E.toLower e.1 = E.toLower e'.1 →
    e.2 = [] ∧ e'.2 = []

lemma variantValues_perm {order entries : List MDEntry} (h : order.Perm entries) (k : GoString) :
    (variantValues E order k).Perm (variantValues E entries k) :=
  (h.filter _).flatMap_right _

lemma variantValues_cons_of_eq {e : MDEntry} {k : GoString} (h : E.toLower e.1 = k)
    (entries : List MDEntry) :
    variantValues E (e :: entries) k = e.2 ++ variantValues E entries k := by
  unfold variantValues
  rw [List.filter_cons, if_pos (decide_eq_true h), List.flatMap_cons]

lemma values_baseMap_concat (E : Env) (rest : List MDEntry) (e : MDEntry) :
    (baseMap E (rest ++ [e])).values (E.toLower e.1) = e.2 := by
  unfold MD.values baseMap
  rw [lookup_putAll_concat, if_pos rfl]
  rfl

/-- Where the base of the result has all values for every order, the entry that comes last has the
values of all its variants. -/
lemma noVariants_of_perm (hE : LowerLaw E) {md : MD}
    (h : ∀ order, order.Perm md.entries → ∀ k, E.toLower k = k →
      ((baseMap E order).values k).Perm (variantValues E md.entries k)) : NoVariants E md := by
  have hlast : ∀ e ∈ md.entries, e.2.length = (variantValues E md.entries (E.toLower e.1)).length := by
    intro e he
    have hperm : (md.entries.erase e ++ [e]).Perm md.entries :=
      (List.perm_append_singleton e _).trans (List.perm_cons_erase he).symm
    have hvalues := h _ hperm (E.toLower e.1) (hE e.1)
    rw [values_baseMap_concat] at hvalues
    exact hvalues.length_eq
  intro e he e' he' hne hlower
  have hboth : e.2.length + e'.2.length ≤ (variantValues E md.entries (E.toLower e.1)).length := by
    have hmem : e' ∈ md.entries.erase e := (List.mem_erase_of_ne hne.symm).mpr he'
    have hperm := (List.perm_cons_erase he).trans ((List.perm_cons_erase hmem).cons e)
    rw [(variantValues_perm hperm _).length_eq, variantValues_cons_of_eq rfl,
      variantValues_cons_of_eq hlower.symm, List.length_append, List.length_append]
    omega
  have h₁ := hlast e he
  have h₂ := hlast e' he'
  rw [← hlower] at h₂
  exact ⟨List.length_eq_zero_iff.mp (by omega), List.length_eq_zero_iff.mp (by omega)⟩

lemma variantValues_eq_nil {entries : List MDEntry} {k : GoString}
    (h : ∀ e ∈ entries, E.toLower e.1 = k → e.2 = []) : variantValues E entries k = [] := by
  refine List.flatMap_eq_nil_iff.mpr fun e he => ?_
  obtain ⟨hmem, hk⟩ := List.mem_filter.mp he
  exact h e hmem (of_decide_eq_true hk)

/-- The values of the only key with values that lower-cases to `k`. -/
lemma variantValues_eq_of_mem {entries : List MDEntry} {e : MDEntry} {k : GoString}
    (he : e ∈ entries) (hnodup : entries.Nodup) (hk : E.toLower e.1 = k)
    (hothers : ∀ e' ∈ entries, e' ≠ e → E.toLower e'.1 = k → e'.2 = []) :
    variantValues E entries k = e.2 := by
  obtain ⟨before, after, rfl⟩ := List.append_of_mem he
  obtain ⟨-, hafter, hdisjoint⟩ := List.nodup_append'.mp hnodup
  have hbefore : variantValues E before k = [] := variantValues_eq_nil fun e' he' =>
    hothers e' (List.mem_append_left _ he') fun heq => hdisjoint (heq ▸ he') List.mem_cons_self
  have hbehind : variantValues E after k = [] := variantValues_eq_nil fun e' he' =>
    hothers e' (List.mem_append_right _ (List.mem_cons_of_mem _ he'))
      fun heq => (List.nodup_cons.mp hafter).1 (heq ▸ he')
  have hsplit : variantValues E (before ++ e :: after) k =
      variantValues E before k ++ variantValues E (e :: after) k := by
    unfold variantValues
    rw [List.filter_append, List.flatMap_append]
  rw [hsplit, variantValues_cons_of_eq hk, hbefore, hbehind, List.append_nil, List.nil_append]

/-- Whatever the order, the first loop leaves under each key the values of its variants. -/
lemma NoVariants.values {md : MD} (hmd : NoVariants E md) {order : List MDEntry}
    (horder : order.Perm md.entries) (k : GoString) :
    (baseMap E order).values k = variantValues E md.entries k := by
  by_cases hkey : ∃ e ∈ md.entries, E.toLower e.1 = k
  · obtain ⟨e, he, hk⟩ := hkey
    have hagree : ∀ e' ∈ order, E.toLower e'.1 = k → e'.2 = e.2 := by
      intro e' he' hk'
      by_cases hsame : e' = e
      · rw [hsame]
      · obtain ⟨hnil', hnil⟩ :=
          hmd e' (horder.mem_iff.mp he') e he hsame (hk'.trans hk.symm)
        rw [hnil', hnil]
    have hvalues : (baseMap E order).values k = e.2 := by
      unfold MD.values baseMap
      rw [lookup_putAll_of_agree (horder.mem_iff.mpr he) hk hagree]
      rfl
    rw [hvalues, variantValues_eq_of_mem he md.nodupKeys.nodup hk]
    exact fun e' he' hne hk' => (hmd e' he' e he hne (hk'.trans hk.symm)).1
  · have hne : ∀ e ∈ md.entries, E.toLower e.1 ≠ k := fun e he hk => hkey ⟨e, he, hk⟩
    have hvalues : (baseMap E order).values k = [] := by
      unfold MD.values baseMap
      rw [lookup_putAll_of_ne fun e he => hne e (horder.mem_iff.mp he)]
      rfl
    rw [hvalues, variantValues_eq_nil fun e he hk => absurd hk (hne e he)]

end Values

/-- For every order in which the map is met, the result has under each lower-case key the values of
all its variants in the map, and behind them the appended values in the order of the appends. -/
def Complete (E : Env) (mem : Arrays) (ctx : Context) (md : MD) (kvs : List (List GoString)) : Prop :=
  ∀ order, order.Perm md.entries → ∃ out, ctx.fromOutgoing E mem order = .ok (some out) ∧
    ∀ k, E.toLower k = k → ∃ base, base.Perm (variantValues E md.entries k) ∧
      out.values k = base ++ kvs.flatMap (pairValues E k)

lemma Reads.fromOutgoing {E : Env} (hE : LowerLaw E) {mem : Arrays} {ctx : Context} {md : MD}
    {kvs : List (List GoString)} (h : Reads E mem ctx (some (md, kvs))) (order : List MDEntry) :
    ∃ out, ctx.fromOutgoing E mem order = .ok (some out) ∧
      ∀ k, out.values k = (baseMap E order).values k ++ kvs.flatMap (pairValues E k) := by
  obtain ⟨raw, hraw, hpair⟩ := Option.map_eq_some_iff.mp h.value
  obtain ⟨hmd, hadded⟩ := Prod.mk.inj hpair
  dsimp only at hmd hadded
  obtain ⟨out, hok, hvalues⟩ := addAll_ok E (kvs.map (lowerKeys E)) (baseMap E order) (by
    intro kv hkv
    obtain ⟨kv', -, rfl⟩ := List.mem_map.mp hkv
    exact length_lowerKeys E kv')
  refine ⟨out, ?_, fun k => ?_⟩
  · unfold Context.fromOutgoing
    rw [hraw]
    dsimp only
    rw [hadded]
    have hfrom : fromOutgoingContext E order ⟨raw.md, kvs.map (lowerKeys E)⟩ = .ok out := hok
    rw [hfrom]
    rfl
  · rw [hvalues k, List.flatMap_map]
    simp only [pairValues_lowerKeys hE]

lemma complete_iff {E : Env} (hE : LowerLaw E) {mem : Arrays} {ctx : Context} {md : MD}
    {kvs : List (List GoString)} (h : Reads E mem ctx (some (md, kvs))) :
    Complete E mem ctx md kvs ↔ NoVariants E md := by
  constructor
  · intro hcomplete
    refine noVariants_of_perm hE fun order horder k hk => ?_
    obtain ⟨out, hok, hvalues⟩ := hcomplete order horder
    obtain ⟨out', hok', hvalues'⟩ := h.fromOutgoing hE order
    cases hok.symm.trans hok'
    obtain ⟨base, hbase, heq⟩ := hvalues k hk
    rw [hvalues' k] at heq
    rw [List.append_cancel_right heq]
    exact hbase
  · intro hmd order horder
    obtain ⟨out, hok, hvalues⟩ := h.fromOutgoing hE order
    exact ⟨out, hok, fun k _ => ⟨_, .of_eq (hmd.values horder k), hvalues k⟩⟩

/-- After any calls, each context stands for the map it was given and the lists appended since,
however many contexts were made from its parent before and will be made later. What it returns is
complete exactly if the keys of the map that differ only in case have no values. -/
theorem outgoing_metadata_complete_iff (E : Env) (hE : LowerLaw E) (as : List ContextAction)
    (s : ContextState) (h : exec (contextStep E) .init as = some s) :
    ∃ values, exec outgoingStep [none] as = some values ∧ s.contexts.length = values.length ∧
      ∀ (i : Nat) ctx, s.contexts[i]? = some ctx →
        (∀ bs t, exec (contextStep E) s bs = some t → t.contexts[i]? = some ctx ∧
          ∀ order, ctx.fromOutgoing E t.mem order = ctx.fromOutgoing E s.mem order) ∧
        (values[i]? = some none → ∀ order, ctx.fromOutgoing E s.mem order = .ok none) ∧
        ∀ md kvs, values[i]? = some (some (md, kvs)) →
          (Complete E s.mem ctx md kvs ↔ NoVariants E md) := by
  obtain ⟨values, hvalues, hmirrors, -, -⟩ := (mirrors_init E).run h
  refine ⟨values, hvalues, hmirrors.length, fun i ctx hctx => ⟨?_, ?_, ?_⟩⟩
  · exact fun bs t ht => hmirrors.fromOutgoing_later hctx ht
  · intro hnone order
    have hvalue := (hmirrors.reads i ctx none hctx hnone).value
    rw [Option.map_none, Option.map_eq_none_iff] at hvalue
    unfold Context.fromOutgoing
    rw [hvalue]
  · exact fun md kvs hsome => complete_iff hE (hmirrors.reads i ctx _ hctx hsome)

lemma lowerByte_lowerByte (c : UInt8) : lowerByte (lowerByte c) = lowerByte c := by
  unfold lowerByte
  grind

lemma lowerByte_lt {c : UInt8} (h : c < 128) : lowerByte c < 128 := by
  unfold lowerByte
  grind

lemma storedEnv_lowerLaw : LowerLaw storedEnv := by
  intro s
  unfold Env.toLower
  by_cases hs : s.all (· < 128) = true
  · have hlower : (s.map lowerByte).all (· < 128) = true := by
      rw [List.all_eq_true] at hs ⊢
      intro c hc
      obtain ⟨c', hc', rfl⟩ := List.mem_map.mp hc
      exact decide_eq_true (lowerByte_lt (of_decide_eq_true (hs c' hc')))
    simp only [hs, hlower, if_true, List.map_map]
    apply List.map_congr_left
    exact fun c _ => lowerByte_lowerByte c
  · simp only [hs]
    exact if_neg hs

/-- Two contexts made from one by appending to it. -/
theorem outgoing_metadata_two_appends :
    ∃ s ctx, exec (contextStep storedEnv) .init [.newOutgoing 0 (MD.new storedEnv [(str "A", str "1")]),
        .append 1 [str "A", str "2"], .append 1 [str "B", str "3"]] = some s ∧
      s.contexts[2]? = some ctx ∧
      Complete storedEnv s.mem ctx (MD.new storedEnv [(str "A", str "1")]) [[str "A", str "2"]] := by
  obtain ⟨s, hs⟩ : ∃ s, exec (contextStep storedEnv) .init
      [.newOutgoing 0 (MD.new storedEnv [(str "A", str "1")]), .append 1 [str "A", str "2"],
        .append 1 [str "B", str "3"]] = some s := ⟨_, rfl⟩
  obtain ⟨values, hvalues, hlen, hall⟩ :=
    outgoing_metadata_complete_iff storedEnv storedEnv_lowerLaw _ s hs
  cases hvalues
  have hlt : 2 < s.contexts.length := by
    rw [hlen]
    decide
  refine ⟨s, s.contexts[2], hs, List.getElem?_eq_getElem hlt, ?_⟩
  refine ((hall 2 _ (List.getElem?_eq_getElem hlt)).2.2 _ _ rfl).mpr ?_
  intro e he e' he' hne
  rw [List.mem_singleton.mp he, List.mem_singleton.mp he'] at hne
  exact absurd rfl hne

/-- A map with two spellings of one key. -/
def twoSpellings : MD := ((∅ : MD).insert (str "A") [str "1"]).insert (str "a") [str "2"]

/-- One of the two values is lost, and the iteration order decides which. -/
theorem outgoing_metadata_two_spellings :
    ∃ s ctx, exec (contextStep storedEnv) .init [.newOutgoing 0 twoSpellings] = some s ∧
      s.contexts[1]? = some ctx ∧ ¬Complete storedEnv s.mem ctx twoSpellings [] ∧
      (ctx.fromOutgoing storedEnv s.mem twoSpellings.entries).toOption.join.map
        (·.values (str "a")) = some [str "1"] ∧
      (ctx.fromOutgoing storedEnv s.mem twoSpellings.entries.reverse).toOption.join.map
        (·.values (str "a")) = some [str "2"] := by
  refine ⟨_, _, rfl, rfl, fun h => ?_, by decide, by decide⟩
  have hmd := (complete_iff storedEnv_lowerLaw (reads_new storedEnv [] .background twoSpellings)).mp h
  have hnil := hmd ⟨str "a", [str "2"]⟩ (by decide) ⟨str "A", [str "1"]⟩ (by decide) (by decide)
    (by decide)
  exact absurd hnil.1 (by decide)

end Zrpc.Proofs
