import Mathlib.Data.List.Dedup
import Mathlib.Data.List.Perm.Basic
import Zrpc.EtcdDiscovery

/-!
# Which services a discovery in etcd finds

A discovery for `X` reads every key that starts with `service/X/`. A slash in a name or an address
can put the key of another service there.
-/

namespace Zrpc.Proofs

open Zrpc.Lib EtcdDiscovery

/-- The addresses registered under a name. -/
def addressesOf (X : GoString) (registrations : List EtcdService) : List GoString :=
  ((registrations.filter fun r => r.serviceName = X).map (·.serviceAddr)).dedup

lemma mem_addressesOf {X a : GoString} {rs : List EtcdService} :
    a ∈ addressesOf X rs ↔ ⟨X, a⟩ ∈ rs := by
  unfold addressesOf
  rw [List.mem_dedup, List.mem_map]
  constructor
  · rintro ⟨r, hr, rfl⟩
    obtain ⟨hmem, hname⟩ := List.mem_filter.mp hr
    rw [decide_eq_true_iff] at hname
    exact hname ▸ hmem
  · intro h
    exact ⟨⟨X, a⟩, List.mem_filter.mpr ⟨h, by simp⟩, rfl⟩

lemma nodup_addressesOf (X : GoString) (rs : List EtcdService) : (addressesOf X rs).Nodup :=
  List.nodup_dedup _

/-- No key of another service starts like the keys of `X`. -/
def Separated (X : GoString) (registrations : List EtcdService) : Prop :=
  ∀ r ∈ registrations, r.serviceName ≠ X → ¬getKeyPrefix X <+: r.key

section Keys

variable {X : GoString} {rs : List EtcdService} {r : EtcdService}

lemma key_eq (X a : GoString) : EtcdService.key ⟨X, a⟩ = getKeyPrefix X ++ a := rfl

lemma key_injective {a b : GoString} (h : EtcdService.key ⟨X, a⟩ = EtcdService.key ⟨X, b⟩) :
    a = b := by
  rw [key_eq, key_eq] at h
  exact List.append_cancel_left h

lemma name_of_key_eq (h : r.key = EtcdService.key ⟨X, r.serviceAddr⟩) : r.serviceName = X := by
  have hfront := List.append_cancel_right (List.append_cancel_right h)
  exact List.append_cancel_left hfront

lemma Separated.eq_of_key (hsep : Separated X rs) (hr : r ∈ rs) {a : GoString}
    (h : r.key = EtcdService.key ⟨X, a⟩) : r = ⟨X, a⟩ := by
  have hname : r.serviceName = X := by
    by_contra hne
    refine hsep r hr hne ?_
    rw [h, key_eq]
    exact List.prefix_append _ _
  obtain ⟨name, addr⟩ := r
  cases hname
  rw [key_injective h]

/-- The entries of an answer for `X` are the registrations under `X`. -/
lemma Separated.lookup_iff (hsep : Separated X rs) {k a : GoString} :
    (etcdKeys rs).lookup k = some a ∧ getKeyPrefix X <+: k ↔
      k = EtcdService.key ⟨X, a⟩ ∧ ⟨X, a⟩ ∈ rs := by
  constructor
  · rintro ⟨hlookup, hfront⟩
    obtain ⟨r, hr, rfl, rfl⟩ := exists_of_lookup_putAll hlookup
    have hname : r.serviceName = X := by
      by_contra hne
      exact hsep r hr hne hfront
    subst hname
    exact ⟨rfl, hr⟩
  · rintro ⟨rfl, hmem⟩
    refine ⟨lookup_putAll_of_agree hmem rfl fun r hr hkey => ?_, List.prefix_append _ _⟩
    rw [hsep.eq_of_key hr hkey]

end Keys

section Answers

variable {store : EtcdKeys} {front : GoString} {kvs : List (Sigma fun _ : GoString => GoString)}

lemma mem_answers (h : Answers store front kvs) {k a : GoString} :
    ⟨k, a⟩ ∈ kvs ↔ store.lookup k = some a ∧ front <+: k := by
  have hentry : ⟨k, a⟩ ∈ store.entries ↔ store.lookup k = some a := AList.mem_lookup_iff.symm
  rw [h.mem_iff, List.mem_filter, hentry, List.isPrefixOf_iff_prefix]

lemma nodup_answers (h : Answers store front kvs) : kvs.Nodup :=
  h.nodup_iff.mpr (store.nodupKeys.nodup.filter _)

end Answers

/-- Whatever the order of the registrations and of the answer, `Refresh` for `X` yields each address
registered under `X` once and nothing else. -/
def FindsExactly (X : GoString) (registrations : List EtcdService) : Prop :=
  ∀ order kvs, order.Perm registrations → Answers (etcdKeys order) (getKeyPrefix X) kvs →
    (refresh kvs).Perm (addressesOf X registrations)

lemma Separated.findsExactly {X : GoString} {rs : List EtcdService} (hsep : Separated X rs) :
    FindsExactly X rs := by
  intro order kvs hperm hans
  have hsep' : Separated X order := fun r hr => hsep r (hperm.mem_iff.mp hr)
  have hmem : ∀ k a, ⟨k, a⟩ ∈ kvs ↔ k = EtcdService.key ⟨X, a⟩ ∧ ⟨X, a⟩ ∈ order :=
    fun k a => (mem_answers hans).trans hsep'.lookup_iff
  have hnodup : (refresh kvs).Nodup := by
    apply List.Nodup.map_on _ (nodup_answers hans)
    rintro ⟨k, a⟩ hk ⟨k', a'⟩ hk' haddr
    cases haddr
    rw [((hmem k a).mp hk).1, ((hmem k' a).mp hk').1]
  refine (List.perm_ext_iff_of_nodup hnodup (nodup_addressesOf X rs)).mpr fun a => ?_
  rw [mem_addressesOf, ← hperm.mem_iff]
  constructor
  · intro ha
    obtain ⟨⟨k, a'⟩, hk, rfl⟩ := List.mem_map.mp ha
    exact ((hmem k a').mp hk).2
  · intro ha
    exact List.mem_map.mpr ⟨⟨_, a⟩, (hmem _ a).mpr ⟨rfl, ha⟩, rfl⟩

lemma perm_foreign_own (X : GoString) {rs : List EtcdService} {f : EtcdService} (hf : f ∈ rs) :
    ((rs.erase f).filter (fun r => !decide (r.serviceName = X)) ++
      (rs.erase f).filter (fun r => decide (r.serviceName = X)) ++ [f]).Perm rs := by
  have hsplit := List.filter_append_perm (fun r : EtcdService => decide (r.serviceName = X)) (rs.erase f)
  have hrest := (List.perm_append_comm.trans hsplit).append_right [f]
  exact (hrest.trans (List.perm_append_singleton f _)).trans (List.perm_cons_erase hf).symm

/-- A foreign registration that comes last is found, and if its address is also one of `X`, that
address is found twice. -/
lemma separated_of_findsExactly {X : GoString} {rs : List EtcdService} (hfinds : FindsExactly X rs) :
    Separated X rs := by
  intro f hf hne hfront
  have hperm := perm_foreign_own X hf
  set foreign := (rs.erase f).filter fun r => !decide (r.serviceName = X)
  set own := (rs.erase f).filter fun r => decide (r.serviceName = X) with hown
  have hans : Answers (etcdKeys (foreign ++ own ++ [f])) (getKeyPrefix X) _ := .refl _
  have hfound := hfinds _ _ hperm hans
  have hnodup := hfound.nodup_iff.mpr (nodup_addressesOf X rs)
  have hlast : (etcdKeys (foreign ++ own ++ [f])).lookup f.key = some f.serviceAddr := by
    unfold etcdKeys
    rw [lookup_putAll_concat, if_pos rfl]
  have hfmem := (mem_answers hans).mpr ⟨hlast, hfront⟩
  have hshared : ⟨X, f.serviceAddr⟩ ∈ rs :=
    mem_addressesOf.mp (hfound.mem_iff.mp (List.mem_map.mpr ⟨_, hfmem, rfl⟩))
  have hmem : ⟨X, f.serviceAddr⟩ ∈ own := by
    refine List.mem_filter.mpr ⟨(List.mem_erase_of_ne fun h => ?_).mpr hshared, by simp⟩
    exact hne (congrArg EtcdService.serviceName h).symm
  have hkey : f.key ≠ EtcdService.key ⟨X, f.serviceAddr⟩ := fun h => hne (name_of_key_eq h)
  have hsecond : (etcdKeys (foreign ++ own ++ [f])).lookup (EtcdService.key ⟨X, f.serviceAddr⟩) =
      some f.serviceAddr := by
    unfold etcdKeys
    rw [lookup_putAll_concat, if_neg hkey, putAll_append]
    refine lookup_putAll_of_agree hmem rfl fun r hr hrkey => ?_
    obtain ⟨name, addr⟩ := r
    have hname := (List.mem_filter.mp hr).2
    rw [decide_eq_true_iff] at hname
    cases hname
    exact key_injective hrkey
  have hgmem := (mem_answers hans).mpr ⟨hsecond, List.prefix_append _ _⟩
  have hsame := List.inj_on_of_nodup_map hnodup hfmem hgmem rfl
  exact hkey (congrArg Sigma.fst hsame)

/-- Names without a slash keep the keys apart. -/
lemma separated_of_no_slash {X : GoString} {rs : List EtcdService} (hX : 47 ∉ X)
    (hrs : ∀ r ∈ rs, 47 ∉ r.serviceName) : Separated X rs := by
  rintro r hr hne ⟨rest, heq⟩
  have hslash : str "/" = [47] := by decide
  have hname : ∀ {name : GoString} (tail : GoString), 47 ∉ name →
      (name ++ 47 :: tail).takeWhile (fun c => c ≠ 47) = name := by
    intro name tail hmem
    have hall : ∀ c ∈ name, decide (c ≠ 47) = true := fun c hc =>
      decide_eq_true fun h => hmem (h ▸ hc)
    rw [List.takeWhile_append_of_pos hall]
    simp
  simp only [EtcdService.key, getKeyPrefix, hslash, List.append_assoc, List.singleton_append] at heq
  have htails := List.append_cancel_left heq
  refine hne ?_
  rw [← hname rest hX, htails, hname _ (hrs r hr)]

/-- `Refresh` for `X` finds exactly the addresses of `X`, whatever the order, exactly if no key of
another service starts with `service/X/`. -/
theorem refresh_exact_iff (X : GoString) (registrations : List EtcdService) :
    FindsExactly X registrations ↔ Separated X registrations :=
  ⟨separated_of_findsExactly, Separated.findsExactly⟩

/-- A discovery for `a` finds the only server of `a/b`. -/
theorem refresh_finds_other_service :
    ¬FindsExactly (str "a") [⟨str "a/b", str "c"⟩] ∧
      addressesOf (str "a") [⟨str "a/b", str "c"⟩] = [] ∧
      ∃ kvs, Answers (etcdKeys [⟨str "a/b", str "c"⟩]) (getKeyPrefix (str "a")) kvs ∧
        refresh kvs = [str "c"] := by
  have hnone : addressesOf (str "a") [⟨str "a/b", str "c"⟩] = [] := by decide
  have hans : Answers (etcdKeys [⟨str "a/b", str "c"⟩]) (getKeyPrefix (str "a"))
      [⟨EtcdService.key ⟨str "a/b", str "c"⟩, str "c"⟩] := .refl _
  refine ⟨fun h => ?_, hnone, _, hans, rfl⟩
  have hperm := h _ _ (.refl _) hans
  rw [hnone] at hperm
  exact absurd hperm.length_eq (by decide)

end Zrpc.Proofs
