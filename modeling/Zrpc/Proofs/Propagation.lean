import Zrpc.Proofs.OutgoingContext
import Zrpc.Proofs.RemoteCall
import Zrpc.Proofs.SystemWire
import Zrpc.Proofs.Timeout

/-!
# What a call carries to the server

The metadata and the deadline of the caller's context, followed to the context of the handler in the
runs of a server. The keys of the outgoing metadata are lower-case, so that nothing is merged or
reordered on the way.
-/

namespace Zrpc.Proofs

open Zrpc.Lib

variable {V T : Type} {E : Env}

/-! ### Lower-case keys -/

def LowerKeyed (E : Env) (md : MD) : Prop := ∀ k ∈ md, E.toLower k = k

lemma lowerKeyed_empty : LowerKeyed E ∅ := by
  intro k hk
  cases hk

lemma LowerKeyed.insert {md : MD} (h : LowerKeyed E md) {k : GoString} (hk : E.toLower k = k)
    (vs : List GoString) : LowerKeyed E (md.insert k vs) := by
  intro k' hk'
  rcases (AList.mem_insert md).mp hk' with rfl | hold
  · exact hk
  · exact h k' hold

lemma LowerKeyed.push {md : MD} (h : LowerKeyed E md) {k : GoString} (hk : E.toLower k = k)
    (vs : List GoString) : LowerKeyed E (md.push k vs) := h.insert hk _

lemma LowerKeyed.entry {md : MD} (h : LowerKeyed E md) {e : MDEntry} (he : e ∈ md.entries) :
    E.toLower e.1 = e.1 := h e.1 (List.mem_keys_of_mem he)

lemma LowerKeyed.joinInto {out md : MD} (hout : LowerKeyed E out) (hmd : LowerKeyed E md) :
    LowerKeyed E (MD.joinInto out md) := by
  unfold MD.joinInto
  have hall : ∀ e ∈ md.entries, E.toLower e.1 = e.1 := fun e he => hmd.entry he
  generalize md.entries = es at hall
  induction es generalizing out with
  | nil => exact hout
  | cons e es ih =>
    exact ih (hout.push (hall e List.mem_cons_self) e.2) fun e' he' =>
      hall e' (List.mem_cons_of_mem _ he')

lemma lowerKeyed_pairsLoop (hE : LowerLaw E) : ∀ (kv : List GoString) (md md' : MD),
    LowerKeyed E md → MD.pairsLoop E md kv = .ok md' → LowerKeyed E md'
  | [], _, _, hmd, h => Except.ok.inj h ▸ hmd
  | [_], _, _, _, h => by cases h
  | key :: v :: kv, md, md', hmd, h =>
    lowerKeyed_pairsLoop hE kv _ md' (hmd.push (hE key) [v]) h

lemma lowerKeyed_putAll (hE : LowerLaw E) (order : List MDEntry) {md : MD} (hmd : LowerKeyed E md) :
    LowerKeyed E (order.foldl (fun out e => out.insert (E.toLower e.1) e.2) md) := by
  induction order generalizing md with
  | nil => exact hmd
  | cons e order ih => exact ih (hmd.insert (hE e.1) e.2)

lemma lowerKeyed_foldlM (hE : LowerLaw E) (added : List (List GoString)) {md md' : MD}
    (hmd : LowerKeyed E md) (h : added.foldlM (addPairs E) md = .ok md') : LowerKeyed E md' := by
  induction added generalizing md with
  | nil => exact Except.ok.inj h ▸ hmd
  | cons kv added ih =>
    rw [List.foldlM_cons] at h
    obtain ⟨next, hnext, hrest⟩ := bind_eq_ok h
    exact ih (lowerKeyed_pairsLoop hE kv md next hmd hnext) hrest

/-- `FromOutgoingContext`, with an empty map where there is no outgoing metadata. -/
def outgoingMetadata (E : Env) (order : List MDEntry) (outgoing : Option RawMD) : Go MD :=
  match outgoing with
  | none => .ok ∅
  | some raw => fromOutgoingContext E order raw

lemma lowerKeyed_outgoing (hE : LowerLaw E) {order : List MDEntry} {outgoing : Option RawMD} {md : MD}
    (h : outgoingMetadata E order outgoing = .ok md) : LowerKeyed E md := by
  unfold outgoingMetadata at h
  split at h
  · exact Except.ok.inj h ▸ lowerKeyed_empty
  · exact lowerKeyed_foldlM hE _ (lowerKeyed_putAll hE order lowerKeyed_empty) h

/-! ### The caller's own values -/

/-- What a caller has put under a key, in any spelling: in the map of its context, and behind it with
`AppendToOutgoingContext`. -/
def callerValues (E : Env) (outgoing : Option RawMD) (k : GoString) : List GoString :=
  match outgoing with
  | none => []
  | some raw => variantValues E raw.md.entries k ++ raw.added.flatMap (pairValues E k)

lemma even_of_addPairs : ∀ (kv : List GoString) {out out' : MD},
    addPairs E out kv = .ok out' → kv.length % 2 = 0
  | [], _, _, _ => rfl
  | [_], _, _, h => by cases h
  | key :: v :: kv, out, out', h => by
    have hrest : kv.length % 2 = 0 := even_of_addPairs kv h
    simp only [List.length_cons]
    omega

lemma even_of_addAll {added : List (List GoString)} {out out' : MD}
    (h : added.foldlM (addPairs E) out = .ok out') : ∀ kv ∈ added, kv.length % 2 = 0 := by
  induction added generalizing out with
  | nil =>
    intro kv hkv
    cases hkv
  | cons kv added ih =>
    rw [List.foldlM_cons] at h
    obtain ⟨next, hnext, hrest⟩ := bind_eq_ok h
    intro kv' hkv'
    rcases List.mem_cons.mp hkv' with rfl | hmem
    · exact even_of_addPairs _ hnext
    · exact ih hrest kv' hmem

/-- The output of `FromOutgoingContext` has the caller's values, if no two spellings of a key in the
map have values. -/
lemma values_outgoing {order : List MDEntry} {outgoing : Option RawMD} {user : MD}
    (h : outgoingMetadata E order outgoing = .ok user)
    (hmd : ∀ raw ∈ outgoing, order.Perm raw.md.entries ∧ NoVariants E raw.md) (k : GoString) :
    user.values k = callerValues E outgoing k := by
  cases outgoing with
  | none =>
    cases h
    rfl
  | some raw =>
    obtain ⟨horder, hvariants⟩ := hmd raw rfl
    have hfold : raw.added.foldlM (addPairs E) (baseMap E order) = .ok user := h
    obtain ⟨out, hout, hvalues⟩ := addAll_ok E raw.added (baseMap E order) (even_of_addAll hfold)
    cases hout.symm.trans hfold
    rw [hvalues, hvariants.values horder]
    rfl

/-! ### The metadata of a request -/

lemma toLower_userAgentHeader (E : Env) : E.toLower userAgentHeader = userAgentHeader := by
  unfold Env.toLower
  rw [if_pos (by decide)]
  decide

lemma toLower_timeoutHeader (E : Env) : E.toLower timeoutHeader = timeoutHeader := by
  unfold Env.toLower
  rw [if_pos (by decide)]
  decide

/-- What `prepareMessage` puts into a request that carries the metadata `user`. -/
structure CarriedBy (E : Env) (user : MD) (timeout : Option Int) (md : MD) : Prop where
  lower : LowerKeyed E md
  values : ∀ k, k ≠ timeoutHeader →
    md.values k = user.values k ++ if k = userAgentHeader then [userAgent] else []
  timeout : md.values timeoutHeader = match timeout with
    | some t => if 0 < t then [encodeTimeout t] else user.values timeoutHeader
    | none => user.values timeoutHeader

lemma requestMetadata_values (hE : LowerLaw E) {order : List MDEntry} {ctx : CallCtx} {md : MD}
    (h : requestMetadata E order ctx = .ok md) :
    ∃ user, outgoingMetadata E order ctx.outgoing = .ok user ∧ LowerKeyed E md ∧
      ∀ k, md.values k = user.values k ++ if k = userAgentHeader then [userAgent] else [] := by
  have hagent : LowerKeyed E (MD.new E [(userAgentHeader, userAgent)]) :=
    lowerKeyed_empty.push (by rw [toLower_userAgentHeader, toLower_userAgentHeader]) _
  have hvalues : ∀ k, (MD.new E [(userAgentHeader, userAgent)]).values k =
      if k = userAgentHeader then [userAgent] else [] := by
    intro k
    rw [values_new, toLower_userAgentHeader]
    exact if_congr eq_comm rfl rfl
  unfold requestMetadata at h
  cases hctx : ctx.outgoing with
  | none =>
    rw [hctx] at h
    refine ⟨∅, rfl, ?_⟩
    rw [← Except.ok.inj h]
    exact ⟨hagent, fun k => by rw [hvalues, values_empty, List.nil_append]⟩
  | some raw =>
    rw [hctx] at h
    obtain ⟨user, huser, hret⟩ := bind_eq_ok h
    have hout : outgoingMetadata E order (some raw) = .ok user := huser
    refine ⟨user, hout, ?_⟩
    rw [← Except.ok.inj hret]
    have hlower := lowerKeyed_outgoing hE hout
    exact ⟨(lowerKeyed_empty.joinInto hlower).joinInto hagent,
      fun k => by rw [values_join_pair, hvalues]⟩

lemma carriedBy_addTimeout (hE : LowerLaw E) {order : List MDEntry} {ctx : CallCtx} {md : MD}
    (h : requestMetadata E order ctx = .ok md) :
    ∃ user, outgoingMetadata E order ctx.outgoing = .ok user ∧
      CarriedBy E user ctx.timeout (addTimeout E ctx.timeout md) := by
  obtain ⟨user, huser, hlower, hvalues⟩ := requestMetadata_values hE h
  refine ⟨user, huser, ?_⟩
  have hplain : md.values timeoutHeader = user.values timeoutHeader := by
    rw [hvalues, if_neg (by decide), List.append_nil]
  unfold addTimeout
  cases ctx.timeout with
  | none => exact ⟨hlower, fun k _ => hvalues k, hplain⟩
  | some t =>
    dsimp only
    by_cases ht : 0 < t
    · rw [if_pos ht]
      have hset : md.set E timeoutHeader [encodeTimeout t] =
          md.insert timeoutHeader [encodeTimeout t] := by
        rw [← toLower_timeoutHeader E]
        simp [MD.set, toLower_timeoutHeader]
      rw [hset]
      refine ⟨hlower.insert (toLower_timeoutHeader E) _, fun k hk => ?_, ?_⟩
      · rw [values_insert, if_neg (Ne.symm hk), hvalues]
      · rw [values_insert, if_pos rfl]
        exact (if_pos ht).symm
    · rw [if_neg ht]
      exact ⟨hlower, fun k _ => hvalues k, hplain.trans (if_neg ht).symm⟩

/-! ### The wire, and the server's context -/

lemma values_appendAll_lower {md : MD} (h : LowerKeyed E md) {order : List MDEntry}
    (hperm : order.Perm md.entries) (k : GoString) : (appendAll E ∅ order).values k = md.values k := by
  rw [values_appendAll, values_empty, List.nil_append, ← values_of_order hperm k]
  congr 1
  apply List.filter_congr
  intro e he
  rw [h.entry (hperm.subset he)]

lemma lowerKeyed_appendAll (hE : LowerLaw E) (order : List MDEntry) {md : MD}
    (hmd : LowerKeyed E md) : LowerKeyed E (appendAll E md order) := by
  have hvalues : ∀ (k : GoString) (vs : List GoString) (md : MD), LowerKeyed E md →
      LowerKeyed E (vs.foldl (fun md v => md.append E k [v]) md) := by
    intro k vs
    induction vs with
    | nil => exact fun _ h => h
    | cons v vs ih => exact fun md h => ih _ (h.push (hE k) [v])
  induction order generalizing md with
  | nil => exact hmd
  | cons e order ih => exact ih (hvalues e.1 e.2 md hmd)

/-- Every order in which the incoming metadata is met gives the same values. -/
lemma values_fromInComingContext {md : MD} (h : LowerKeyed E md) (order : MDOrder md)
    (k : GoString) : (fromInComingContext E md order).values k = md.values k := by
  have hbase : fromInComingContext E md order = baseMap E order.1 := rfl
  rw [hbase]
  have hkey : ∀ e ∈ order.1, E.toLower e.1 = e.1 := fun e he => h.entry (order.2.subset he)
  unfold MD.values baseMap
  cases hk : md.lookup k with
  | some vs =>
    have hmem : (⟨k, vs⟩ : MDEntry) ∈ order.1 := order.2.symm.subset (AList.mem_lookup_iff.mp hk)
    rw [lookup_putAll_of_agree hmem (hkey _ hmem)]
    intro e he hek
    rw [hkey e he] at hek
    have hlookup : md.lookup e.1 = some e.2 := AList.mem_lookup_iff.mpr (order.2.subset he)
    rw [hek, hk] at hlookup
    exact (Option.some.inj hlookup).symm
  | none =>
    rw [lookup_putAll_of_ne]
    · rfl
    intro e he hek
    rw [hkey e he] at hek
    have hlookup : md.lookup e.1 = some e.2 := AList.mem_lookup_iff.mpr (order.2.subset he)
    rw [hek, hk] at hlookup
    cases hlookup

lemma CarriedBy.of_wire (hE : LowerLaw E) {user md : MD} {timeout : Option Int}
    (h : CarriedBy E user timeout md) {order : List MDEntry} (hperm : order.Perm md.entries) :
    CarriedBy E user timeout (appendAll E ∅ order) := by
  have hvalues := values_appendAll_lower h.lower hperm
  exact ⟨lowerKeyed_appendAll hE order lowerKeyed_empty,
    fun k hk => (hvalues k).trans (h.values k hk), (hvalues _).trans h.timeout⟩

lemma prepareMessage_carriedBy (hE : LowerLaw E) {P : Proto V T} {order : List MDEntry}
    {call : Call V} {ctx : CallCtx} {req : Message}
    (h : prepareMessage E P order call ctx = .ok req) :
    req.serviceName = call.serviceName ∧ req.serviceMethod = call.serviceMethod ∧
    ∃ user, outgoingMetadata E order ctx.outgoing = .ok user ∧
      CarriedBy E user ctx.timeout req.metadata := by
  unfold prepareMessage at h
  split at h
  · cases h
  · obtain ⟨md, hmd, hret⟩ := bind_eq_ok h
    rw [← Except.ok.inj hret]
    exact ⟨rfl, rfl, carriedBy_addTimeout hE hmd⟩

lemma requestCtx_spec {req : Message} {ctx : Ctx} (h : requestCtx E req = .ok ctx) :
    ctx.incoming = req.metadata ∧
      (req.metadata.values timeoutHeader = [] → ctx.timeout = none) ∧
      ∀ v d, req.metadata.values timeoutHeader = [v] → decodeTimeout E v = .ok d → 0 < d →
        ctx.timeout = some d := by
  have hget : req.metadata.get E timeoutHeader = req.metadata.values timeoutHeader := by
    unfold MD.get
    rw [toLower_timeoutHeader]
  unfold requestCtx at h
  rw [hget] at h
  cases hvalues : req.metadata.values timeoutHeader with
  | nil =>
    rw [hvalues] at h
    rw [← Except.ok.inj h]
    exact ⟨rfl, fun _ => rfl, by simp⟩
  | cons v rest =>
    rw [hvalues] at h
    dsimp only at h
    cases hd : decodeTimeout E v with
    | ok d =>
      rw [hd] at h
      rw [← Except.ok.inj h]
      refine ⟨rfl, by simp, fun v' d' hv hd' hpos => ?_⟩
      cases hv
      cases hd.symm.trans hd'
      exact if_pos hpos
    | error fault =>
      rw [hd] at h
      cases fault with
      | panic => cases h
      | error text =>
        rw [← Except.ok.inj h]
        refine ⟨rfl, by simp, fun v' d' hv hd' _ => ?_⟩
        cases hv
        cases hd.symm.trans hd'

/-- The server reads a timeout at most a hundred-thousandth longer. -/
lemma propagatedTimeout_le {t : Int} (ht : 0 < t) (hlt : t < 2 ^ 63) :
    propagatedTimeout t ≤ t + t / 99999 := by
  have hcount := timeoutCount_spec ht hlt
  have hunit : (timeoutUnitOf t).2 ≤ t / 99999 + 1 := by
    unfold timeoutUnitOf
    split_ifs <;> dsimp only <;> omega
  rw [propagatedTimeout_of_pos ht]
  omega

lemma requestCtx_of_authorize {P : Proto V T} {S : Server V T} {c : ∀ md, EncodeChoice md}
    {req : Message} {ctx : Ctx} (h : S.authorize E P c req = .ok (.inl ctx)) :
    requestCtx E req = .ok ctx := by
  obtain ⟨ctx', hctx, hrest⟩ := bind_eq_ok h
  dsimp only at hrest
  split at hrest
  · cases hrest
    exact hctx
  · cases hrest
  · next err _ =>
    cases hrej : S.reject E P c req err with
    | ok sent =>
      rw [hrej] at hrest
      cases hrest
    | error e =>
      rw [hrej] at hrest
      cases hrest

/-! ### Runs of a server -/

/-- A request as a client makes it: the call, its context at that moment, the order in which the map
of the context is met, and the sequence number. -/
structure Outbound (V : Type) where
  call : Call V
  ctx : CallCtx
  order : List MDEntry
  seq : UInt64

/-- The message that `sendMsg` writes for it, which fits the frame format. -/
def Outbound.Writes (E : Env) (P : Proto V T) (r : Outbound V) (m : Message) : Prop :=
  Carried E m ∧ (∀ raw ∈ r.ctx.outgoing, r.order.Perm raw.md.entries) ∧
    ∃ req, prepareMessage E P r.order r.call r.ctx = .ok req ∧ m = stampRequest r.seq req

/-- What the context of a handler has of the context of its caller. -/
structure ContextCarried (E : Env) (caller : CallCtx) (ctx : Ctx) : Prop where
  values : (∀ raw ∈ caller.outgoing, NoVariants E raw.md) → ∀ ranged k, k ≠ timeoutHeader →
    (fromInComingContext E ctx.incoming ranged).values k =
      callerValues E caller.outgoing k ++ if k = userAgentHeader then [userAgent] else []
  deadline : ∀ left, caller.timeout = some left → 0 < left → left < 2 ^ 63 →
    ∃ d, ctx.timeout = some d ∧ left ≤ d ∧ d ≤ left + left / 99999 ∧ ctx.cancelledOnReturn = true
  unlimited : (∀ raw ∈ caller.outgoing, NoVariants E raw.md) →
    (∀ left, caller.timeout = some left → left ≤ 0) →
    callerValues E caller.outgoing timeoutHeader = [] →
      ctx.timeout = none ∧ ctx.cancelledOnReturn = false

lemma contextCarried_of_carriedBy {user : MD} {caller : CallCtx} {req : Message} {ctx : Ctx}
    (h : CarriedBy E user caller.timeout req.metadata) (hctx : requestCtx E req = .ok ctx)
    (huser : (∀ raw ∈ caller.outgoing, NoVariants E raw.md) →
      ∀ k, user.values k = callerValues E caller.outgoing k) : ContextCarried E caller ctx := by
  obtain ⟨hincoming, hnone, hsome⟩ := requestCtx_spec hctx
  refine ⟨fun hmd ranged k hk => ?_, fun left hleft hpos hlt => ?_, fun hmd hleft hempty => ?_⟩
  · revert ranged
    rw [hincoming]
    intro ranged
    rw [values_fromInComingContext h.lower, h.values k hk, huser hmd]
  · have hvalues := h.timeout
    rw [hleft] at hvalues
    dsimp only at hvalues
    rw [if_pos hpos] at hvalues
    have hle := le_propagatedTimeout hlt
    have htimeout := hsome _ _ hvalues (decodeTimeout_encodeTimeout E hlt) (by omega)
    refine ⟨propagatedTimeout left, htimeout, by omega, propagatedTimeout_le hpos hlt, ?_⟩
    rw [Ctx.cancelledOnReturn, htimeout]
    rfl
  · have htimeout : ctx.timeout = none := by
      apply hnone
      rw [h.timeout, ← hempty, ← huser hmd]
      cases hcaller : caller.timeout with
      | none => rfl
      | some left => exact if_neg (not_lt.mpr (hleft left hcaller))
    refine ⟨htimeout, ?_⟩
    rw [Ctx.cancelledOnReturn, htimeout]
    rfl

/-- An element that a filter keeps stands behind those it keeps of the elements before it. -/
lemma getElem?_filter_of_getElem? {α : Type} {p : α → Bool} {l : List α} {i : Nat} {x : α}
    (h : l[i]? = some x) (hx : p x = true) :
    (l.filter p)[((l.take i).filter p).length]? = some x := by
  obtain ⟨hlt, rfl⟩ := List.getElem?_eq_some_iff.mp h
  have hsplit : l.filter p = (l.take i).filter p ++ l[i] :: (l.drop (i + 1)).filter p := by
    rw [← List.filter_cons_of_pos hx, ← List.drop_eq_getElem_cons hlt, ← List.filter_append,
      List.take_append_drop]
  rw [hsplit, List.getElem?_append_right (le_refl _), Nat.sub_self]
  rfl

/-- A context with a map, an appended pair under the same key, and 1.5 s and a nanosecond left. -/
def tenantMD : MD := MD.new storedEnv [(str "Tenant", str "a")]

def tenantOutbound : Outbound Bytes :=
  ⟨⟨str "Greeter", str "SayHello", some [10, 1, 65]⟩,
    ⟨some ⟨tenantMD, [[str "tenant", str "b"]]⟩, some 1500000001⟩, tenantMD.entries, 1⟩

def tenantRequest : Message :=
  stampRequest 1 ⟨newMessage.header.setMessageType .request, str "Greeter", str "SayHello",
    addTimeout storedEnv (some 1500000001) (MD.join [tenantMD.push (str "tenant") [str "b"],
      MD.new storedEnv [(userAgentHeader, userAgent)]]), [10, 1, 65]⟩

lemma tenantOutbound_writes : tenantOutbound.Writes storedEnv bytesProto tenantRequest := by
  refine ⟨⟨by decide, by decide +kernel, by decide +kernel⟩, ?_, ⟨_, rfl, rfl⟩⟩
  rintro raw ⟨⟩
  exact .refl _

/-- The server reads the request, lets it in and runs its function. -/
def tenantServed : List StreamAction :=
  [.accept (frameOf storedEnv .plain tenantRequest ++ []), .turn (.serve (.check 0)), .read 0,
    .turn (.serve (.authorize 0)), .turn (.serve (.dispatch 0))]

end Zrpc.Proofs
