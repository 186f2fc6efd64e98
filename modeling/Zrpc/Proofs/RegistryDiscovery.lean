import Zrpc.Lib.Ensures
import Zrpc.Proofs.CachedDiscovery
import Zrpc.Proofs.TcpClient
import Zrpc.Proofs.TcpRegistry
import Zrpc.RegistryDiscovery

/-!
# How long a dead service is still discovered

A service that stops pinging is swept out of the registry, and out of the caches of the clients. A
`Get` that returns its address was made while its last ping was at most the timeout, a sweep period,
a refresh interval and a storing delay old.
-/

namespace Zrpc.Proofs

open Zrpc.Lib

/-- What `encoding/json` does with the two message types: it reads back what it wrote, and nothing
else begins a message. -/
structure JsonLaw (J : RegistryCodec) : Prop where
  request : ∀ cmd data, J.marshalRequest cmd = .ok data →
    J.unmarshalRequest data = .ok cmd ∧ SelfDelimiting J.unmarshalRequest data
  response : ∀ resp data, J.marshalResponse resp = .ok data →
    J.unmarshalResponse data = .ok resp ∧ SelfDelimiting J.unmarshalResponse data

/-! ### What an answer says -/

section Answer

variable {J : RegistryCodec} {r : Registry} {o : Orders} {now : Int} {cut : Cut}

lemma JsonLaw.response_eq (hJ : JsonLaw J) {resp resp' : Response} {out : Bytes} {available : Nat}
    (hout : J.marshalResponse resp = .ok out)
    (hread : J.unmarshalResponse (readOnce out available) = .ok resp') : resp' = resp := by
  obtain ⟨hwhole, hdelim⟩ := hJ.response resp out hout
  rw [readOnce_whole (hdelim.readWhole hread), hwhole] at hread
  exact (Except.ok.inj hread).symm

lemma JsonLaw.request_eq (hJ : JsonLaw J) {cmd cmd' : Request} {data : Bytes} {available : Nat}
    (hdata : J.marshalRequest cmd = .ok data)
    (hread : J.unmarshalRequest (readOnce data available) = .ok cmd') : cmd' = cmd := by
  obtain ⟨hwhole, hdelim⟩ := hJ.request cmd data hdata
  rw [readOnce_whole (hdelim.readWhole hread), hwhole] at hread
  exact (Except.ok.inj hread).symm

lemma wrapError_eq_ok {α : Type} {context : String} {x : Except GoString α} {a : α}
    (h : wrapError context x = .ok a) : x = .ok a := by
  cases x with
  | error e => cases h
  | ok b => exact h

/-- What a client reads: the front of the response to the request the registry decoded, or of the
report that it could not decode one. -/
lemma network_read {data buf : Bytes} (h : (r.network J o now cut).read data = .ok buf) :
    ∃ resp out, J.marshalResponse resp = .ok out ∧ readOnce out cut.response = buf ∧
      (resp.success = false ∨ ∃ cmd, J.unmarshalRequest (readOnce data cut.request) = .ok cmd ∧
        (r.serve o now cmd).2 = resp) := by
  have hsent : ∀ {resp out}, J.sendResponse resp = some out → J.marshalResponse resp = .ok out := by
    intro resp out hout
    unfold RegistryCodec.sendResponse at hout
    cases hm : J.marshalResponse resp with
    | error e => simp [hm, Except.toOption] at hout
    | ok out' => simpa [hm, Except.toOption] using hout
  unfold Registry.network Registry.handleConnection at h
  cases hcmd : J.unmarshalRequest (readOnce data cut.request) with
  | error err =>
    simp only [hcmd] at h
    split at h
    · next out hout =>
      cases h
      exact ⟨_, out, hsent hout, rfl, .inl rfl⟩
    · cases h
  | ok cmd =>
    simp only [hcmd] at h
    split at h
    · next out hout =>
      cases h
      exact ⟨_, out, hsent hout, rfl, .inr ⟨cmd, rfl, rfl⟩⟩
    · cases h

/-- A response that `sendRequest` returns is the registry's response to the request. -/
lemma sendRequest_ok (hJ : JsonLaw J) {cmd : Request} {resp : Response}
    (h : TcpClient.sendRequest J (r.network J o now cut) cmd = .ok resp) :
    (r.serve o now cmd).2 = resp ∧ resp.success = true := by
  unfold TcpClient.sendRequest at h
  obtain ⟨-, -, h⟩ := bind_eq_ok h
  obtain ⟨data, hdata, h⟩ := bind_eq_ok h
  obtain ⟨-, -, h⟩ := bind_eq_ok h
  obtain ⟨buf, hbuf, h⟩ := bind_eq_ok h
  obtain ⟨got, hgot, hend⟩ := bind_eq_ok h
  have hsuccess : got.success = true ∧ got = resp := by
    unfold Response.outcome at hend
    split at hend
    · next hs => exact ⟨hs, Except.ok.inj hend⟩
    · cases hend
  obtain ⟨hsuccess, rfl⟩ := hsuccess
  obtain ⟨sent, out, hout, hread, hsent⟩ := network_read (wrapError_eq_ok hbuf)
  have hgot' := wrapError_eq_ok hgot
  rw [← hread] at hgot'
  have hsame := hJ.response_eq hout hgot'
  rcases hsent with hfailed | ⟨cmd', hcmd, hserve⟩
  · rw [hsame, hfailed] at hsuccess
    cases hsuccess
  · rw [hJ.request_eq (wrapError_eq_ok hdata) hcmd] at hserve
    exact ⟨hserve.trans hsame.symm, hsuccess⟩

lemma entry_of_getService (hJ : JsonLaw J) {serviceName addr : GoString} {servers : List GoString}
    (h : TcpClient.getService J (r.network J o now cut) serviceName = .ok servers)
    (ha : addr ∈ servers) : ∃ info, r.entry serviceName addr = some info := by
  obtain ⟨resp, hresp, hdata⟩ := bind_eq_ok h
  obtain ⟨hserve, hsuccess⟩ := sendRequest_ok hJ hresp
  rw [serve_get] at hserve
  cases hget : r.getService o.inner serviceName with
  | error text =>
    rw [hget] at hserve
    rw [← hserve] at hsuccess
    cases hsuccess
  | ok addrs =>
    rw [hget] at hserve
    rw [← hserve] at hdata
    have heq : addrs = servers := by
      have hstrings := stringsOf_ofStrings (Registry.getService_ne_nil hget)
      have hdata' : TcpClient.stringsOf (Data.ofStrings addrs) = .ok servers := hdata
      rw [hstrings] at hdata'
      exact Except.ok.inj hdata'
    have hne := ((Registry.getService_ok o.inner hget).2 addr).mp (heq ▸ ha)
    exact Option.ne_none_iff_exists'.mp hne

end Answer

/-! ### The registry between two sweeps -/

/-- The clock does not pass the end of a sweep period without a sweep. -/
def SweepTimely (period : Int) (s : CacheState SweptRegistry) :
    CacheAction TcpRegistryAction (Orders × Cut) → Prop
  | .backend (.tick d) => s.backend.registry.now + d ≤ s.backend.lastSweep + period
  | _ => True

instance (period : Int) (s : CacheState SweptRegistry) : ∀ a, Decidable (SweepTimely period s a)
  | .backend (.tick _) => inferInstanceAs (Decidable (_ ≤ _))
  | .backend (.request _ _) | .backend .startSweeper | .backend (.sweep _) | .backend (.check _)
  | .backend (.stop _) | .backend .close | .call _ | .run _ | .query _ _ _ => isTrue trivial

/-- A `register` or `heartbeat` request for the pair was served no earlier than `since`. -/
def Pinged (B : Backend SweptRegistry TcpRegistryAction (Orders × Cut))
    (s₀ : CacheState SweptRegistry) (as : List (CacheAction TcpRegistryAction (Orders × Cut)))
    (serviceName addr : GoString) (since : Int) : Prop :=
  ∃ bs o cmd rest s, as = bs ++ .backend (.request o cmd) :: rest ∧
    exec (cacheStep B) s₀ bs = some s ∧ since ≤ s.backend.registry.now ∧ cmd.refreshes ∧
    (cmd.serviceName, cmd.addr) = (serviceName, addr)

/-- Every entry has been pinged, no longer than the timeout before the last sweep. -/
structure Checked (B : Backend SweptRegistry TcpRegistryAction (Orders × Cut))
    (s₀ : CacheState SweptRegistry) (serviceName : GoString) (timeout period : Int)
    (as : List (CacheAction TcpRegistryAction (Orders × Cut))) (s : CacheState SweptRegistry) :
    Prop where
  timeout_eq : s.backend.registry.registry.timeout = timeout
  swept : s.backend.lastSweep ≤ s.backend.registry.now
  due : s.backend.registry.now ≤ s.backend.lastSweep + period
  recent : ∀ addr info, s.backend.registry.registry.entry serviceName addr = some info →
    s.backend.lastSweep - timeout ≤ info.lastPing
  pinged : ∀ addr info, s.backend.registry.registry.entry serviceName addr = some info →
    Pinged B s₀ as serviceName addr info.lastPing

section Sweeping

variable {B : Backend SweptRegistry TcpRegistryAction (Orders × Cut)}
  {s₀ s t : CacheState SweptRegistry} {as : List (CacheAction TcpRegistryAction (Orders × Cut))}
  {a : CacheAction TcpRegistryAction (Orders × Cut)} {serviceName addr : GoString}
  {since timeout period : Int}

lemma Pinged.append (h : Pinged B s₀ as serviceName addr since)
    (more : List (CacheAction TcpRegistryAction (Orders × Cut))) :
    Pinged B s₀ (as ++ more) serviceName addr since := by
  obtain ⟨bs, o, cmd, rest, s, rfl, hs, hle, hrefreshes, hpair⟩ := h
  exact ⟨bs, o, cmd, rest ++ more, s, by simp, hs, hle, hrefreshes, hpair⟩

lemma Pinged.mono (h : Pinged B s₀ as serviceName addr since) {since' : Int} (hle : since' ≤ since) :
    Pinged B s₀ as serviceName addr since' := by
  obtain ⟨bs, o, cmd, rest, s, hsplit, hs, hsince, hrest⟩ := h
  exact ⟨bs, o, cmd, rest, s, hsplit, hs, hle.trans hsince, hrest⟩

lemma cacheStep_backend (h : cacheStep B s a = some t) :
    t.backend = s.backend ∨ ∃ x, a = .backend x ∧ B.step s.backend x = some t.backend := by
  cases cacheStep_move h with
  | backend hb => exact .inr ⟨_, rfl, hb⟩
  | call | quiet _ _ | acquire _ _ _ | release _ _ | update _ _ _ _ | store _ _ _ _ | panic _ _ _ _ =>
    exact .inl rfl

/-- The registry serves a request, sweeps, or removes entries, and the clock goes on. -/
inductive SweptMove (b b' : SweptRegistry) : TcpRegistryAction → Prop
  | serve {o cmd} (hreg : b'.registry.registry = (b.registry.registry.serve o b.registry.now cmd).1)
    (hnow : b'.registry.now = b.registry.now) (hlast : b'.lastSweep = b.lastSweep) :
    SweptMove b b' (.request o cmd)
  | sweep {o} (hreg : b'.registry.registry =
      b.registry.registry.cleanExpiredServers o.outer o.inner b.registry.now)
    (hnow : b'.registry.now = b.registry.now) (hlast : b'.lastSweep = b.registry.now) :
    SweptMove b b' (.sweep o)
  | fewer {x} (htimeout : b'.registry.registry.timeout = b.registry.registry.timeout)
    (hentry : ∀ name addr info, b'.registry.registry.entry name addr = some info →
      b.registry.registry.entry name addr = some info)
    (hnow : b.registry.now ≤ b'.registry.now)
    (htick : b'.registry.now = b.registry.now ∨
      ∃ d : Nat, x = .tick d ∧ b'.registry.now = b.registry.now + d)
    (hlast : b'.lastSweep = b.lastSweep) : SweptMove b b' x

lemma sweptStep_move {b b' : SweptRegistry} {x : TcpRegistryAction} (h : b.step x = some b') :
    SweptMove b b' x := by
  unfold SweptRegistry.step at h
  split at h
  · cases h
  next r hr =>
  have htick : (∀ o, x ≠ .sweep o) → b' = ⟨r, b.lastSweep⟩ := by
    intro hx
    cases x with
    | sweep o => exact absurd rfl (hx o)
    | tick _ | request _ _ | startSweeper | check _ | stop _ | close => exact (Option.some.inj h).symm
  cases hm : TcpRegistry.move_of_step hr with
  | serve o cmd hreg hnow _ =>
    rw [htick (by simp)]
    exact .serve hreg hnow rfl
  | sweep o hreg hnow _ =>
    cases h
    exact .sweep hreg hnow rfl
  | expire i c _ hreg hnow _ =>
    rw [htick (by simp)]
    exact .fewer (by rw [hreg]) (fun _ _ _ h => hreg ▸ h) hnow.ge (.inl hnow) rfl
  | remove i c _ _ hreg hnow _ =>
    rw [htick (by simp)]
    refine .fewer ?_ (fun name addr info hentry => ?_) hnow.ge (.inl hnow) rfl
    · rw [hreg]
      exact Registry.timeout_unregister
    · rw [hreg, Registry.entry_unregister] at hentry
      split at hentry
      · cases hentry
      · exact hentry
  | tick d hreg hnow _ =>
    rw [htick (by simp)]
    refine .fewer (by rw [hreg]) (fun _ _ _ h => hreg ▸ h) ?_ (.inr ⟨d, rfl, hnow⟩) rfl
    dsimp only
    omega
  | other _ hquiet hreg hnow _ =>
    have hnot : ∀ o, x ≠ .sweep o := by
      rintro o rfl
      cases hquiet
    rw [htick hnot]
    exact .fewer (by rw [hreg]) (fun _ _ _ h => hreg ▸ h) hnow.ge (.inl hnow) rfl

lemma checked_step (htimeout : 0 ≤ timeout) (hstep : B.step = SweptRegistry.step)
    (hrun : exec (cacheStep B) s₀ as = some s) (hs : Checked B s₀ serviceName timeout period as s)
    (hok : SweepTimely period s a) (h : cacheStep B s a = some t) :
    Checked B s₀ serviceName timeout period (as ++ [a]) t := by
  rcases cacheStep_backend h with hsame | ⟨x, rfl, hx⟩
  · refine ⟨hsame ▸ hs.timeout_eq, hsame ▸ hs.swept, hsame ▸ hs.due, hsame ▸ hs.recent, ?_⟩
    rw [hsame]
    exact fun addr info hentry => (hs.pinged addr info hentry).append _
  rw [hstep] at hx
  cases sweptStep_move hx with
  | @serve o cmd hreg hnow hlast =>
    have hold : ∀ {addr info}, t.backend.registry.registry.entry serviceName addr = some info →
        s.backend.registry.registry.entry serviceName addr = some info ∨
          cmd.refreshes ∧ (cmd.serviceName, cmd.addr) = (serviceName, addr) ∧
            info.lastPing = s.backend.registry.now := by
      intro addr info hentry
      rw [hreg] at hentry
      exact Registry.entry_serve hentry
    have hswept := hs.swept
    refine ⟨?_, by rw [hlast, hnow]; exact hs.swept, by rw [hlast, hnow]; exact hs.due,
      fun addr info hentry => ?_, fun addr info hentry => ?_⟩
    · rw [hreg, Registry.timeout_serve]
      exact hs.timeout_eq
    · rw [hlast]
      rcases hold hentry with hbefore | ⟨-, -, hping⟩
      · exact hs.recent addr info hbefore
      · omega
    · rcases hold hentry with hbefore | ⟨hrefreshes, hpair, hping⟩
      · exact (hs.pinged addr info hbefore).append _
      · exact ⟨as, o, cmd, [], s, rfl, hrun, hping.le, hrefreshes, hpair⟩
  | @sweep o hreg hnow hlast =>
    have hold : ∀ {addr info}, t.backend.registry.registry.entry serviceName addr = some info →
        s.backend.registry.registry.entry serviceName addr = some info ∧
          s.backend.registry.now - info.lastPing ≤ timeout := by
      intro addr info hentry
      rw [hreg, Registry.entry_cleanExpiredServers, hs.timeout_eq] at hentry
      obtain ⟨hbefore, hyoung⟩ := Option.filter_eq_some_iff.mp hentry
      exact ⟨hbefore, of_decide_eq_true hyoung⟩
    have hdue := hs.due
    have hswept := hs.swept
    refine ⟨?_, by rw [hlast, hnow], by rw [hlast, hnow]; omega, fun addr info hentry => ?_,
      fun addr info hentry => (hs.pinged addr info (hold hentry).1).append _⟩
    · rw [hreg]
      exact hs.timeout_eq
    · have hyoung := (hold hentry).2
      rw [hlast]
      omega
  | fewer htime hentry hnow htick hlast =>
    refine ⟨htime.trans hs.timeout_eq, ?_, ?_, fun addr info h => ?_, fun addr info h => ?_⟩
    · rw [hlast]
      exact hs.swept.trans hnow
    · rw [hlast]
      rcases htick with hsame | ⟨d, rfl, hd⟩
      · rw [hsame]
        exact hs.due
      · rw [hd]
        exact hok
    · rw [hlast]
      exact hs.recent addr info (hentry _ _ _ h)
    · exact (hs.pinged addr info (hentry _ _ _ h)).append _

end Sweeping

/-! ### Whole runs -/

/-- In every run of a registry with its sweeper and of the goroutines of a discovery, in which no
sweep is more than `period` late and answers are stored within `delay`: an address that `Get`
returns was given to `Update`, or its service was registered or sent a heartbeat at most
`timeout + period + refreshInterval + delay` before the call. -/
theorem discovered_service_pinged (J : RegistryCodec) (hJ : JsonLaw J) (serviceName : GoString)
    (keepaliveSec start delay period : Int) (hperiod : 0 ≤ period)
    (htimeout : 0 ≤ (newTcpRegistry keepaliveSec start).registry.timeout)
    (as : List (CacheAction TcpRegistryAction (Orders × Cut))) (s : CacheState SweptRegistry)
    (h : exec (cacheStep (registryBackend J serviceName))
      (.init (newSweptRegistry keepaliveSec start)) as = some s)
    (hg : Guarded (cacheStep (registryBackend J serviceName))
      (fun s a => StoreTimely (registryBackend J serviceName) delay s a ∧ SweepTimely period s a)
      (.init (newSweptRegistry keepaliveSec start)) as)
    (th : CacheThread) (hth : th ∈ s.threads) (addr : GoString)
    (hres : th.pc = .finished (.addr addr)) :
    (∃ servers, addr ∈ servers ∧ Updated s servers) ∨
    Pinged (registryBackend J serviceName) (.init (newSweptRegistry keepaliveSec start)) as
      serviceName addr (th.calledAt - refreshInterval - delay - period -
        (newTcpRegistry keepaliveSec start).registry.timeout) := by
  have hclock : ∀ b x b', (registryBackend J serviceName).step b x = some b' →
      (registryBackend J serviceName).clock b ≤ (registryBackend J serviceName).clock b' := by
    intro b x b' hb
    cases sweptStep_move hb with
    | serve _ hnow _ => exact hnow.ge
    | sweep _ hnow _ => exact hnow.ge
    | fewer _ _ hnow _ _ => exact hnow
  have hswept : ∀ bs u, bs <+: as → exec (cacheStep (registryBackend J serviceName))
      (.init (newSweptRegistry keepaliveSec start)) bs = some u →
      Checked (registryBackend J serviceName) (.init (newSweptRegistry keepaliveSec start))
        serviceName (newTcpRegistry keepaliveSec start).registry.timeout period bs u := by
    rintro bs u ⟨rest, rfl⟩ hu
    refine exec_history _ ?_ (fun as s a t hrun hs hok ht => checked_step htimeout rfl hrun hs hok.2 ht)
      hg.of_append hu
    refine ⟨rfl, le_rfl, Int.le_add_of_nonneg_right hperiod, ?_, ?_⟩
    · intro addr info hentry
      cases hentry
    · intro addr info hentry
      cases hentry
  have hknown := discovery_staleness _ hclock delay _ as s h
    (hg.mono fun _ _ hok => hok.1) th hth _ hres
  obtain ⟨servers, hmem, hupd | ⟨bs, u, hbs, hu, hsince, o, hquery⟩⟩ := hknown
  · exact .inl ⟨servers, hmem, hupd⟩
  · obtain ⟨rest, rfl⟩ := hbs
    have hsw := hswept bs u (List.prefix_append bs rest) hu
    have hservice : ∃ info, u.backend.registry.registry.entry serviceName addr = some info := by
      have hq : SweptRegistry.getService J serviceName o u.backend = .ok servers := hquery
      unfold SweptRegistry.getService at hq
      split at hq
      · cases hq
      · exact entry_of_getService hJ hq hmem
    obtain ⟨info, hinfo⟩ := hservice
    have hrecent := hsw.recent addr info hinfo
    have hdue := hsw.due
    have hsince' : th.calledAt - refreshInterval - delay ≤ u.backend.registry.now := hsince
    exact .inr (((hsw.pinged addr info hinfo).mono (by omega)).append rest)

/-- A table whose texts do not begin with one another is read back as it was written. -/
lemma table_law {μ : Type} [DecidableEq μ] {table : List (μ × Bytes)} {m : μ} {data : Bytes}
    (e e' : GoString) (hfree : ∀ p ∈ table, ∀ q ∈ table, p.2 <+: q.2 → p = q)
    (h : ((table.find? (·.1 = m)).map (·.2)).elim (Except.error e) .ok = .ok data) :
    ((table.find? (·.2 = data)).map (·.1)).elim (Except.error e') .ok = .ok m ∧
      SelfDelimiting (fun data =>
        ((table.find? (·.2 = data)).map (·.1)).elim (Except.error e') .ok) data := by
  obtain ⟨p, hp⟩ : ∃ p, table.find? (·.1 = m) = some p := by
    cases hfind : table.find? (·.1 = m) with
    | none =>
      rw [hfind] at h
      cases h
    | some p => exact ⟨p, rfl⟩
  rw [hp] at h
  cases h
  have hmem := List.mem_of_find?_eq_some hp
  have hkey : p.1 = m := by simpa using List.find?_some hp
  have hself : ∀ d q, table.find? (·.2 = d) = some q → d <+: p.2 → q = p := by
    intro d q hq hd
    have hd' : q.2 = d := by simpa using List.find?_some hq
    exact hfree q (List.mem_of_find?_eq_some hq) p hmem (hd' ▸ hd)
  constructor
  · cases hq : table.find? (·.2 = p.2) with
    | none =>
      rw [List.find?_eq_none] at hq
      exact absurd (decide_eq_true rfl) (hq p hmem)
    | some q =>
      rw [hself p.2 q hq (List.prefix_refl _)]
      exact congrArg Except.ok hkey
  · intro k hk
    cases hq : table.find? (·.2 = p.2.take k) with
    | none => exact ⟨e', by simp only [hq, Option.map_none, Option.elim_none]⟩
    | some q =>
      have hqp := hself _ q hq (List.take_prefix k p.2)
      have hlen : p.2 = p.2.take k := by simpa [hqp] using List.find?_some hq
      have hlength := congrArg List.length hlen
      have hlt : k < p.2.length := hk
      rw [List.length_take] at hlength
      omega

lemma getCodec_law : JsonLaw getCodec where
  request _ _ h := table_law _ _ (by decide +kernel) h
  response _ _ h := table_law _ _ (by decide +kernel) h

/-- A service registers, and is discovered twenty seconds later. -/
def registerAndGet : List (CacheAction TcpRegistryAction (Orders × Cut)) :=
  [.backend .startSweeper, .backend (.request .stored ⟨str "register", str "s", str "a", none⟩),
    .backend (.tick 20000000000), .backend (.sweep .stored), .call (.Get .RoundRobinSelect 0),
    .run 0, .run 0, .query 0 (some (.stored, ⟨4096, 4096⟩)) [], .backend (.tick 5), .run 0, .run 0,
    .run 0, .run 0, .run 0, .run 0, .run 0]

theorem discovered_service_pinged_registerAndGet : ∃ s,
    exec (cacheStep (registryBackend getCodec (str "s"))) (.init (newSweptRegistry 60 0))
      registerAndGet = some s ∧
    ((∃ servers, str "a" ∈ servers ∧ Updated s servers) ∨
      Pinged (registryBackend getCodec (str "s")) (.init (newSweptRegistry 60 0)) registerAndGet
        (str "s") (str "a") (20000000000 - refreshInterval - 5 - 30000000000 -
          (newTcpRegistry 60 0).registry.timeout)) := by
  have hrun : ∃ s ∈ exec (cacheStep (registryBackend getCodec (str "s")))
      (.init (newSweptRegistry 60 0)) registerAndGet, ∃ th ∈ s.threads,
        th.pc = .finished (.addr (str "a")) ∧ th.calledAt = 20000000000 := by
    decide +kernel
  obtain ⟨s, hs, th, hth, hres, hcalled⟩ := hrun
  have hpinged := discovered_service_pinged getCodec getCodec_law (str "s") 60 0 5 30000000000
    (by decide) (by decide) registerAndGet s hs (by decide +kernel) th hth (str "a") hres
  rw [hcalled] at hpinged
  exact ⟨s, hs, hpinged⟩

end Zrpc.Proofs
