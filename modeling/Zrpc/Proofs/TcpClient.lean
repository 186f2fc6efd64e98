import Zrpc.Proofs.Registry
import Zrpc.TcpClient

/-!
# Exchanges with the TCP registry

An exchange delivers its two messages if each of them arrives before it is read and fits the
buffer it is read into. A JSON text that is cut short is not a JSON text, so otherwise it fails.
Calls that share a client share its connection; they keep to their own requests if each connects
only after the others have closed.
-/

namespace Zrpc

open Zrpc.Lib

/-- All of `written` is there when it is read, and fits the buffer. -/
def ReadWhole (written : Bytes) (available : Nat) : Prop :=
  written.length ≤ min available readBuffer

instance (written : Bytes) (available : Nat) : Decidable (ReadWhole written available) :=
  inferInstanceAs (Decidable (_ ≤ _))

/-- No proper initial part of the bytes decodes. -/
def SelfDelimiting {α : Type} (unmarshal : Bytes → Except GoString α) (data : Bytes) : Prop :=
  ∀ k < data.length, ∃ err, unmarshal (data.take k) = .error err

lemma readOnce_whole {written : Bytes} {available : Nat} (h : ReadWhole written available) :
    readOnce written available = written :=
  List.take_of_length_le h

lemma SelfDelimiting.readWhole {α : Type} {unmarshal : Bytes → Except GoString α} {data : Bytes}
    {m : α} {available : Nat} (h : SelfDelimiting unmarshal data)
    (hread : unmarshal (readOnce data available) = .ok m) : ReadWhole data available := by
  by_contra hcut
  obtain ⟨err, herr⟩ := h (min available readBuffer) (Nat.lt_of_not_le hcut)
  rw [readOnce, herr] at hread
  cases hread

section Exchange

variable {J : RegistryCodec} {r : Registry} {o : Orders} {now : Int} {cut : Cut} {cmd : Request}
  {data out : Bytes}

/-- The registry decodes the request that was sent, and the client gets its response. -/
def Survives (J : RegistryCodec) (r : Registry) (o : Orders) (now : Int) (cut : Cut)
    (cmd : Request) (data : Bytes) : Prop :=
  J.unmarshalRequest (readOnce data cut.request) = .ok cmd ∧
    TcpClient.sendRequest J (r.network J o now cut) cmd = (r.serve o now cmd).2.outcome

/-- A request that reaches the registry is answered by what `handleConnection` makes of it. -/
lemma sendRequest_of_decoded (hdata : J.marshalRequest cmd = .ok data)
    (hread : J.unmarshalRequest (readOnce data cut.request) = .ok cmd)
    (hout : J.marshalResponse (r.serve o now cmd).2 = .ok out) :
    TcpClient.sendRequest J (r.network J o now cut) cmd =
      (wrapError "解析响应失败: " (J.unmarshalResponse (readOnce out cut.response))).bind
        Response.outcome := by
  have hserved : (r.handleConnection J o now (.ok (readOnce data cut.request))).2 = some out := by
    simp only [Registry.handleConnection, hread, RegistryCodec.sendResponse, hout]
    rfl
  have hnet : (r.network J o now cut).read data = .ok (readOnce out cut.response) := by
    simp only [Registry.network, hserved]
  simp only [TcpClient.sendRequest, hdata]
  change ((wrapError _ ((r.network J o now cut).read data)).bind fun buf =>
    (wrapError _ (J.unmarshalResponse buf)).bind Response.outcome) = _
  rw [hnet]
  rfl

lemma survives_of_whole (hdata : J.marshalRequest cmd = .ok data)
    (hcmd : J.unmarshalRequest data = .ok cmd)
    (hout : J.marshalResponse (r.serve o now cmd).2 = .ok out)
    (hresp : J.unmarshalResponse out = .ok (r.serve o now cmd).2)
    (hrequest : ReadWhole data cut.request) (hresponse : ReadWhole out cut.response) :
    Survives J r o now cut cmd data := by
  have hread : J.unmarshalRequest (readOnce data cut.request) = .ok cmd := by
    rw [readOnce_whole hrequest, hcmd]
  refine ⟨hread, ?_⟩
  rw [sendRequest_of_decoded hdata hread hout, readOnce_whole hresponse, hresp]
  rfl

/-- A failure to decode a response is not reported as a response. -/
lemma outcome_ne_parseError (resp : Response) (err : GoString) :
    resp.outcome ≠ .error (str "解析响应失败: " ++ err) := by
  unfold Response.outcome
  split
  · simp
  · intro h
    have htext := Except.error.inj h
    have hhead : (str "命令执行失败: ").take 2 = (str "解析响应失败: ").take 2 := by
      have htake := congrArg (List.take 2) htext
      rwa [List.take_append_of_le_length (by decide),
        List.take_append_of_le_length (by decide)] at htake
    exact absurd hhead (by decide)

lemma whole_of_survives (hdata : J.marshalRequest cmd = .ok data)
    (hout : J.marshalResponse (r.serve o now cmd).2 = .ok out)
    (hdataCut : SelfDelimiting J.unmarshalRequest data)
    (houtCut : SelfDelimiting J.unmarshalResponse out)
    (h : Survives J r o now cut cmd data) :
    ReadWhole data cut.request ∧ ReadWhole out cut.response := by
  obtain ⟨hread, hsend⟩ := h
  refine ⟨hdataCut.readWhole hread, ?_⟩
  rw [sendRequest_of_decoded hdata hread hout] at hsend
  cases hresp : J.unmarshalResponse (readOnce out cut.response) with
  | error err =>
    rw [hresp] at hsend
    exact absurd hsend.symm (outcome_ne_parseError _ err)
  | ok resp => exact houtCut.readWhole hresp

/-! ### The two readers of the client -/

lemma stringsOf_ofStrings {elems : List GoString} (h : elems ≠ []) :
    TcpClient.stringsOf (Data.ofStrings elems) = .ok elems := by
  rw [Data.ofStrings, if_neg h]
  simp [TcpClient.stringsOf]

lemma Registry.getService_ne_nil {inner : RangeOrder GoString ServiceInfo} {s : GoString}
    {addrs : List GoString} (h : r.getService inner s = .ok addrs) : addrs ≠ [] := by
  rintro rfl
  have hnone : ∀ a, r.entry s a = none := by
    intro a
    by_contra hsome
    exact absurd (((Registry.getService_ok inner h).2 a).mpr hsome) List.not_mem_nil
  obtain ⟨text, htext⟩ := (Registry.getService_error_iff inner).mpr hnone
  rw [h] at htext
  cases htext

lemma serve_get (s : GoString) :
    (r.serve o now { action := str "get", serviceName := s }).2 =
      match r.getService o.inner s with
      | .error text => .failed text
      | .ok addrs => .done addrs := by
  unfold Registry.serve
  rw [if_neg (show str "get" ≠ str "register" by decide),
    if_neg (show str "get" ≠ str "unregister" by decide),
    if_neg (show str "get" ≠ str "heartbeat" by decide), if_pos rfl]
  cases r.getService o.inner s <;> rfl

lemma serve_list :
    (r.serve o now { action := str "list" }).2 = .done (r.getAllServices o.outer) := by
  unfold Registry.serve
  rw [if_neg (by decide), if_neg (by decide), if_neg (by decide), if_neg (by decide), if_pos rfl]

lemma getService_of_sendRequest {net : Network} {s : GoString}
    (h : TcpClient.sendRequest J net { action := str "get", serviceName := s } =
      (r.serve o now { action := str "get", serviceName := s }).2.outcome) :
    TcpClient.getService J net s = wrapError "命令执行失败: " (r.getService o.inner s) := by
  rw [TcpClient.getService, h, serve_get]
  cases hget : r.getService o.inner s with
  | error text => rfl
  | ok addrs => exact stringsOf_ofStrings (Registry.getService_ne_nil hget)

lemma listServices_of_sendRequest {net : Network} (hsome : r.getAllServices o.outer ≠ [])
    (h : TcpClient.sendRequest J net { action := str "list" } =
      (r.serve o now { action := str "list" }).2.outcome) :
    TcpClient.listServices J net = .ok (r.getAllServices o.outer) := by
  rw [TcpClient.listServices, h, serve_list]
  exact stringsOf_ofStrings hsome

/-- An empty list is a nil slice, which is `null` in JSON. -/
lemma listServices_empty_of_sendRequest {net : Network} (hnone : r.getAllServices o.outer = [])
    (h : TcpClient.sendRequest J net { action := str "list" } =
      (r.serve o now { action := str "list" }).2.outcome) :
    TcpClient.listServices J net = .error (str "unknown response type") := by
  rw [TcpClient.listServices, h, serve_list, hnone]
  rfl

end Exchange

namespace Proofs

/-- An exchange whose two messages are read whole delivers both of them, and the readers of the
client return the lists of the registry; `ListServices` fails on an empty list. With messages of
which no proper initial part decodes, no other exchange delivers both. -/
theorem exchange_survives (J : RegistryCodec) (r : Registry) (o : Orders) (now : Int) (cut : Cut)
    (cmd : Request) (data out : Bytes) (hdata : J.marshalRequest cmd = .ok data)
    (hcmd : J.unmarshalRequest data = .ok cmd)
    (hout : J.marshalResponse (r.serve o now cmd).2 = .ok out)
    (hresp : J.unmarshalResponse out = .ok (r.serve o now cmd).2) :
    (ReadWhole data cut.request ∧ ReadWhole out cut.response →
      Survives J r o now cut cmd data ∧
      (∀ s, cmd = { action := str "get", serviceName := s } →
        TcpClient.getService J (r.network J o now cut) s =
          wrapError "命令执行失败: " (r.getService o.inner s)) ∧
      (cmd = { action := str "list" } → r.getAllServices o.outer ≠ [] →
        TcpClient.listServices J (r.network J o now cut) = .ok (r.getAllServices o.outer)) ∧
      (cmd = { action := str "list" } → r.getAllServices o.outer = [] →
        TcpClient.listServices J (r.network J o now cut) =
          .error (str "unknown response type"))) ∧
    (SelfDelimiting J.unmarshalRequest data → SelfDelimiting J.unmarshalResponse out →
      Survives J r o now cut cmd data →
      ReadWhole data cut.request ∧ ReadWhole out cut.response) := by
  refine ⟨fun ⟨hrequest, hresponse⟩ => ?_, fun hdataCut houtCut h =>
    whole_of_survives hdata hout hdataCut houtCut h⟩
  have hsurvives := survives_of_whole hdata hcmd hout hresp hrequest hresponse
  refine ⟨hsurvives, ?_, ?_, ?_⟩
  · rintro s rfl
    exact getService_of_sendRequest hsurvives.2
  · rintro rfl hsome
    exact listServices_of_sendRequest hsome hsurvives.2
  · rintro rfl hnone
    exact listServices_empty_of_sendRequest hnone hsurvives.2

/-- The JSON texts of the listed messages; any other text is refused as one that was cut short. -/
def tableCodec (requests : List (Request × Bytes)) (responses : List (Response × Bytes)) :
    RegistryCodec where
  marshalRequest cmd :=
    ((requests.find? (·.1 = cmd)).map (·.2)).elim (.error (str "unsupported value")) .ok
  unmarshalRequest data :=
    ((requests.find? (·.2 = data)).map (·.1)).elim (.error (str "unexpected end of JSON input")) .ok
  marshalResponse resp :=
    ((responses.find? (·.1 = resp)).map (·.2)).elim (.error (str "unsupported value")) .ok
  unmarshalResponse data :=
    ((responses.find? (·.2 = data)).map (·.1)).elim (.error (str "unexpected end of JSON input")) .ok

/-- `GetService("s")` with its answers: the address `a`, or that the request was not understood. -/
def getCodec : RegistryCodec :=
  tableCodec
    [({ action := str "get", serviceName := str "s" },
      str "\x7b\"action\":\"get\",\"serviceName\":\"s\",\"addr\":\"\",\"metadata\":null\x7d")]
    [(.done [str "a"], str "\x7b\"success\":true,\"error\":\"\",\"data\":[\"a\"]\x7d"),
     (.failed (str "解析命令失败: unexpected end of JSON input"),
      str "\x7b\"success\":false,\"error\":\"解析命令失败: unexpected end of JSON input\",\"data\":null\x7d")]

/-- A registry with the address `a` of the service `s`. -/
def registryWithA : Registry := (newRegistry 60000000000).register (str "s") (str "a") none 0 0

theorem exchange_survives_get :
    TcpClient.getService getCodec (registryWithA.network getCodec .stored 0 ⟨4096, 4096⟩) (str "s") =
      wrapError "命令执行失败: " (registryWithA.getService .stored (str "s")) :=
  ((exchange_survives getCodec registryWithA .stored 0 ⟨4096, 4096⟩
    { action := str "get", serviceName := str "s" } _ _ rfl rfl rfl rfl).1
      ⟨by decide, by decide⟩).2.1 (str "s") rfl

/-- The first ten bytes of the request arrive before the rest: the registry has the service, and
the client gets an error. -/
theorem exchange_cut_request :
    registryWithA.getService .stored (str "s") = .ok [str "a"] ∧
    TcpClient.getService getCodec (registryWithA.network getCodec .stored 0 ⟨10, 4096⟩) (str "s") =
      .error (str "命令执行失败: 解析命令失败: unexpected end of JSON input") :=
  ⟨rfl, rfl⟩

end Proofs

/-! ## Calls that share a connection field -/

/-- The call is not between its `connect` and its `close`. -/
def SendPc.idle : SendPc → Bool
  | .connect | .returned _ => true
  | .write | .read | .close _ => false

/-- The response to the request of call `i`, or a failure of the network. -/
def Ending.Own (i : Nat) (ending : Ending) : Prop :=
  (∃ resp, ending = .answer i resp) ∨ ∃ text, ending = .network text

namespace TcpClientState

variable {s t : TcpClientState} {i k : Nat} {c c' : SendCall} {conn : RegistryConn}
  {failure : Option GoString}

/-- A call connects only while no other call is between its `connect` and its `close`. -/
def OneAtATime (s : TcpClientState) : TcpClientAction → Prop
  | .run i _ => ∀ c ∈ s.calls[i]?, c.pc = .connect → ∀ d ∈ s.calls, d.pc.idle = true
  | .call _ | .serve _ _ _ _ _ => True

instance (s : TcpClientState) : ∀ act, Decidable (OneAtATime s act)
  | .run i _ => inferInstanceAs (Decidable (∀ c ∈ s.calls[i]?, _ → _))
  | .call _ | .serve _ _ _ _ _ => isTrue trivial

/-- The field `conn` holds the open connection that the call opened. -/
structure Holds (s : TcpClientState) (c : SendCall) (k : Nat) (conn : RegistryConn) : Prop where
  field : s.conn = some k
  opened : c.opened = some k
  entry : s.conns[k]? = some conn
  isOpen : conn.closed = false

lemma Holds.not_closed (h : s.Holds c k conn) : ¬conn.closed = true := by
  rw [h.isOpen]
  simp

/-- What a call may expect at its program point. -/
def AtPc (s : TcpClientState) (i : Nat) (c : SendCall) : Prop :=
  match c.pc with
  | .connect => c.used = []
  | .write => ∃ k conn, s.Holds c k conn ∧ conn.written = [] ∧ conn.served = false ∧
      conn.reply = none
  | .read => ∃ k conn, s.Holds c k conn ∧ conn.written = [(i, c.cmd)] ∧
      (conn.served = true → conn.reply ≠ none) ∧
      ∀ ending, conn.reply = some ending → ending.Own i
  | .close ending => (∃ k conn, s.Holds c k conn) ∧ ending.Own i
  | .returned ending => ending.Own i

/-- A call has used only the connection it opened. -/
def UsedOwn (c : SendCall) : Prop := ∀ k ∈ c.used, c.opened = some k

structure Orderly (s : TcpClientState) : Prop where
  running : s.panicked = false
  used : ∀ c ∈ s.calls, UsedOwn c
  atPc : ∀ i c, s.calls[i]? = some c → s.AtPc i c
  alone : ∀ (i j : Nat) (c d : SendCall), s.calls[i]? = some c → s.calls[j]? = some d → c.pc.idle = false →
    d.pc.idle = false → i = j

lemma AtPc.of_idle (h : s.AtPc i c) (hidle : c.pc.idle = true) : t.AtPc i c := by
  unfold AtPc at h ⊢
  cases hpc : c.pc with
  | connect => simpa only [hpc] using h
  | returned ending => simpa only [hpc] using h
  | write => rw [hpc] at hidle; cases hidle
  | read => rw [hpc] at hidle; cases hidle
  | close ending => rw [hpc] at hidle; cases hidle

lemma AtPc.of_same (h : s.AtPc i c) (hconn : t.conn = s.conn) (hconns : t.conns = s.conns) :
    t.AtPc i c := by
  have hholds : ∀ k conn, t.Holds c k conn ↔ s.Holds c k conn := by
    intro k conn
    constructor
    · exact fun h => ⟨hconn ▸ h.field, h.opened, hconns ▸ h.entry, h.isOpen⟩
    · exact fun h => ⟨hconn.trans h.field, h.opened, hconns ▸ h.entry, h.isOpen⟩
  simpa only [AtPc, hholds] using h

/-- One call moves while all others are idle. -/
lemma Orderly.move (hs : s.Orderly)
    (hothers : ∀ j d, i ≠ j → s.calls[j]? = some d → d.pc.idle = true)
    (hcalls : t.calls = s.calls.set i c') (hrunning : t.panicked = false)
    (hused : UsedOwn c') (hat : t.AtPc i c') : t.Orderly where
  running := hrunning
  used := by
    intro d hd
    rw [hcalls] at hd
    obtain hold | rfl := List.mem_or_eq_of_mem_set hd
    · exact hs.used d hold
    · exact hused
  atPc := by
    intro j d hd
    rw [hcalls] at hd
    obtain ⟨rfl, rfl⟩ | ⟨hij, hold⟩ := getElem?_set_cases hd
    · exact hat
    · exact (hs.atPc j d hold).of_idle (hothers j d hij hold)
  alone := by
    have hmover : ∀ j d, t.calls[j]? = some d → d.pc.idle = false → i = j := by
      intro j d hd hidle
      rw [hcalls] at hd
      obtain ⟨rfl, -⟩ | ⟨hij, hold⟩ := getElem?_set_cases hd
      · rfl
      · rw [hothers j d hij hold] at hidle
        cases hidle
    intro j₁ j₂ d₁ d₂ hd₁ hd₂ h₁ h₂
    exact (hmover j₁ d₁ hd₁ h₁).symm.trans (hmover j₂ d₂ hd₂ h₂)

lemma Orderly.others (hs : s.Orderly) (hc : s.calls[i]? = some c) (hpc : c.pc.idle = false) :
    ∀ j d, i ≠ j → s.calls[j]? = some d → d.pc.idle = true := by
  intro j d hij hd
  by_contra hidle
  exact hij (hs.alone i j c d hc hd hpc (Bool.not_eq_true _ ▸ hidle))

lemma UsedOwn.snoc (h : UsedOwn c) (hk : c.opened = some k) {pc : SendPc} :
    UsedOwn { c with used := c.used ++ [k], pc := pc } := by
  intro k' hk'
  obtain hold | hnew := List.mem_append.mp hk'
  · exact h k' hold
  · rw [List.mem_singleton.mp hnew]
    exact hk

lemma orderly_connectStep (hs : s.Orderly) (hc : s.calls[i]? = some c) (hpc : c.pc = .connect)
    (hidle : ∀ d ∈ s.calls, d.pc.idle = true) : (s.connectStep i c failure).Orderly := by
  have hused : c.used = [] := by simpa only [AtPc, hpc] using hs.atPc i c hc
  have hothers : ∀ j d, i ≠ j → s.calls[j]? = some d → d.pc.idle = true :=
    fun j d _ hd => hidle d (List.mem_of_getElem? hd)
  cases failure with
  | some err =>
    exact hs.move hothers rfl hs.running (hs.used c (List.mem_of_getElem? hc)) (.inr ⟨err, rfl⟩)
  | none =>
    refine hs.move hothers rfl hs.running ?_ ?_
    · intro k hk
      change k ∈ c.used at hk
      rw [hused] at hk
      cases hk
    · exact ⟨s.conns.length, ⟨[], false, none, false⟩,
        ⟨rfl, rfl, List.getElem?_concat_length, rfl⟩, rfl, rfl, rfl⟩

lemma orderly_writeStep (hs : s.Orderly) (hc : s.calls[i]? = some c) (hpc : c.pc = .write)
    (hk : s.conn = some k) (hconn : s.conns[k]? = some conn) :
    (s.writeStep i c k conn failure).Orderly := by
  have hat := hs.atPc i c hc
  simp only [AtPc, hpc] at hat
  obtain ⟨k', conn', hholds, hwritten, hserved, hreply⟩ := hat
  obtain rfl : k' = k := Option.some.inj (hholds.field.symm.trans hk)
  obtain rfl : conn' = conn := Option.some.inj (hholds.entry.symm.trans hconn)
  have hothers := hs.others hc (by rw [hpc]; rfl)
  have hused := hs.used c (List.mem_of_getElem? hc)
  simp only [writeStep, if_neg hholds.not_closed]
  cases failure with
  | some err =>
    exact hs.move hothers rfl hs.running (hused.snoc hholds.opened)
      ⟨⟨k', conn', hk, hholds.opened, hconn, hholds.isOpen⟩, .inr ⟨err, rfl⟩⟩
  | none =>
    refine hs.move hothers rfl hs.running (hused.snoc hholds.opened) ?_
    refine ⟨k', { conn' with written := conn'.written ++ [(i, c.cmd)] },
      ⟨hk, hholds.opened, ?_, hholds.isOpen⟩, ?_, ?_, ?_⟩
    · exact List.getElem?_set_self (List.getElem?_eq_some_iff.mp hconn).1
    · rw [hwritten]
      rfl
    · rw [hserved]
      simp
    · intro ending hending
      rw [hreply] at hending
      cases hending

lemma orderly_readStep (hs : s.Orderly) (hc : s.calls[i]? = some c) (hpc : c.pc = .read)
    (hk : s.conn = some k) (hconn : s.conns[k]? = some conn)
    (h : s.readStep i c k conn failure = some t) : t.Orderly := by
  have hat := hs.atPc i c hc
  simp only [AtPc, hpc] at hat
  obtain ⟨k', conn', hholds, -, hserved, hown⟩ := hat
  obtain rfl : k' = k := Option.some.inj (hholds.field.symm.trans hk)
  obtain rfl : conn' = conn := Option.some.inj (hholds.entry.symm.trans hconn)
  have hothers := hs.others hc (by rw [hpc]; rfl)
  have hused := hs.used c (List.mem_of_getElem? hc)
  simp only [readStep, if_neg hholds.not_closed] at h
  cases failure with
  | some err =>
    cases h
    exact hs.move hothers rfl hs.running (hused.snoc hholds.opened)
      ⟨⟨k', conn', hk, hholds.opened, hconn, hholds.isOpen⟩, .inr ⟨err, rfl⟩⟩
  | none =>
    cases hreply : conn'.reply with
    | some ending =>
      simp only [hreply] at h
      cases h
      refine hs.move hothers rfl hs.running (hused.snoc hholds.opened) ⟨?_, hown ending hreply⟩
      refine ⟨k', { conn' with reply := none }, hk, hholds.opened, ?_, hholds.isOpen⟩
      exact List.getElem?_set_self (List.getElem?_eq_some_iff.mp hconn).1
    | none =>
      -- The end of the stream comes only behind a response.
      have hnot : conn'.served ≠ true := fun hserve => hserved hserve hreply
      simp only [hreply, if_neg hnot] at h
      cases h

lemma orderly_closeStep {ending : Ending} (hs : s.Orderly) (hc : s.calls[i]? = some c)
    (hpc : c.pc = .close ending) : (s.closeStep i c ending).Orderly := by
  have hat := hs.atPc i c hc
  simp only [AtPc, hpc] at hat
  obtain ⟨⟨k, conn, hholds⟩, hown⟩ := hat
  have hothers := hs.others hc (by rw [hpc]; rfl)
  have hused := hs.used c (List.mem_of_getElem? hc)
  simp only [closeStep, hholds.field]
  exact hs.move hothers rfl hs.running (hused.snoc hholds.opened) hown

/-- A call that writes or reads has its connection in the field. -/
lemma Orderly.conn_ne_none (hs : s.Orderly) (hc : s.calls[i]? = some c)
    (hpc : c.pc = .write ∨ c.pc = .read) : s.conn ≠ none := by
  have hat := hs.atPc i c hc
  rcases hpc with hpc | hpc
  · simp only [AtPc, hpc] at hat
    obtain ⟨k, conn, hholds, -⟩ := hat
    simp [hholds.field]
  · simp only [AtPc, hpc] at hat
    obtain ⟨k, conn, hholds, -⟩ := hat
    simp [hholds.field]

lemma orderly_callStep (hs : s.Orderly) (hc : s.calls[i]? = some c)
    (hidle : c.pc = .connect → ∀ d ∈ s.calls, d.pc.idle = true)
    (h : s.callStep i c failure = some t) : t.Orderly := by
  unfold callStep at h
  split at h
  · next hpc =>
    cases h
    exact orderly_connectStep hs hc hpc (hidle hpc)
  · next hpc =>
    split at h
    · next hnil => exact absurd hnil (hs.conn_ne_none hc (.inl hpc))
    · next k hk =>
      obtain ⟨conn, hconn, rfl⟩ := Option.map_eq_some_iff.mp h
      exact orderly_writeStep hs hc hpc hk hconn
  · next hpc =>
    split at h
    · next hnil => exact absurd hnil (hs.conn_ne_none hc (.inr hpc))
    · next k hk =>
      obtain ⟨conn, hconn, hread⟩ := Option.bind_eq_some_iff.mp h
      exact orderly_readStep hs hc hpc hk hconn hread
  · next ending hpc =>
    cases h
    exact orderly_closeStep hs hc hpc
  · cases h

/-- A connection as the registry leaves it when it has read what was written to it. -/
lemma serveStep_cases {n : Nat} {o : Orders} {now : Int} {parseError : GoString}
    (h : s.serveStep k n conn o now parseError = some t) :
    t.conn = s.conn ∧ t.calls = s.calls ∧ t.panicked = s.panicked ∧ conn.written ≠ [] ∧
      ∃ ending, t.conns = s.conns.set k { conn with served := true, reply := some ending } ∧
        ∀ j cmd, conn.written = [(j, cmd)] → ending.Own j := by
  unfold serveStep at h
  split at h
  · cases h
  split at h
  · cases h
  · next j cmd hwritten =>
    cases h
    refine ⟨rfl, rfl, rfl, by rintro hnil; simp [hnil] at hwritten, _, rfl, ?_⟩
    intro j' cmd' hone
    cases n with
    | zero => simp at hwritten
    | succ n =>
      rw [hone] at hwritten
      simp only [List.take_succ_cons, List.take_nil, List.cons.injEq, Prod.mk.injEq,
        and_true] at hwritten
      exact .inl ⟨_, by rw [hwritten.1]⟩
  · next e₁ e₂ rest hwritten =>
    cases h
    refine ⟨rfl, rfl, rfl, by rintro hnil; simp [hnil] at hwritten, _, rfl, ?_⟩
    intro j' cmd' hone
    have hlen := congrArg List.length hwritten
    rw [hone] at hlen
    simp at hlen
    omega

lemma Holds.of_conns (h : s.Holds c k conn) {conn' : RegistryConn} (hconn : t.conn = s.conn)
    (hentry : t.conns[k]? = some conn') (hopen : conn'.closed = false) : t.Holds c k conn' :=
  ⟨hconn.trans h.field, h.opened, hentry, hopen⟩

lemma orderly_serveStep {n : Nat} {o : Orders} {now : Int} {parseError : GoString}
    (hs : s.Orderly) (hconn : s.conns[k]? = some conn)
    (h : s.serveStep k n conn o now parseError = some t) : t.Orderly := by
  obtain ⟨hfield, hcalls, hpanicked, hsome, ending, hconns, hown⟩ := serveStep_cases h
  have hentry : ∀ {c : SendCall} {k' conn'}, s.Holds c k' conn' →
      t.Holds c k' conn' ∨ conn' = conn ∧
        t.Holds c k' { conn with served := true, reply := some ending } := by
    intro c k' conn' hholds
    by_cases hk : k = k'
    · subst hk
      obtain rfl : conn' = conn := Option.some.inj (hholds.entry.symm.trans hconn)
      refine .inr ⟨rfl, hholds.of_conns hfield ?_ hholds.isOpen⟩
      rw [hconns]
      exact List.getElem?_set_self (List.getElem?_eq_some_iff.mp hconn).1
    · refine .inl (hholds.of_conns hfield ?_ hholds.isOpen)
      rw [hconns, List.getElem?_set_ne hk]
      exact hholds.entry
  refine ⟨hpanicked.trans hs.running, hcalls ▸ hs.used, fun i c hc => ?_, hcalls ▸ hs.alone⟩
  rw [hcalls] at hc
  have hat := hs.atPc i c hc
  unfold AtPc at hat ⊢
  cases hpc : c.pc with
  | connect => simpa only [hpc] using hat
  | returned ending => simpa only [hpc] using hat
  | write =>
    simp only [hpc] at hat ⊢
    obtain ⟨k', conn', hholds, hwritten, hrest⟩ := hat
    obtain hsame | ⟨rfl, -⟩ := hentry hholds
    · exact ⟨k', conn', hsame, hwritten, hrest⟩
    · exact absurd hwritten hsome
  | read =>
    simp only [hpc] at hat ⊢
    obtain ⟨k', conn', hholds, hwritten, hrest⟩ := hat
    obtain hsame | ⟨rfl, hnew⟩ := hentry hholds
    · exact ⟨k', conn', hsame, hwritten, hrest⟩
    · refine ⟨k', _, hnew, hwritten, by simp, ?_⟩
      rintro ending' ⟨⟩
      exact hown i c.cmd hwritten
  | close ending' =>
    simp only [hpc] at hat ⊢
    obtain ⟨⟨k', conn', hholds⟩, hending⟩ := hat
    obtain hsame | ⟨-, hnew⟩ := hentry hholds
    · exact ⟨⟨k', conn', hsame⟩, hending⟩
    · exact ⟨⟨k', _, hnew⟩, hending⟩

lemma orderly_call (hs : s.Orderly) (cmd : Request) :
    Orderly { s with calls := s.calls ++ [⟨cmd, .connect, none, []⟩] } := by
  have hnew : ∀ (i : Nat) (c : SendCall),
      (s.calls ++ [⟨cmd, .connect, none, []⟩])[i]? = some c →
      s.calls[i]? = some c ∨ c = ⟨cmd, .connect, none, []⟩ := by
    intro i c hc
    rw [List.getElem?_append] at hc
    split at hc
    · exact .inl hc
    · exact .inr (List.mem_singleton.mp (List.mem_of_getElem? hc))
  refine ⟨hs.running, fun c hc => ?_, fun i c hc => ?_, fun i j c d hc hd hc' hd' => ?_⟩
  · obtain hold | hnew := List.mem_append.mp hc
    · exact hs.used c hold
    · rw [List.mem_singleton.mp hnew]
      exact fun k hk => absurd hk List.not_mem_nil
  · obtain hold | rfl := hnew i c hc
    · exact (hs.atPc i c hold).of_same rfl rfl
    · rfl
  · obtain hold | rfl := hnew i c hc
    · obtain hold' | rfl := hnew j d hd
      · exact hs.alone i j c d hold hold' hc' hd'
      · cases hd'
    · cases hc'

lemma orderly_step {act : TcpClientAction} (hs : s.Orderly) (hok : s.OneAtATime act)
    (h : step s act = some t) : t.Orderly := by
  unfold step at h
  split at h
  · cases h
  split at h
  · cases h
    exact orderly_call hs _
  · obtain ⟨c, hc, hstep⟩ := Option.bind_eq_some_iff.mp h
    exact orderly_callStep hs hc (hok c hc) hstep
  · obtain ⟨conn, hconn, hstep⟩ := Option.bind_eq_some_iff.mp h
    exact orderly_serveStep hs hconn hstep

lemma orderly_init (r : Registry) : (init r).Orderly where
  running := rfl
  used := fun _ hc => absurd hc List.not_mem_nil
  atPc := by
    intro i c hc
    cases hc
  alone := by
    intro i j c d hc
    cases hc

end TcpClientState

namespace Proofs

/-- In a run in which each call connects only while no other call is between its `connect` and its
`close`, no call dereferences a nil connection, each uses only the connection it opened, and each
returns the response to its own request or a failure of the network. -/
theorem requests_do_not_mix (r : Registry) (acts : List TcpClientAction) (s : TcpClientState)
    (hrun : exec TcpClientState.step (.init r) acts = some s)
    (hone : Guarded TcpClientState.step TcpClientState.OneAtATime (.init r) acts) :
    s.panicked = false ∧ ∀ (i : Nat) (c : SendCall), s.calls[i]? = some c →
      (∀ k ∈ c.used, c.opened = some k) ∧
      ∀ ending, c.pc = .returned ending →
        (∃ resp, ending = .answer i resp) ∨ ∃ text, ending = .network text := by
  have hs : s.Orderly :=
    exec_invariant_guarded TcpClientState.Orderly
      (fun _ _ _ hs hok h => TcpClientState.orderly_step hs hok h)
      (TcpClientState.orderly_init r) hone hrun
  refine ⟨hs.running, fun i c hc => ⟨hs.used c (List.mem_of_getElem? hc), fun ending hpc => ?_⟩⟩
  have hat := hs.atPc i c hc
  simpa only [TcpClientState.AtPc, hpc, Ending.Own] using hat

/-- Two requests on one client, whose steps are taken in the given order. -/
def twoRequests (rest : List TcpClientAction) : List TcpClientAction :=
  [.call { action := str "get", serviceName := str "s" }, .call { action := str "list" }] ++ rest

/-- The registry answers the first request on a connection. -/
def answered (k : Nat) : TcpClientAction := .serve k 1 .stored 0 []

/-- One request after the other. -/
def inTurn : List TcpClientAction :=
  twoRequests [.run 0 none, .run 0 none, answered 0, .run 0 none, .run 0 none,
    .run 1 none, .run 1 none, answered 1, .run 1 none, .run 1 none]

theorem requests_do_not_mix_inTurn : ∃ s : TcpClientState,
    exec TcpClientState.step (.init registryWithA) inTurn = some s ∧
    (∃ c ∈ s.calls[1]?, c.used = [1, 1, 1] ∧ c.pc = .returned (.answer 1 (.done [str "s"]))) ∧
    s.panicked = false ∧ ∀ (i : Nat) (c : SendCall), s.calls[i]? = some c →
      (∀ k ∈ c.used, c.opened = some k) ∧
      ∀ ending, c.pc = .returned ending →
        (∃ resp, ending = .answer i resp) ∨ ∃ text, ending = .network text := by
  have hreturned : ∃ s ∈ exec TcpClientState.step (.init registryWithA) inTurn,
      ∃ c ∈ s.calls[1]?, c.used = [1, 1, 1] ∧ c.pc = .returned (.answer 1 (.done [str "s"])) := by
    decide +kernel
  obtain ⟨s, hs, hc⟩ := hreturned
  exact ⟨s, hs, hc, requests_do_not_mix registryWithA inTurn s hs (by decide +kernel)⟩

/-- A second call connects while the first waits: the first reads the answer to the second. If the
second connects before the first closes, it finds the field nil. -/
theorem requests_mix :
    (∃ s : TcpClientState, exec TcpClientState.step (.init registryWithA) (twoRequests
      [.run 0 none, .run 0 none, .run 1 none, .run 1 none, answered 1, .run 0 none,
       .run 0 none]) = some s ∧
      ∃ c, s.calls[0]? = some c ∧ c.opened = some 0 ∧ c.used = [0, 1, 1] ∧
        c.pc = .returned (.answer 1 (.done [str "s"]))) ∧
    ∃ s : TcpClientState, exec TcpClientState.step (.init registryWithA) (twoRequests
      [.run 0 none, .run 0 none, answered 0, .run 0 none, .run 1 none, .run 0 none,
       .run 1 none]) = some s ∧ s.panicked = true :=
  ⟨⟨_, rfl, _, rfl, rfl, rfl, rfl⟩, _, rfl, rfl⟩

end Proofs

end Zrpc
