import Mathlib.Data.List.Infix
import Zrpc.Proofs.RoundTrip
import Zrpc.Proofs.ClientOwnership

/-!
# What the client reads from a connection

The server's bytes on a connection are its answers, one frame after the other. A read that delivers
nothing or a whole frame within the limit leaves the client at the beginning of a frame; every other
read does not, and neither does the byte that `pingCheck` reads.
-/

namespace Zrpc

variable {V T : Type}

/-- The client has read a number of whole frames. -/
def ClientConn.OnBoundary (k : ClientConn) : Prop :=
  ∃ done later, k.answers = done ++ later ∧ k.pos = (done.flatMap Answer.frame).length

/-- The bytes a read delivers are none, or begin with a whole frame whose data length is within the
limit. -/
def deliversWhole (maxLength : Int) (data : Bytes) : Bool :=
  data.isEmpty || (15 ≤ data.length &&
    let dataLen := Lib.leNat ((data.drop 11).take 4)
    15 + dataLen ≤ data.length && (maxLength ≤ 0 || (dataLen : Int) ≤ maxLength))

/-- The connection on which an Invoke is about to call `Decode`. -/
def Thread.decodes : Thread T → Option Nat
  | .invoke t => match t.pc, t.cells with
    | .recv, cell :: _ => some cell.conn
    | _, _ => none
  | _ => none

namespace Proofs

open Zrpc.Lib

/-! ### Decode -/

/-- What `Decode` returns does not depend on the bytes behind those it reads. -/
lemma decode_more {E : Env} {maxLength : Int} {d : Bytes} {failure : GoString} {m : Message}
    (h : (decode E maxLength ⟨d, failure⟩).1 = .ok m) (e : Bytes) (failure' : GoString) :
    (decode E maxLength ⟨d ++ e, failure'⟩).1 = .ok m := by
  rw [decode_ok_iff] at h ⊢
  obtain ⟨hlen, hmagic, hmax, hdata⟩ := h
  dsimp only at hlen hmagic hmax hdata ⊢
  have hheader : (d ++ e).take 11 = d.take 11 := List.take_append_of_le_length (by omega)
  have hlength : frameLength (d ++ e) = frameLength d := by
    unfold frameLength
    rw [List.drop_append_of_le_length (by omega), List.take_append_of_le_length]
    rw [List.length_drop]
    omega
  have hframe : frameData (d ++ e) = frameData d := by
    unfold frameData
    rw [hlength, List.drop_append_of_le_length (by omega), List.take_append_of_le_length]
    rw [List.length_drop]
    omega
  rw [hheader, hlength, hframe, List.length_append]
  exact ⟨by omega, hmagic, hmax, hdata⟩

/-- A frame that `Decode` accepts in front of other bytes is accepted alone. -/
lemma decode_alone {E : Env} {maxLength : Int} {h : Header} {body tail : Bytes}
    {failure failure' : GoString} {m : Message} (hm : h.checkMagicNumber = true)
    (hlen : body.length < 2 ^ 32)
    (hok : (decode E maxLength ⟨frameBytes h body ++ tail, failure⟩).1 = .ok m) :
    (decode E maxLength ⟨frameBytes h body, failure'⟩).1 = .ok m := by
  have halone := decode_frame_cases E maxLength h body [] failure' hm hlen
  rw [decode_frame_cases E maxLength h body tail failure hm hlen] at hok
  rw [List.append_nil] at halone
  rw [halone]
  split at hok
  · cases hok
  · next hmax =>
    rw [if_neg hmax]
    exact hok

/-! ### Operations on the wire -/

/-- What operation `op` does to what is on connection `c`. -/
inductive WireMove (op : ClientOp) (c : Nat) (k k' : ClientConn) : Prop
  | same (hs : k'.sent = k.sent) (ha : k'.answers = k.answers) (hp : k'.pos = k.pos)
  | send {r} (hop : op = .send c r) (hs : k'.sent = k.sent ++ [r]) (ha : k'.answers = k.answers)
    (hp : k'.pos = k.pos)
  | read {n} (hop : op = .read c n) (hs : k'.sent = k.sent) (ha : k'.answers = k.answers)
    (hp : k'.pos = k.pos + n)

section Apply

variable {s : ClientShared} {op : ClientOp} {c : Nat} {k : ClientConn}

lemma wireMove_of_connMove {k' : ClientConn} (h : ConnMove op c k k') : WireMove op c k k' := by
  cases h with
  | same he | mark _ he =>
    subst he
    exact .same rfl rfl rfl
  | close _ he =>
    obtain ⟨-, hs, ha, hp⟩ := close_fields k
    exact he ▸ .same hs ha hp
  | send hop he =>
    subst he
    exact .send hop rfl rfl rfl
  | read hop he =>
    subst he
    exact .read hop rfl rfl rfl

lemma wire_apply (op : ClientOp) (hk : s.conns[c]? = some k) :
    ∃ k', (s.apply op).conns[c]? = some k' ∧ WireMove op c k k' := by
  obtain ⟨k', hk', hm⟩ := conn_apply op hk
  exact ⟨k', hk', wireMove_of_connMove hm⟩

/-- An invariant of the wire of each connection needs to be checked on the three kinds of moves. -/
lemma wire_cases {P : ClientConn → Prop} (hold : ∀ k, s.conns[c]? = some k → P k)
    (hnew : ∀ p, P (.new p)) (hmove : ∀ k k', s.conns[c]? = some k → P k → WireMove op c k k' → P k')
    {k' : ClientConn} (hk' : (s.apply op).conns[c]? = some k') : P k' :=
  conn_cases hold hnew (fun k k' hk hp hm => hmove k k' hk hp (wireMove_of_connMove hm)) hk'

end Apply

/-! ### Frames on the wire -/

/-- The answers on a connection are frames. -/
def Framed (k : ClientConn) : Prop :=
  ∀ a ∈ k.answers, ∃ h body, a.frame = frameBytes h body ∧ h.checkMagicNumber = true ∧
    body.length < 2 ^ 32

lemma framed_of_answers {k k' : ClientConn} (h : Framed k) (ha : k'.answers = k.answers) :
    Framed k' := by
  unfold Framed
  rw [ha]
  exact h

lemma framed_answer {k k' : ClientConn} {request : Nat} {header : Header} {body : Bytes}
    (hk : Framed k) (h : k.answer request header body = some k') : Framed k' := by
  obtain ⟨_, _, hm, hlen, rfl⟩ := answer_spec h
  intro a ha
  rcases List.mem_append.mp ha with hold | hnew
  · exact hk a hold
  · rw [List.mem_singleton.mp hnew]
    exact ⟨header, body, rfl, hm, hlen⟩

lemma stream_drop {k : ClientConn} {done later : List Answer} (ha : k.answers = done ++ later)
    (hp : k.pos = (done.flatMap Answer.frame).length) :
    k.stream.drop k.pos = later.flatMap Answer.frame := by
  rw [ClientConn.stream, ha, List.flatMap_append, hp, List.drop_left]

lemma length_frameBytes (h : Header) (body : Bytes) :
    (frameBytes h body).length = 15 + body.length := by
  rw [frameBytes, List.length_append, length_toBytes, length_lp]
  omega

/-- The length field of a frame that has been delivered with at least 15 bytes. -/
lemma dataLen_of_take {h : Header} {body rest : Bytes} {n : Nat} (hn : 15 ≤ n)
    (hlen : body.length < 2 ^ 32) :
    leNat ((((frameBytes h body ++ rest).take n).drop 11).take 4) = body.length := by
  have hdrop : (frameBytes h body ++ rest).drop 11 = leBytes 4 body.length ++ (body ++ rest) := by
    have h11 : 11 = h.toBytes.length := (length_toBytes h).symm
    rw [frameBytes, lp, List.append_assoc, h11, List.drop_left, List.append_assoc]
  rw [List.drop_take, List.take_take, min_eq_left (by omega), hdrop,
    List.take_left' (length_leBytes 4 body.length)]
  exact leNat_leBytes (by simpa using hlen)

lemma whole_frame {maxLength : Int} {h : Header} {body rest : Bytes} {n : Nat}
    (hlen : body.length < 2 ^ 32)
    (hw : deliversWhole maxLength ((frameBytes h body ++ rest).take n) = true) :
    (frameBytes h body ++ rest).take n = [] ∨
      ((maxLength ≤ 0 ∨ (body.length : Int) ≤ maxLength) ∧
        ∃ e, (frameBytes h body ++ rest).take n = frameBytes h body ++ e) := by
  simp only [deliversWhole, Bool.or_eq_true, List.isEmpty_iff, Bool.and_eq_true,
    decide_eq_true_eq] at hw
  rcases hw with hnil | ⟨h15, hfit, hmax⟩
  · exact .inl hnil
  · have hn : 15 ≤ n := le_trans h15 (List.length_take_le _ _)
    rw [dataLen_of_take hn hlen] at hfit hmax
    have hfl : (frameBytes h body).length ≤ n := by
      rw [length_frameBytes]
      exact le_trans hfit (List.length_take_le _ _)
    refine .inr ⟨hmax, rest.take (n - (frameBytes h body).length), ?_⟩
    rw [List.take_append, List.take_of_length_le hfl]

/-- A read of the whole next frame, or of nothing, stops at a boundary. -/
lemma boundary_of_recvFrame {cfg : ClientConfig V T} {k : ClientConn} {n : Nat} (failure : GoString)
    (hf : Framed k) (hb : k.OnBoundary)
    (hw : deliversWhole cfg.maxReceiveMessageSize ((k.stream.drop k.pos).take n) = true) :
    ClientConn.OnBoundary { k with pos := k.pos + (recvFrame cfg k n failure).2 } := by
  obtain ⟨done, later, ha, hp⟩ := hb
  have hdrop := stream_drop ha hp
  have hnone : (k.stream.drop k.pos).take n = [] →
      ClientConn.OnBoundary { k with pos := k.pos + (recvFrame cfg k n failure).2 } := by
    intro hnil
    have hread : (recvFrame cfg k n failure).2 = 0 := by simp [recvFrame, hnil]
    exact ⟨done, later, ha, by simp [hread, hp]⟩
  cases later with
  | nil =>
    apply hnone
    rw [hdrop]
    exact List.take_nil
  | cons a later =>
    obtain ⟨h, body, hframe, hm, hlen⟩ := hf a (by simp [ha])
    rw [List.flatMap_cons, hframe] at hdrop
    rw [hdrop] at hw
    rcases whole_frame hlen hw with hnil | ⟨hmax, e, he⟩
    · exact hnone (hdrop ▸ hnil)
    · have hread : (recvFrame cfg k n failure).2 = (frameBytes h body).length := by
        simp only [recvFrame, hdrop, he, decode_frame cfg.env cfg.maxReceiveMessageSize h body e
          failure hm hlen hmax, List.length_append, Nat.add_sub_cancel]
      refine ⟨done ++ [a], later, by simp [ha], ?_⟩
      simp [hread, hp, hframe]

/-! ### Who reads -/

section Reads

variable {cfg : ClientConfig V T} {s : ClientShared} {p c n id : Nat} {inp : Input}

lemma isHealthy_read {k : ClientConn} {d : Nat} {h : Health} {healthy : Bool}
    (ho : isHealthy k d h = some (.read c n, healthy)) : h = .pingByte := by
  rcases isHealthy_op ho with hop | ⟨-, hh⟩
  · cases hop
  · exact hh

lemma getStep_read {pc : GetPc} {out : GetOut} (h : getStep s p pc inp = some (.read c n, out)) :
    inp = .health .pingByte := by
  cases getStep_move h with
  | health _ _ hinp hh => rw [hinp, isHealthy_read hh]

/-- Only `Decode` and the ping read from a connection. -/
lemma threadStep_read {th th' : Thread T}
    (h : threadStep cfg s id th inp = some (.read c n, th')) :
    inp = .health .pingByte ∨ ∃ k l failure, th.decodes = some c ∧ s.conns[c]? = some k ∧
      inp = .read l failure ∧ n = (recvFrame cfg k l failure).2 := by
  cases threadStep_source h with
  | get _ _ hget => exact .inl (getStep_read hget)
  | health _ hinp hh => exact .inl (by rw [hinp, isHealthy_read hh])
  | @recv t cell rest k l failure _ hpc hcells hk hinp =>
    exact .inr ⟨k, l, failure, by simp [Thread.decodes, hpc, hcells], hk, hinp, rfl⟩
  | own hop _ _ | put hop _ _ | prewarm hop _ | closer hop _ => cases hop

end Reads

/-! ### Reads on frame boundaries -/

/-- A step in which `Decode` gets nothing or the whole next frame, and no ping reads a byte. -/
def WholeRead (cfg : ClientConfig V T) (s : ClientState T) : ClientAction T → Prop
  | .run _ (.health .pingByte) => False
  | .run i (.read n _) => ∀ th ∈ s.threads[i]?, ∀ c ∈ th.decodes, ∀ k ∈ s.shared.conns[c]?,
      deliversWhole cfg.maxReceiveMessageSize ((k.stream.drop k.pos).take n) = true
  | _ => True

def Bounded (s : ClientState T) : Prop :=
  ∀ (c : Nat) (k : ClientConn), s.shared.conns[c]? = some k → Framed k ∧ k.OnBoundary

lemma framed_new (p : Nat) : Framed (.new p) := fun a ha => by cases ha

lemma onBoundary_new (p : Nat) : (ClientConn.new p).OnBoundary := ⟨[], [], rfl, rfl⟩

lemma bounded_step {cfg : ClientConfig V T} {s t : ClientState T} {a : ClientAction T}
    (hs : Bounded s) (hok : WholeRead cfg s a) (h : clientStep cfg s a = some t) : Bounded t := by
  intro c k' hk'
  cases clientStep_move h with
  | @run i inp th op th' hi hstep =>
    refine wire_cases (P := fun k => Framed k ∧ k.OnBoundary) (hs c)
      (fun p => ⟨framed_new p, onBoundary_new p⟩) ?_ hk'
    rintro k l hk ⟨hf, hb⟩ hmove
    obtain ⟨done, later, ha, hp⟩ := hb
    cases hmove with
    | same hs' ha' hp' =>
      exact ⟨framed_of_answers hf ha', done, later, ha'.trans ha, hp'.trans hp⟩
    | send hop hs' ha' hp' =>
      exact ⟨framed_of_answers hf ha', done, later, ha'.trans ha, hp'.trans hp⟩
    | @read n hop hs' ha' hp' =>
      subst hop
      refine ⟨framed_of_answers hf ha', ?_⟩
      rcases threadStep_read hstep with rfl | ⟨k₁, m, failure, hdec, hk₁, rfl, hn⟩
      · exact absurd hok id
      · have he : k₁ = k := Option.some.inj (hk₁.symm.trans hk)
        subst he
        have hw := hok th hi c hdec k₁ hk
        obtain ⟨done, later, ha, hp⟩ := boundary_of_recvFrame failure hf
          ⟨done, later, ha, hp⟩ hw
        exact ⟨done, later, ha'.trans ha, by rw [hp', hn]; exact hp⟩
  | @answer d request header body k k₁ hk hans =>
    rcases getElem?_set_cases hk' with ⟨-, rfl⟩ | ⟨-, hold⟩
    · obtain ⟨hf, done, later, ha, hp⟩ := hs d k hk
      refine ⟨framed_answer hf hans, ?_⟩
      obtain ⟨_, _, _, _, rfl⟩ := answer_spec hans
      exact ⟨done, later ++ [⟨request, frameBytes header body⟩], by simp [ha], hp⟩
    · exact hs c k' hold
  | start a => exact hs c k' hk'

/-- In a run in which every `Decode` gets nothing or a whole frame within the limit and no ping reads
a byte, every `Decode` starts at the beginning of a frame. -/
theorem decode_on_boundary (cfg : ClientConfig V T) (acts : List (ClientAction T))
    (s : ClientState T) (h : exec (clientStep cfg) .init acts = some s)
    (hok : Guarded (clientStep cfg) (WholeRead cfg) .init acts) :
    ∀ th ∈ s.threads, ∀ c ∈ th.decodes, ∀ k ∈ s.shared.conns[c]?, k.OnBoundary := by
  have hs : Bounded s := exec_invariant_guarded Bounded
    (fun _ _ _ hs ho hstep => bounded_step hs ho hstep) (fun c k hk => by cases hk) hok h
  intro th _ c _ k hk
  exact (hs c k hk).2

instance (k : ClientConn) : Decidable k.OnBoundary :=
  decidable_of_iff (∃ done ∈ k.answers.inits, k.pos = (done.flatMap Answer.frame).length) <| by
    constructor
    · rintro ⟨done, hd, hp⟩
      obtain ⟨later, ha⟩ := (List.mem_inits _ _).mp hd
      exact ⟨done, later, ha.symm, hp⟩
    · rintro ⟨done, later, ha, hp⟩
      exact ⟨done, (List.mem_inits _ _).mpr ⟨later, ha.symm⟩, hp⟩

instance (cfg : ClientConfig V T) (s : ClientState T) : ∀ a, Decidable (WholeRead cfg s a)
  | .run i inp => match inp with
    | .health h => match h with
      | .pingByte => isFalse id
      | .fresh | .tooOld | .pingTimeout | .pingError => isTrue trivial
    | .read _ _ => inferInstanceAs (Decidable (∀ th ∈ s.threads[i]?, ∀ c ∈ th.decodes,
        ∀ k ∈ s.shared.conns[c]?, _))
    | .go | .fail _ | .addr _ | .deadline _ | .targets _ => isTrue trivial
  | .invoke _ _ | .heartbeat | .close | .updateServers _ | .answer _ _ _ _ => isTrue trivial

/-- The server answers a request on connection 0. -/
def respond (request : Nat) (seq : UInt64) (payload : Bytes) : ClientAction Unit :=
  .answer 0 request ⟨magicNumber, 0, 0x80, seq⟩ (bodyBytes [] [] [] payload)

/-- A second Invoke takes the connection of the first and writes its request. -/
def reuseConn : List (ClientAction Unit) :=
  [.invoke true ()] ++ findPool 2 ++ steps 2 3 ++ [.run 2 (.health .fresh)] ++ steps 2 6

def answeredCall : List (ClientAction Unit) :=
  dialOnly ++ [.run 0 .go, respond 0 1 [42], .run 0 (.read 4096 [])] ++ steps 0 7

theorem decode_on_boundary_answered : ∃ s : ClientState Unit,
    exec (clientStep smallClient) .init (answeredCall ++ reuseConn) = some s ∧
      (∃ th ∈ s.threads, th.decodes = some 0) ∧
      ∀ th ∈ s.threads, ∀ c ∈ th.decodes, ∀ k ∈ s.shared.conns[c]?, k.OnBoundary := by
  have hrun : ∃ s ∈ exec (clientStep smallClient) .init (answeredCall ++ reuseConn),
      ∃ th ∈ s.threads, th.decodes = some 0 := by
    decide +kernel
  obtain ⟨s, hs, hth⟩ := hrun
  exact ⟨s, hs, hth, decode_on_boundary smallClient (answeredCall ++ reuseConn) s hs (by decide +kernel)⟩

/-- The deadline fires after 5 bytes of the response. -/
def partialRead : List (ClientAction Unit) :=
  dialOnly ++ [.run 0 .go, respond 0 1 [42], .run 0 (.read 5 (str "i/o timeout"))] ++ steps 0 6 ++
    reuseConn

theorem partialRead_not_onBoundary :
    ∃ s ∈ exec (clientStep smallClient) .init partialRead, ∃ th ∈ s.threads, ∃ c ∈ th.decodes,
      ∃ k ∈ s.shared.conns[c]?, ¬ k.OnBoundary := by
  decide +kernel

end Proofs
end Zrpc
