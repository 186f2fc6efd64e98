import Zrpc.Lib.Ensures
import Zrpc.Proofs.Answer
import Zrpc.ServerWrite

/-!
# What a server puts on a connection

Every write is of an encoded message. The bytes are whole frames up to the first write that stops
inside its frame; nothing is written behind it if no other goroutine is about to write at that
moment, and the connection is closed before the next one locks a mutex for it.
-/

namespace Zrpc

/-- The goroutine holds a mutex and is about to call `conn.Write`. -/
def FrameWriter.aboutToWrite (w : FrameWriter) : Bool :=
  match w.pc with
  | .locked _ => true
  | .encoded | .waiting _ | .written _ | .finished => false

/-- A request is answered: goroutines that write are started. -/
def WriteAction.answers : WriteAction → Bool
  | .process _ _ _ | .reject _ _ _ => true
  | .getConnMutex _ | .lock _ | .write _ _ | .unlock _ | .dropMutex _ | .close _ => false

end Zrpc

namespace Zrpc.Proofs

open Zrpc.Lib

variable {V T : Type}

/-- The bytes are the output of `Encode` for some message. -/
def Encoded (E : Env) (frame : Bytes) : Prop :=
  ∃ (m : Message) (c : EncodeChoice m.metadata) (header : Header), m.encode E c = .ok (frame, header)

/-! ### Every frame is an encoded message -/

lemma encoded_of_send {E : Env} {c : ∀ md, EncodeChoice md} {res : Message} {sent : Sent}
    (h : res.send E c = .ok sent) : Encoded E sent.frame := by
  obtain ⟨⟨frame, header⟩, henc, hret⟩ := bind_eq_ok h
  cases hret
  exact ⟨res, c res.metadata, header, henc⟩

lemma encoded_of_sendResponse {E : Env} {P : Proto V T} {opt : ServerOption}
    {c : ∀ md, EncodeChoice md} {originalErr : Option GoString} {req res : Message}
    {reply : Option V} {sent : Sent}
    (h : sendResponse E P opt c originalErr req res reply = .ok sent) : Encoded E sent.frame := by
  obtain ⟨res', -, hsend⟩ := bind_eq_ok h
  exact encoded_of_send hsend

lemma encoded_of_reject {E : Env} {P : Proto V T} {S : Server V T} {c : ∀ md, EncodeChoice md}
    {req : Message} {err : GoString} {sent : Sent} (h : S.reject E P c req err = .ok sent) :
    Encoded E sent.frame := by
  obtain ⟨res, -, hsend⟩ := bind_eq_ok h
  exact encoded_of_sendResponse hsend

lemma encoded_of_handleRequest {E : Env} {P : Proto V T} {S : Server V T}
    {c : ∀ md, EncodeChoice md} {ctx : Ctx} {req : Message} {sent : Sent}
    (h : S.handleRequest E P c ctx req = .ok sent) : Encoded E sent.frame := by
  obtain ⟨methods, -, hrest⟩ := bind_eq_ok h
  split at hrest
  · exact encoded_of_sendResponse hrest
  · split at hrest
    · cases hrest
    · exact encoded_of_sendResponse hrest
    · obtain ⟨res, -, hsend⟩ := bind_eq_ok hrest
      exact encoded_of_sendResponse hsend

lemma encoded_of_processOneRequest {E : Env} {P : Proto V T} {S : Server V T}
    {c : ∀ md, EncodeChoice md} {ctx : Ctx} {req : Message} {sent : Sent}
    (h : sent ∈ S.processOneRequest E P c ctx req) : Encoded E sent.frame := by
  unfold Server.processOneRequest at h
  dsimp only at h
  split at h
  · rename_i sent' hsent
    rw [List.mem_singleton.mp h]
    split at hsent
    · exact encoded_of_send hsent
    · exact encoded_of_handleRequest hsent
  · cases h

/-! ### What one step does -/

/-- The frames a state holds: those still to be written and those of the writes made. -/
structure FramesEncoded (E : Env) (s : WriteState) : Prop where
  writers : ∀ w ∈ s.writers, Encoded E w.frame
  log : ∀ w ∈ s.log, Encoded E w.frame

lemma FramesEncoded.turn {E : Env} {s : WriteState} (h : FramesEncoded E s)
    {connMutexes : AList (fun _ : Nat => Nat)} {mutexes : List Bool} {i : Nat} {w : FrameWriter}
    {pc : WriterPc} (hw : s.writers[i]? = some w) :
    FramesEncoded E ({ s with connMutexes := connMutexes, mutexes := mutexes }.setPc i w pc) := by
  refine ⟨fun v hv => ?_, h.log⟩
  rcases List.mem_or_eq_of_mem_set hv with hv | rfl
  · exact h.writers v hv
  · exact h.writers w (List.mem_of_getElem? hw)

lemma FramesEncoded.spawn {E : Env} {s : WriteState} (h : FramesEncoded E s) (conn : Nat)
    {sent : List Sent} (hs : ∀ m ∈ sent, Encoded E m.frame) :
    FramesEncoded E (s.spawn conn sent) := by
  refine ⟨fun v hv => ?_, h.log⟩
  rcases List.mem_append.mp hv with hv | hv
  · exact h.writers v hv
  · obtain ⟨m, hm, rfl⟩ := List.mem_map.mp hv
    exact hs m hm

/-- The steps of `writeStep`, each with what it needs. -/
inductive WriterMove (E : Env) (s : WriteState) : WriteAction → WriteState → Prop
  | spawn {a conn sent} (ha : a.answers = true)
    (hsent : ∀ m ∈ sent, Encoded E m.frame) : WriterMove E s a (s.spawn conn sent)
  | take {i w mu} (hw : s.writers[i]? = some w) (hpc : w.pc = .encoded)
    (hmu : s.connMutexes.lookup w.conn = some mu) :
    WriterMove E s (.getConnMutex i) (s.setPc i w (.waiting mu))
  | make {i w} (hw : s.writers[i]? = some w) (hpc : w.pc = .encoded)
    (hnone : s.connMutexes.lookup w.conn = none) :
    WriterMove E s (.getConnMutex i)
      ({ s with
        connMutexes := s.connMutexes.insert w.conn s.mutexes.length
        mutexes := s.mutexes ++ [false] }.setPc i w (.waiting s.mutexes.length))
  | lock {i w mu} (hw : s.writers[i]? = some w) (hpc : w.pc = .waiting mu)
    (hfree : s.mutexes[mu]? = some false) :
    WriterMove E s (.lock i) ({ s with mutexes := s.mutexes.set mu true }.setPc i w (.locked mu))
  | write {i count w mu} (hw : s.writers[i]? = some w) (hpc : w.pc = .locked mu)
    (hclosed : w.conn ∈ s.closed → count = 0) :
    WriterMove E s (.write i count)
      { s.setPc i w (.written mu) with log := s.log ++ [⟨w.conn, w.frame, count⟩] }
  | unlock {i w mu} (hw : s.writers[i]? = some w) (hpc : w.pc = .written mu) :
    WriterMove E s (.unlock i) ({ s with mutexes := s.mutexes.set mu false }.setPc i w .finished)
  | dropMutex {conn} :
    WriterMove E s (.dropMutex conn) { s with connMutexes := s.connMutexes.erase conn }
  | close {conn} : WriterMove E s (.close conn) { s with closed := conn :: s.closed }

section Step

variable {E : Env} {P : Proto V T} {S : Server V T} {c : ∀ md, EncodeChoice md}
  {s t : WriteState} {a : WriteAction}

lemma writeStep_move (h : writeStep E P S c s a = some t) : WriterMove E s a t := by
  cases a with
  | process conn ctx req =>
    cases h
    exact .spawn rfl (fun m hm => encoded_of_processOneRequest hm)
  | reject conn req err =>
    simp only [writeStep] at h
    split at h <;> cases h
    rename_i sent hsent
    refine .spawn rfl (fun m hm => ?_)
    rw [List.mem_singleton.mp hm]
    exact encoded_of_reject hsent
  | getConnMutex i =>
    simp only [writeStep] at h
    split at h <;> cases h
    rename_i conn frame hw
    unfold WriteState.getConnMutex
    split
    · rename_i mu hmu
      exact .take hw rfl hmu
    · rename_i hnone
      exact .make hw rfl hnone
  | lock i =>
    simp only [writeStep] at h
    split at h
    · rename_i conn frame mu hw
      split at h <;> cases h
      rename_i hfree
      exact .lock hw rfl hfree
    · cases h
  | write i count =>
    simp only [writeStep, WriteState.write] at h
    split at h
    · rename_i conn frame mu hw
      split at h <;> cases h
      rename_i hguard
      exact .write hw rfl hguard.2
    · cases h
  | unlock i =>
    simp only [writeStep] at h
    split at h <;> cases h
    rename_i conn frame mu hw
    exact .unlock hw rfl
  | dropMutex conn =>
    cases h
    exact .dropMutex
  | close conn =>
    cases h
    exact .close

/-- Only a write changes the log. -/
lemma writeStep_log (h : writeStep E P S c s a = some t) :
    (∃ i count w, a = .write i count ∧ s.writers[i]? = some w ∧
      t.log = s.log ++ [⟨w.conn, w.frame, count⟩]) ∨ t.log = s.log := by
  cases writeStep_move h with
  | write hw _ _ => exact .inl ⟨_, _, _, rfl, hw, rfl⟩
  | spawn _ _ | take _ _ _ | make _ _ _ | lock _ _ _ | unlock _ _ | dropMutex | close =>
    exact .inr rfl

lemma writeStep_framesEncoded (hs : FramesEncoded E s) (h : writeStep E P S c s a = some t) :
    FramesEncoded E t := by
  cases writeStep_move h with
  | spawn _ hsent => exact hs.spawn _ hsent
  | take hw _ _ | make hw _ _ | lock hw _ _ | unlock hw _ => exact hs.turn hw
  | @write i _ w mu hw _ _ =>
    have hturn : FramesEncoded E (s.setPc i w (.written mu)) := hs.turn hw
    refine ⟨hturn.writers, fun v hv => ?_⟩
    rcases List.mem_append.mp hv with hold | hnew
    · exact hs.log v hold
    · rw [List.mem_singleton.mp hnew]
      exact hs.writers w (List.mem_of_getElem? hw)
  | dropMutex | close => exact ⟨hs.writers, hs.log⟩

end Step

/-! ### Whole frames -/

/-- Writes on a connection that leave it with whole frames: every write that put bytes on the wire
put its whole frame there, except perhaps the last one. -/
def WholeFrames (ws : List ConnWrite) : Prop :=
  ∃ whole rest, ws.filter (fun w => 0 < w.count) = whole ++ rest ∧
    (∀ w ∈ whole, w.count = w.frame.length) ∧ rest.length ≤ 1

/-- No write so far stopped inside its frame. -/
def Unbroken (ws : List ConnWrite) : Prop := ∀ w ∈ ws, w.count = 0 ∨ w.count = w.frame.length

instance (ws : List ConnWrite) : Decidable (Unbroken ws) :=
  inferInstanceAs (Decidable (∀ w ∈ ws, _))

lemma wholeFrames_append (ws : List ConnWrite) (w : ConnWrite) :
    WholeFrames (ws ++ [w]) ↔ WholeFrames ws ∧ (w.count = 0 ∨ Unbroken ws) := by
  by_cases h0 : w.count = 0
  · have hfilter : (ws ++ [w]).filter (fun w => 0 < w.count) = ws.filter (fun w => 0 < w.count) := by
      simp [List.filter_append, h0]
    unfold WholeFrames
    rw [hfilter]
    simp [h0]
  have hfilter : (ws ++ [w]).filter (fun w => 0 < w.count) =
      ws.filter (fun w => 0 < w.count) ++ [w] := by
    simp [List.filter_append, Nat.pos_of_ne_zero h0]
  have hunbroken : Unbroken ws ↔ ∀ v ∈ ws.filter (fun w => 0 < w.count), v.count = v.frame.length := by
    unfold Unbroken
    simp only [List.mem_filter, decide_eq_true_eq, and_imp]
    refine forall₂_congr fun v _ => ?_
    rw [or_iff_not_imp_left, Nat.pos_iff_ne_zero]
  rw [or_iff_right h0, hunbroken]
  unfold WholeFrames
  rw [hfilter]
  constructor
  · rintro ⟨whole, rest, heq, hwhole, hrest⟩
    have hall : ∀ v ∈ ws.filter (fun w => 0 < w.count), v.count = v.frame.length := by
      cases rest with
      | nil =>
        intro v hv
        rw [List.append_nil] at heq
        exact hwhole v (heq ▸ List.mem_append_left _ hv)
      | cons last tail =>
        have htail : tail = [] := List.length_eq_zero_iff.mp (by simpa using hrest)
        rw [htail] at heq
        rw [List.append_inj_left' heq rfl]
        exact hwhole
    exact ⟨⟨_, [], (List.append_nil _).symm, hall, by simp⟩, hall⟩
  · rintro ⟨-, hall⟩
    exact ⟨_, [w], rfl, hall, by simp⟩

lemma writesOn_append (s t : WriteState) (w : ConnWrite) (conn : Nat) (h : t.log = s.log ++ [w]) :
    t.writesOn conn = if w.conn = conn then s.writesOn conn ++ [w] else s.writesOn conn := by
  unfold WriteState.writesOn
  rw [h, List.filter_append]
  split <;> simp_all

lemma unbroken_append {ws : List ConnWrite} {w : ConnWrite} (h : Unbroken ws)
    (hw : w.count = 0 ∨ w.count = w.frame.length) : Unbroken (ws ++ [w]) := by
  intro v hv
  rcases List.mem_append.mp hv with hold | hnew
  · exact h v hold
  · rw [List.mem_singleton.mp hnew]
    exact hw

lemma flatMap_put_filter (ws : List ConnWrite) :
    (ws.filter (fun w => 0 < w.count)).flatMap ConnWrite.put = ws.flatMap ConnWrite.put := by
  induction ws with
  | nil => rfl
  | cons w ws ih =>
    by_cases h0 : w.count = 0
    · simp [h0, ih, ConnWrite.put]
    · simp [Nat.pos_of_ne_zero h0, ih]

lemma flatMap_put_whole {ws : List ConnWrite} (h : ∀ w ∈ ws, w.count = w.frame.length) :
    ws.flatMap ConnWrite.put = (ws.map ConnWrite.frame).flatten := by
  induction ws with
  | nil => rfl
  | cons w ws ih =>
    have hw : w.put = w.frame := by
      unfold ConnWrite.put
      rw [h w (by simp), List.take_length]
    rw [List.flatMap_cons, hw, ih (fun v hv => h v (List.mem_cons_of_mem _ hv))]
    rfl

/-- Complete encoded frames, followed by at most one incomplete one. -/
def FrameSequence (E : Env) (bytes : Bytes) : Prop :=
  ∃ (frames : List Bytes) (tail : Bytes), bytes = frames.flatten ++ tail ∧
    (∀ f ∈ frames, Encoded E f) ∧ (tail = [] ∨ ∃ f, Encoded E f ∧ tail <+: f)

lemma frameSequence_of_wholeFrames {E : Env} {ws : List ConnWrite}
    (henc : ∀ w ∈ ws, Encoded E w.frame) (h : WholeFrames ws) :
    FrameSequence E (ws.flatMap ConnWrite.put) := by
  obtain ⟨whole, rest, heq, hwhole, hrest⟩ := h
  have hmem : ∀ w ∈ whole ++ rest, w ∈ ws := fun w hw => List.mem_of_mem_filter (heq ▸ hw)
  refine ⟨whole.map ConnWrite.frame, rest.flatMap ConnWrite.put, ?_, ?_, ?_⟩
  · rw [← flatMap_put_filter, heq, List.flatMap_append, flatMap_put_whole hwhole]
  · intro f hf
    obtain ⟨w, hw, rfl⟩ := List.mem_map.mp hf
    exact henc w (hmem w (List.mem_append_left _ hw))
  · cases rest with
    | nil => exact .inl rfl
    | cons w tail =>
      have htail : tail = [] := List.length_eq_zero_iff.mp (by simpa using hrest)
      refine .inr ⟨w.frame, henc w (hmem w (by simp)), ?_⟩
      rw [htail, List.flatMap_singleton]
      exact List.take_prefix w.count w.frame

/-! ### Writers and torn connections -/

/-- A write may stop inside its frame while no other goroutine is about to write on the connection;
after that, a mutex is locked to write there only once the connection is closed. -/
def ClosedWhenTorn (s : WriteState) : WriteAction → Prop
  | .write i count => ∀ w ∈ s.writers[i]?, count = 0 ∨ count = w.frame.length ∨
      ∀ j < s.writers.length, j ≠ i → ∀ v ∈ s.writers[j]?, v.conn = w.conn → v.aboutToWrite = false
  | .lock i => ∀ w ∈ s.writers[i]?, Unbroken (s.writesOn w.conn) ∨ w.conn ∈ s.closed
  | _ => True

instance (s : WriteState) : ∀ a, Decidable (ClosedWhenTorn s a)
  | .write i _ => inferInstanceAs (Decidable (∀ w ∈ s.writers[i]?, _ ∨ _ ∨
      ∀ j < s.writers.length, j ≠ i → ∀ v ∈ s.writers[j]?, v.conn = w.conn → v.aboutToWrite = false))
  | .lock i => inferInstanceAs (Decidable (∀ w ∈ s.writers[i]?, _))
  | .process _ _ _ | .reject _ _ _ | .getConnMutex _ | .unlock _ | .dropMutex _ | .close _ =>
    isTrue trivial

/-- Whoever is about to write does so on a connection without a torn frame, or on a closed one. -/
structure TornQuiet (s : WriteState) : Prop where
  whole : ∀ conn, WholeFrames (s.writesOn conn)
  quiet : ∀ w ∈ s.writers, w.aboutToWrite = true →
    Unbroken (s.writesOn w.conn) ∨ w.conn ∈ s.closed

section Torn

variable {E : Env} {P : Proto V T} {S : Server V T} {c : ∀ md, EncodeChoice md}
  {s t : WriteState} {a : WriteAction}

lemma tornQuiet_init : TornQuiet .init :=
  ⟨fun _ => ⟨[], [], rfl, by simp, by simp⟩, fun w hw => by cases hw⟩

/-- A goroutine goes on. -/
lemma TornQuiet.turn (hs : TornQuiet s) {connMutexes : AList (fun _ : Nat => Nat)}
    {mutexes : List Bool} {i : Nat} {w : FrameWriter} {pc : WriterPc}
    (hw : FrameWriter.aboutToWrite { w with pc := pc } = true →
      Unbroken (s.writesOn w.conn) ∨ w.conn ∈ s.closed) :
    TornQuiet ({ s with connMutexes := connMutexes, mutexes := mutexes }.setPc i w pc) := by
  refine ⟨hs.whole, fun v hv hlocked => ?_⟩
  rcases List.mem_or_eq_of_mem_set hv with hold | rfl
  · exact hs.quiet v hold hlocked
  · exact hw hlocked

/-- The goroutine that writes finds no torn frame on a connection that is open. The others that are
about to write there are left with what they had: a write that stops inside its frame meets none. -/
lemma TornQuiet.write (hs : TornQuiet s) {i count mu : Nat} {w : FrameWriter}
    (hw : s.writers[i]? = some w) (hpc : w.pc = .locked mu)
    (hclosed : w.conn ∈ s.closed → count = 0) (hok : ClosedWhenTorn s (.write i count)) :
    TornQuiet { s.setPc i w (.written mu) with log := s.log ++ [⟨w.conn, w.frame, count⟩] } := by
  have hon := fun conn => writesOn_append s
    { s.setPc i w (.written mu) with log := s.log ++ [⟨w.conn, w.frame, count⟩] }
    ⟨w.conn, w.frame, count⟩ conn rfl
  have habout : w.aboutToWrite = true := by
    unfold FrameWriter.aboutToWrite
    rw [hpc]
  have hfree := hs.quiet w (List.mem_of_getElem? hw) habout
  refine ⟨fun conn => ?_, fun v hv hlocked => ?_⟩
  · rw [hon]
    split
    · next hconn =>
      refine (wholeFrames_append _ _).mpr ⟨hs.whole conn, ?_⟩
      exact hfree.symm.imp hclosed (fun hunbroken => hconn ▸ hunbroken)
    · exact hs.whole conn
  · obtain ⟨j, hj⟩ := List.mem_iff_getElem?.mp hv
    rcases getElem?_set_cases hj with ⟨rfl, rfl⟩ | ⟨hne, hold⟩
    · cases hlocked
    · rw [hon]
      split
      · next hconn =>
        refine (hs.quiet v (List.mem_of_getElem? hold) hlocked).imp_left fun hunbroken => ?_
        have hlt := (List.getElem?_eq_some_iff.mp hold).1
        rcases hok w hw with h0 | hfull | hnone
        · exact unbroken_append hunbroken (.inl h0)
        · exact unbroken_append hunbroken (.inr hfull)
        · rw [hnone j hlt (Ne.symm hne) v hold hconn.symm] at hlocked
          cases hlocked
      · exact hs.quiet v (List.mem_of_getElem? hold) hlocked

lemma tornQuiet_step (hs : TornQuiet s) (hok : ClosedWhenTorn s a)
    (h : writeStep E P S c s a = some t) : TornQuiet t := by
  cases writeStep_move h with
  | @spawn _ conn sent _ _ =>
    refine ⟨hs.whole, fun v hv hlocked => ?_⟩
    rcases List.mem_append.mp hv with hold | hnew
    · exact hs.quiet v hold hlocked
    · obtain ⟨m, -, rfl⟩ := List.mem_map.mp hnew
      cases hlocked
  | take _ _ _ | make _ _ _ | unlock _ _ => exact hs.turn fun hlocked => by cases hlocked
  | lock hw _ _ => exact hs.turn fun _ => hok _ hw
  | write hw hpc hclosed => exact hs.write hw hpc hclosed hok
  | dropMutex => exact ⟨hs.whole, hs.quiet⟩
  | close =>
    exact ⟨hs.whole, fun v hv hlocked => (hs.quiet v hv hlocked).imp_right (List.mem_cons_of_mem _)⟩

lemma framesEncoded_run {as : List WriteAction} (h : exec (writeStep E P S c) .init as = some s) :
    FramesEncoded E s :=
  exec_invariant (FramesEncoded E) (fun _ _ _ hs ht => writeStep_framesEncoded hs ht)
    ⟨by simp [WriteState.init], by simp [WriteState.init]⟩ h

lemma Encoded.length_pos {frame : Bytes} (h : Encoded E frame) : 0 < frame.length := by
  obtain ⟨m, choice, header, henc⟩ := h
  rw [encode_eq] at henc
  cases henc
  rw [frameBytes, List.length_append, length_toBytes]
  omega

/-- A goroutine that is about to write on an open connection with a torn frame can put a byte
behind it. -/
lemma not_wholeFrames_of_torn {i : Nat} {w : FrameWriter} (hs : FramesEncoded E s)
    (hw : s.writers[i]? = some w) (hlocked : w.aboutToWrite = true) (hopen : w.conn ∉ s.closed)
    (htorn : ¬Unbroken (s.writesOn w.conn)) :
    ∃ u, writeStep E P S c s (.write i 1) = some u ∧ ¬WholeFrames (u.writesOn w.conn) := by
  obtain ⟨conn, frame, pc⟩ := w
  cases pc with
  | encoded | waiting _ | written _ | finished => cases hlocked
  | locked mu =>
    have hpos := (hs.writers _ (List.mem_of_getElem? hw)).length_pos
    refine ⟨{ s.setPc i ⟨conn, frame, .locked mu⟩ (.written mu) with
      log := s.log ++ [⟨conn, frame, 1⟩] }, ?_, ?_⟩
    · simp only [writeStep, hw, WriteState.write]
      exact if_pos ⟨hpos, fun hclosed => absurd hclosed hopen⟩
    · rw [writesOn_append s _ ⟨conn, frame, 1⟩ conn rfl, if_pos rfl, wholeFrames_append]
      rintro ⟨-, hzero | hunbroken⟩
      · cases hzero
      · exact htorn hunbroken

/-- A step that breaks the condition leaves such a goroutine behind. -/
lemma torn_of_not_closedWhenTorn (h : writeStep E P S c s a = some t)
    (hbroken : ¬ClosedWhenTorn s a) : ∃ (i : Nat) (w : FrameWriter), t.writers[i]? = some w ∧
      w.aboutToWrite = true ∧ w.conn ∉ t.closed ∧ ¬Unbroken (t.writesOn w.conn) := by
  cases writeStep_move h with
  | @lock i w mu hw _ _ =>
    simp only [ClosedWhenTorn, hw, Option.mem_some_iff, forall_eq', not_or] at hbroken
    have hlt := (List.getElem?_eq_some_iff.mp hw).1
    exact ⟨i, { w with pc := .locked mu }, List.getElem?_set_self hlt, rfl, hbroken.2, hbroken.1⟩
  | @write i count w mu hw _ hclosed =>
    simp only [ClosedWhenTorn, hw, Option.mem_some_iff, forall_eq', not_or, not_forall] at hbroken
    obtain ⟨h0, hfull, j, hj, hne, v, hv, hconn, hlocked⟩ := hbroken
    refine ⟨j, v, (List.getElem?_set_ne (Ne.symm hne)).trans hv, Bool.eq_true_of_not_eq_false hlocked,
      fun hmem => h0 (hclosed (hconn ▸ hmem)), ?_⟩
    rw [writesOn_append s _ ⟨w.conn, w.frame, count⟩ v.conn rfl, if_pos hconn.symm]
    intro hunbroken
    rcases hunbroken ⟨w.conn, w.frame, count⟩ (by simp) with hzero | hwhole
    · exact h0 hzero
    · exact hfull hwhole
  | spawn ha _ =>
    cases a with
    | write _ _ | lock _ => cases ha
    | _ => exact absurd trivial hbroken
  | take _ _ _ | make _ _ _ | unlock _ _ | dropMutex | close => exact absurd trivial hbroken

end Torn

/-- In every run of a server's writers in which a write stops inside its frame only while no other
goroutine is about to write on the connection, and the connection is then closed before a mutex is
locked to write on it, each connection carries whole frames followed by at most one incomplete frame,
after which nothing is written. A step that breaks this condition, in any run, can be followed by a
write of one byte after which a connection does not. -/
theorem whole_frames (E : Env) (P : Proto V T) (S : Server V T) (c : ∀ md, EncodeChoice md)
    (as : List WriteAction) (s : WriteState) (h : exec (writeStep E P S c) .init as = some s) :
    (Guarded (writeStep E P S c) ClosedWhenTorn .init as → ∀ conn,
      WholeFrames (s.writesOn conn) ∧ FrameSequence E (s.bytesOn conn)) ∧
    ∀ a t, writeStep E P S c s a = some t → ¬ClosedWhenTorn s a →
      ∃ i conn u, writeStep E P S c t (.write i 1) = some u ∧ ¬WholeFrames (u.writesOn conn) := by
  have henc := framesEncoded_run h
  refine ⟨fun hg conn => ?_, fun a t ht hbroken => ?_⟩
  · have hs : TornQuiet s := exec_invariant_guarded TornQuiet
      (fun _ _ _ hs hok ht => tornQuiet_step hs hok ht) tornQuiet_init hg h
    exact ⟨hs.whole conn, frameSequence_of_wholeFrames
      (fun w hw => henc.log w (List.mem_of_mem_filter hw)) (hs.whole conn)⟩
  · obtain ⟨i, w, hw, hlocked, hopen, htorn⟩ := torn_of_not_closedWhenTorn ht hbroken
    obtain ⟨u, hu, hnot⟩ := not_wholeFrames_of_torn (writeStep_framesEncoded henc ht) hw hlocked
      hopen htorn
    exact ⟨i, w.conn, u, hu, hnot⟩

/-- Two goroutines answer requests on one connection, which may be closed after the first write;
the writes put `n` and `m` bytes of their frames of 49 bytes on the wire. -/
def twoAnswers (n m : Nat) (closing : List WriteAction) : List WriteAction :=
  [.process 0 ⟨∅, none⟩ sampleRequest, .process 0 ⟨∅, none⟩ sampleRequest, .getConnMutex 0,
    .getConnMutex 1, .lock 1, .write 1 n, .unlock 1] ++ closing ++ [.lock 0, .write 0 m, .unlock 0]

theorem whole_frames_twoAnswers : ∃ s,
    exec (writeStep storedEnv bytesProto (echoServer plainOption) .plain) .init
      (twoAnswers 20 0 [.close 0]) = some s ∧ FrameSequence storedEnv (s.bytesOn 0) :=
  ⟨_, rfl, ((whole_frames storedEnv bytesProto (echoServer plainOption) .plain
    (twoAnswers 20 0 [.close 0]) _ rfl).1 (by decide +kernel) 0).2⟩

/-- A write that times out after 20 bytes is followed by the whole frame of the other answer. -/
theorem twoAnswers_not_wholeFrames : ∃ s,
    exec (writeStep storedEnv bytesProto (echoServer plainOption) .plain) .init
      (twoAnswers 20 49 []) = some s ∧ ¬∀ conn, WholeFrames (s.writesOn conn) := by
  refine ⟨_, rfl, fun h => ?_⟩
  have hbehind := ((wholeFrames_append [_] _).mp (h 0)).2
  exact absurd hbehind (by decide +kernel)

end Zrpc.Proofs
