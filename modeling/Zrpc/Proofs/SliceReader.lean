import Zrpc.BufferSlice

/-!
# A slice reader delivers the concatenation

The reader stands for the bytes that it has not delivered: those of its buffers from `bufferIdx` on.
-/

namespace Zrpc.Proofs

open SliceReader

variable {β : Type} {content : β → Bytes}

section Materialize

lemma foldl_length (s : List β) (n : Nat) :
    s.foldl (fun length b => length + (content b).length) n =
      n + (s.flatMap content).length := by
  induction s generalizing n with
  | nil => rfl
  | cons b s ih =>
    rw [List.foldl_cons, ih, List.flatMap_cons, List.length_append]
    omega

lemma len_eq (s : List β) : BufferSlice.Len content s = (s.flatMap content).length := by
  rw [BufferSlice.Len, foldl_length, Nat.zero_add]

lemma copyStep_eq {b : β} {pre post : Bytes} (hfit : (content b).length ≤ post.length) :
    BufferSlice.copyStep content (pre ++ post) pre.length b =
      .ok (pre ++ content b ++ post.drop (content b).length, (pre ++ content b).length) := by
  have hslice : slice (pre ++ post) pre.length (pre ++ post).length = .ok post := by
    rw [slice, if_pos ⟨by simp, le_rfl⟩, List.take_length, List.drop_left]
  have hmin : min post.length (content b).length = (content b).length := by omega
  rw [BufferSlice.copyStep, hslice]
  simp [Heap.overwrite, bind, Except.bind, pure, Except.pure, hmin]

/-- What has been copied is in front, and the rest of `dst` behind it. -/
lemma copyTo_foldlM (s : List β) (pre : Bytes) {post : Bytes}
    (hfit : (s.flatMap content).length ≤ post.length) :
    s.foldlM (fun (x : Bytes × Nat) b => BufferSlice.copyStep content x.1 x.2 b)
        (pre ++ post, pre.length) =
      (.ok (pre ++ s.flatMap content ++ post.drop (s.flatMap content).length,
        (pre ++ s.flatMap content).length) : Go (Bytes × Nat)) := by
  induction s generalizing pre post with
  | nil => simp [pure, Except.pure]
  | cons b s ih =>
    rw [List.flatMap_cons, List.length_append] at hfit
    have hrest : (s.flatMap content).length ≤ (post.drop (content b).length).length := by
      rw [List.length_drop]
      omega
    rw [List.foldlM_cons, copyStep_eq (by omega)]
    refine (ih (pre ++ content b) hrest).trans ?_
    simp only [List.flatMap_cons, List.length_append, List.drop_drop, List.append_assoc]

lemma materialize_eq (s : List β) : BufferSlice.Materialize content s = .ok (s.flatMap content) := by
  rw [BufferSlice.Materialize, len_eq]
  dsimp only
  by_cases hnil : (s.flatMap content).length = 0
  · rw [if_pos hnil, List.eq_nil_of_length_eq_zero hnil]
  · have hfit : (s.flatMap content).length ≤
        (List.replicate (s.flatMap content).length (0 : UInt8)).length := by simp
    have hcopy := copyTo_foldlM s [] hfit
    rw [if_neg hnil, BufferSlice.CopyTo]
    rw [List.nil_append, List.length_nil] at hcopy
    rw [hcopy]
    simp [bind, Except.bind, pure, Except.pure]

end Materialize

/-- The bytes that a reader has not delivered. -/
def remaining (content : β → Bytes) (r : SliceReader β) : Bytes :=
  (r.data.flatMap content).drop r.bufferIdx

/-- A reader over `bufs`: the buffers it has not freed are a suffix, it is inside the first of them,
and its length field is right. -/
structure Reading (content : β → Bytes) (bufs : List β) (r : SliceReader β) : Prop where
  freed : r.freed ++ r.data = bufs
  refd : r.refd = bufs
  idx : ∀ b ∈ r.data.head?, r.bufferIdx ≤ (content b).length
  len : r.len = (remaining content r).length

section Call

variable {bufs : List β} {r : SliceReader β} {k : Nat}

lemma reading_newReader (content : β → Bytes) (bufs : List β) :
    Reading content bufs (NewReader content bufs) := by
  refine ⟨rfl, rfl, fun b _ => Nat.zero_le _, ?_⟩
  rw [NewReader, len_eq]
  rfl

lemma Reading.len_zero (hr : Reading content bufs r) : r.len = 0 ↔ remaining content r = [] := by
  rw [hr.len, Int.natCast_eq_zero, List.length_eq_zero_iff]

lemma Reading.freeFirst (hr : Reading content bufs r) :
    Reading content bufs (r.freeFirstBufferIfEmpty content).1 ∧
      remaining content (r.freeFirstBufferIfEmpty content).1 = remaining content r := by
  unfold freeFirstBufferIfEmpty
  split
  · exact ⟨hr, rfl⟩
  · next b rest hdata =>
    split
    · exact ⟨hr, rfl⟩
    · next hidx =>
      have hfull : r.bufferIdx = (content b).length := not_not.mp hidx
      have hsame : remaining content
          { r with data := rest, bufferIdx := 0, freed := r.freed ++ [b] } = remaining content r := by
        simp [remaining, hdata, hfull]
      refine ⟨⟨?_, hr.refd, fun b _ => Nat.zero_le _, ?_⟩, hsame⟩
      · have hfreed := hr.freed
        rw [hdata] at hfreed
        simpa using hfreed
      · rw [hsame]
        exact hr.len

/-- Inside the first buffer the reader may move on. -/
lemma Reading.advance (hr : Reading content bufs r) {b : β} {rest : List β} {cp : Nat}
    (hdata : r.data = b :: rest) (hcp : r.bufferIdx + cp ≤ (content b).length) :
    Reading content bufs (r.advance cp) ∧
      remaining content (r.advance cp) = (remaining content r).drop cp := by
  have hdrop : remaining content (r.advance cp) = (remaining content r).drop cp := by
    rw [remaining, remaining, List.drop_drop]
    rfl
  refine ⟨⟨hr.freed, hr.refd, fun c hc => ?_, ?_⟩, hdrop⟩
  · rw [show (r.advance cp).data = b :: rest from hdata, List.head?_cons, Option.mem_some] at hc
    exact hc ▸ hcp
  · have hlen := hr.len
    have hle : cp ≤ (remaining content r).length := by
      simp only [remaining, hdata, List.flatMap_cons, List.length_drop, List.length_append]
      omega
    rw [hdrop, List.length_drop, SliceReader.advance]
    dsimp only
    omega

/-- What a turn of the loop copies is the front of the rest. -/
lemma copied_eq {b : β} {rest : List β} (hdata : r.data = b :: rest)
    (hle : r.bufferIdx ≤ (content b).length) (k : Nat) :
    (remaining content r).take (((content b).drop r.bufferIdx).take k).length =
      ((content b).drop r.bufferIdx).take k := by
  rw [remaining, hdata, List.flatMap_cons, List.drop_append_of_le_length hle,
    List.take_append_of_le_length (List.length_take_le' _ _), List.length_take,
    ← List.take_eq_take_min]

/-- The loop of `Read` by its own recursion: a turn copies bytes or frees an empty buffer. -/
lemma Reading.readLoop (hr : Reading content bufs r) (k : Nat) :
    ∃ r', r.readLoop content k = .ok (r', (remaining content r).take k) ∧
      Reading content bufs r' ∧ remaining content r' = (remaining content r).drop k := by
  fun_induction SliceReader.readLoop content r k with
  | case1 r k hstop =>
    refine ⟨r, ?_, hr, ?_⟩
    · rcases hstop with rfl | hlen
      · rw [List.take_zero]
      · rw [hr.len_zero.mp hlen, List.take_nil]
    · rcases hstop with rfl | hlen
      · rw [List.drop_zero]
      · rw [hr.len_zero.mp hlen, List.drop_nil]
  | case2 r k hgo hdata =>
    have hnil : remaining content r = [] := by simp [remaining, hdata]
    exact absurd (.inr (hr.len_zero.mpr hnil)) hgo
  | case3 r k hgo b rest hdata hle copied ih =>
    have hcopied : copied.length ≤ k := List.length_take_le _ _
    have hin : r.bufferIdx + copied.length ≤ (content b).length := by
      have hlen : copied.length ≤ ((content b).drop r.bufferIdx).length := List.length_take_le' _ _
      rw [List.length_drop] at hlen
      omega
    obtain ⟨hadv, hdrop⟩ := hr.advance hdata hin
    obtain ⟨hfree, hsame⟩ := hadv.freeFirst
    obtain ⟨r', hloop, hr', hrest⟩ := ih hfree
    have hk : k = copied.length + (k - copied.length) := by omega
    refine ⟨r', ?_, hr', ?_⟩
    · have htake : (remaining content r).take k =
          copied ++ ((remaining content r).drop copied.length).take (k - copied.length) := by
        rw [hk, List.take_add, copied_eq hdata hle k, ← hk]
      rw [hloop, hsame, hdrop, htake]
      rfl
    · rw [hrest, hsame, hdrop, List.drop_drop, ← hk]
  | case4 r k hgo b rest hdata hgt =>
    exact absurd (hr.idx b (by rw [hdata]; rfl)) hgt

/-- After the loop of `ReadByte` the reader is inside its first buffer, if there is one. -/
lemma Reading.freeEmpty (hr : Reading content bufs r) (l : List β) (hl : r.data = l) :
    Reading content bufs (r.freeEmpty content l) ∧
      remaining content (r.freeEmpty content l) = remaining content r ∧
      ∀ b ∈ (r.freeEmpty content l).data.head?,
        (r.freeEmpty content l).bufferIdx ≠ (content b).length := by
  induction l generalizing r with
  | nil =>
    refine ⟨hr, rfl, fun b hb => ?_⟩
    rw [SliceReader.freeEmpty, hl] at hb
    cases hb
  | cons b rest ih =>
    obtain ⟨hfree, hsame⟩ := hr.freeFirst
    rw [SliceReader.freeEmpty]
    by_cases hidx : r.bufferIdx = (content b).length
    · have hfirst : r.freeFirstBufferIfEmpty content =
          ({ r with data := rest, bufferIdx := 0, freed := r.freed ++ [b] }, true) := by
        simp [freeFirstBufferIfEmpty, hl, hidx]
      rw [hfirst] at hfree hsame ⊢
      obtain ⟨hr', hrest, hinside⟩ := ih hfree rfl
      exact ⟨hr', hrest.trans hsame, hinside⟩
    · have hfirst : r.freeFirstBufferIfEmpty content = (r, false) := by
        simp [freeFirstBufferIfEmpty, hl, hidx]
      rw [hfirst]
      refine ⟨hr, rfl, fun c hc => ?_⟩
      rw [hl, List.head?_cons, Option.mem_some] at hc
      exact hc ▸ hidx

lemma Reading.read (hr : Reading content bufs r) (k : Nat) :
    ∃ r', r.Read content k = .ok (r', ⟨(remaining content r).take k, (remaining content r).isEmpty⟩) ∧
      Reading content bufs r' ∧ remaining content r' = (remaining content r).drop k := by
  by_cases hlen : r.len = 0
  · have hnil := hr.len_zero.mp hlen
    refine ⟨r, ?_, hr, ?_⟩
    · rw [Read, if_pos hlen, hnil, List.take_nil]
      rfl
    · rw [hnil, List.drop_nil]
  · have hne : (remaining content r).isEmpty = false := by
      rw [List.isEmpty_eq_false_iff]
      exact fun hnil => hlen (hr.len_zero.mpr hnil)
    obtain ⟨r', hloop, hr', hrest⟩ := hr.readLoop k
    refine ⟨r', ?_, hr', hrest⟩
    rw [Read, if_neg hlen, hloop, hne]
    rfl

lemma readByte_ok (hlen : r.len ≠ 0) {b : β} {byte : UInt8}
    (hbuf : index (r.freeEmpty content r.data).data 0 = .ok b)
    (hidx : index (content b) (r.freeEmpty content r.data).bufferIdx = .ok byte) :
    r.ReadByte content = .ok
      ((((r.freeEmpty content r.data).advance 1).freeFirstBufferIfEmpty content).1,
        ⟨[byte], false⟩) := by
  rw [ReadByte, if_neg hlen]
  simp only [hbuf, hidx, bind, Except.bind, pure, Except.pure]

lemma Reading.readByte (hr : Reading content bufs r) :
    ∃ r', r.ReadByte content =
        .ok (r', ⟨(remaining content r).take 1, (remaining content r).isEmpty⟩) ∧
      Reading content bufs r' ∧ remaining content r' = (remaining content r).drop 1 := by
  by_cases hlen : r.len = 0
  · have hnil := hr.len_zero.mp hlen
    refine ⟨r, ?_, hr, ?_⟩
    · rw [ReadByte, if_pos hlen, hnil]
      rfl
    · rw [hnil, List.drop_nil]
  · obtain ⟨hr₁, hsame, hinside⟩ := hr.freeEmpty r.data rfl
    set r₁ := r.freeEmpty content r.data
    have hne : remaining content r₁ ≠ [] := fun hnil => hlen (hr.len_zero.mpr (hsame ▸ hnil))
    cases hdata : r₁.data with
    | nil => exact absurd (by simp [remaining, hdata]) hne
    | cons b rest =>
      have hhead : b ∈ r₁.data.head? := by rw [hdata]; rfl
      have hlt : r₁.bufferIdx < (content b).length :=
        lt_of_le_of_ne (hr₁.idx b hhead) (hinside b hhead)
      obtain ⟨hadv, hdrop⟩ := hr₁.advance hdata (show r₁.bufferIdx + 1 ≤ (content b).length from hlt)
      obtain ⟨hfree, hfreed⟩ := hadv.freeFirst
      refine ⟨_, ?_, hfree, by rw [hfreed, hdrop, hsame]⟩
      have hbyte : (remaining content r).take 1 = [(content b)[r₁.bufferIdx]] := by
        rw [← hsame, remaining, hdata, List.flatMap_cons, List.drop_append_of_le_length hlt.le,
          List.drop_eq_getElem_cons hlt]
        rfl
      have hfull : (remaining content r).isEmpty = false := by
        rw [List.isEmpty_eq_false_iff, ← hsame]
        exact hne
      have hbuf : index r₁.data 0 = .ok b := by rw [hdata]; rfl
      have hidx : index (content b) r₁.bufferIdx = .ok (content b)[r₁.bufferIdx] := by
        rw [index, List.getElem?_eq_getElem hlt]
      rw [readByte_ok hlen hbuf hidx, hbyte, hfull]

end Call

/-- The number of bytes a call asks for. -/
def asked : ReadCall → Nat
  | .read k => k
  | .readByte => 1

/-- A reader that holds the bytes it has to deliver: the results of calls on it. -/
def deliver : Bytes → List ReadCall → List ReadResult
  | _, [] => []
  | rest, c :: cs => ⟨rest.take (asked c), rest.isEmpty⟩ :: deliver (rest.drop (asked c)) cs

lemma length_deliver (m : Bytes) (cs : List ReadCall) : (deliver m cs).length = cs.length := by
  induction cs generalizing m with
  | nil => rfl
  | cons c cs ih => rw [deliver, List.length_cons, ih, List.length_cons]

/-- Each result is as long as asked for or as what was left, and tells whether anything was. -/
lemma deliver_getElem? {m : Bytes} {cs : List ReadCall} {i : Nat} {c : ReadCall}
    (hi : cs[i]? = some c) : ∃ out, (deliver m cs)[i]? = some out ∧
      out.bytes.length =
        min (asked c) (m.length - (((deliver m cs).take i).flatMap (·.bytes)).length) ∧
      (out.eof = true ↔ m.length - (((deliver m cs).take i).flatMap (·.bytes)).length = 0) := by
  induction cs generalizing m i with
  | nil => simp at hi
  | cons c' cs ih =>
    cases i with
    | zero =>
      rw [List.getElem?_cons_zero, Option.some.injEq] at hi
      subst hi
      refine ⟨_, rfl, ?_, ?_⟩
      · rw [List.length_take]
        rfl
      · rw [List.isEmpty_iff, ← List.length_eq_zero_iff]
        rfl
    | succ i =>
      obtain ⟨out, hout, hlen, heof⟩ := ih (m := m.drop (asked c')) hi
      have hleft : m.length - (((deliver m (c' :: cs)).take (i + 1)).flatMap (·.bytes)).length =
          (m.drop (asked c')).length -
            (((deliver (m.drop (asked c')) cs).take i).flatMap (·.bytes)).length := by
        simp only [deliver, List.take_succ_cons, List.flatMap_cons, List.length_append,
          List.length_take, List.length_drop]
        omega
      refine ⟨out, hout, ?_, ?_⟩
      · rw [hleft]
        exact hlen
      · rw [hleft]
        exact heof

section Calls

variable {bufs : List β} {r : SliceReader β}

lemma Reading.call (hr : Reading content bufs r) (c : ReadCall) :
    ∃ r', r.call content c =
        .ok (r', ⟨(remaining content r).take (asked c), (remaining content r).isEmpty⟩) ∧
      Reading content bufs r' ∧ remaining content r' = (remaining content r).drop (asked c) := by
  cases c with
  | read k => exact hr.read k
  | readByte => exact hr.readByte

lemma calls_cons {r₁ r' : SliceReader β} {c : ReadCall} {cs : List ReadCall} {out : ReadResult}
    {outs : List ReadResult} (hcall : r.call content c = .ok (r₁, out))
    (hcalls : r₁.calls content cs = .ok (r', outs)) :
    r.calls content (c :: cs) = .ok (r', out :: outs) := by
  simp only [SliceReader.calls, hcall, hcalls, bind, Except.bind, pure, Except.pure]

/-- Every run of calls gives what the abstract reader gives, and leaves what it leaves. -/
lemma Reading.calls (hr : Reading content bufs r) (cs : List ReadCall) :
    ∃ r', r.calls content cs = .ok (r', deliver (remaining content r) cs) ∧
      Reading content bufs r' ∧
      remaining content r = (deliver (remaining content r) cs).flatMap (·.bytes) ++
        remaining content r' := by
  induction cs generalizing r with
  | nil => exact ⟨r, rfl, hr, rfl⟩
  | cons c cs ih =>
    obtain ⟨r₁, hcall, hr₁, hrest⟩ := hr.call c
    obtain ⟨r', hcalls, hr', hsplit⟩ := ih hr₁
    rw [hrest] at hcalls hsplit
    refine ⟨r', ?_, hr', ?_⟩
    · exact calls_cons hcall hcalls
    · rw [deliver, List.flatMap_cons, List.append_assoc, ← hsplit, List.take_append_drop]

lemma Reading.close (hr : Reading content bufs r) : r.Close.freed = bufs ∧ r.Close.refd = bufs :=
  ⟨hr.freed, hr.refd⟩

end Calls

/-- Any calls on a reader of `bufs` succeed and return, one after the other, the materialized bytes,
which are the contents of the buffers one behind the other. A call gets as many as it asks for or as
are left, and `io.EOF` exactly when none were left. `Remain` counts what is left, and `Close` brings
the `Free` calls to one for each `Ref` of `NewReader`. -/
theorem slice_reader_delivers (content : β → Bytes) (bufs : List β) (cs : List ReadCall) :
    ∃ r outs m, BufferSlice.Materialize content bufs = .ok m ∧ m = bufs.flatMap content ∧
      (NewReader content bufs).calls content cs = .ok (r, outs) ∧ outs.length = cs.length ∧
      outs.flatMap (·.bytes) = m.take (outs.flatMap (·.bytes)).length ∧
      (∀ i c, cs[i]? = some c → ∃ out, outs[i]? = some out ∧
        out.bytes.length =
          min (asked c) (m.length - ((outs.take i).flatMap (·.bytes)).length) ∧
        (out.eof = true ↔ m.length - ((outs.take i).flatMap (·.bytes)).length = 0)) ∧
      r.Remain = m.length - (outs.flatMap (·.bytes)).length ∧
      (NewReader content bufs).refd = bufs ∧ r.Close.refd = bufs ∧ r.Close.freed = bufs := by
  have hnew := reading_newReader content bufs
  obtain ⟨r, hcalls, hr, hsplit⟩ := hnew.calls cs
  have hm : remaining content (NewReader content bufs) = bufs.flatMap content := rfl
  rw [hm] at hcalls hsplit
  refine ⟨r, deliver (bufs.flatMap content) cs, bufs.flatMap content, materialize_eq bufs, rfl,
    hcalls, length_deliver _ cs, ?_, fun i c hi => deliver_getElem? hi, ?_, rfl, hr.close.2,
    hr.close.1⟩
  · exact List.prefix_iff_eq_take.mp ⟨remaining content r, hsplit.symm⟩
  · have hlen := congrArg List.length hsplit
    rw [List.length_append] at hlen
    rw [Remain, hr.len]
    omega

end Zrpc.Proofs
