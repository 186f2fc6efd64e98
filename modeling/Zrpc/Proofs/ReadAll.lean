import Zrpc.BufferSlice

/-!
# `ReadAll` collects everything

The reader may deliver its bytes in any chunks; what it delivers is read off its own answers.
-/

namespace Zrpc.Proofs

universe v

/-- Offered slices of lengths `offers`, the reader in state `s` delivers `chunks` without an error
and then, with the last of them, the error `e`. -/
inductive Delivered {σ : Type v} (read : σ → Nat → Bytes × Option GoString × σ) :
    σ → List Nat → List Bytes → GoString → Prop
  | last {s s' : σ} {n : Nat} {chunk : Bytes} {e : GoString} (h : read s n = (chunk, some e, s')) :
    Delivered read s [n] [chunk] e
  | more {s s' : σ} {n : Nat} {chunk : Bytes} {offers : List Nat} {chunks : List Bytes}
    {e : GoString} (h : read s n = (chunk, none, s')) (hrest : Delivered read s' offers chunks e) :
    Delivered read s (n :: offers) (chunk :: chunks) e

/-- However it is called, the reader ends with an error. -/
inductive Ends {σ : Type v} (read : σ → Nat → Bytes × Option GoString × σ) : σ → Prop
  | intro {s : σ} (h : ∀ n, 0 < n → (read s n).2.1 = none → Ends read (read s n).2.2) : Ends read s

/-- The contract of `io.Reader` on lengths. -/
def ReadsInside {σ : Type v} (read : σ → Nat → Bytes × Option GoString × σ) : Prop :=
  ∀ s n, (read s n).1.length ≤ n

/-- The error `ReadAll` returns when the reader ends with `e`. -/
def readAllError (e : GoString) : Option GoString := if e = ioEOF then none else some e

/-- The pooled buffers of a result and those put back. -/
def accounted (x : ReadAllResult) : List Nat := x.result.filterMap (·.poolId) ++ x.puts

/-- What a run of the loop has to give, from a buffer that holds `used` on. -/
structure Collected {σ : Type v} (read : σ → Nat → Bytes × Option GoString × σ) (s : σ)
    (before : Bytes) (x : ReadAllResult) (offers : List Nat) (chunks : List Bytes) (e : GoString) :
    Prop where
  delivered : Delivered read s offers chunks e
  offered : ∀ n ∈ offers, 0 < n
  bytes : x.result.flatMap (·.data) = before ++ chunks.flatten
  err : x.err = readAllError e
  accounted : accounted x = List.range x.gets

section Loop

variable {σ : Type v} {read : σ → Nat → Bytes × Option GoString × σ} {cap : Nat → Nat}
  {s s' : σ} {i : Nat} {used chunk : Bytes} {result : List ReadBuffer}

lemma loop_error {e : GoString} (hread : read s (cap i - used.length) = (chunk, some e, s'))
    (fuel : Nat) : ReadAll.loop cap read (fuel + 1) s i used result =
      some (if (used ++ chunk).length = 0 then ⟨result, readAllError e, i + 1, [i]⟩
        else ⟨result ++ [.pooled i (used ++ chunk)], readAllError e, i + 1, []⟩) := by
  rw [ReadAll.loop, hread]
  dsimp only
  split <;> rfl

lemma loop_next (hread : read s (cap i - used.length) = (chunk, none, s')) (fuel : Nat) :
    ReadAll.loop cap read (fuel + 1) s i used result =
      if cap i = (used ++ chunk).length then
        ReadAll.loop cap read fuel s' (i + 1) [] (result ++ [.pooled i (used ++ chunk)])
      else ReadAll.loop cap read fuel s' i (used ++ chunk) result := by
  rw [ReadAll.loop, hread]

/-- The last buffer goes into the result if it holds anything, and back into the pool if not. -/
lemma collected_error {e : GoString} {n : Nat} (hn : 0 < n)
    (hread : read s n = (chunk, some e, s'))
    (hids : result.filterMap (·.poolId) = List.range i) :
    Collected read s (result.flatMap (·.data) ++ used)
      (if (used ++ chunk).length = 0 then ⟨result, readAllError e, i + 1, [i]⟩
        else ⟨result ++ [.pooled i (used ++ chunk)], readAllError e, i + 1, []⟩) [n] [chunk] e := by
  have hoffered : ∀ m ∈ [n], 0 < m := fun m hm => List.mem_singleton.mp hm ▸ hn
  split
  · next hnil =>
    obtain ⟨hu, hc⟩ := List.append_eq_nil_iff.mp (List.length_eq_zero_iff.mp hnil)
    refine ⟨.last hread, hoffered, ?_, rfl, ?_⟩
    · simp [hu, hc]
    · rw [Proofs.accounted, hids, List.range_succ]
  · refine ⟨.last hread, hoffered, ?_, rfl, ?_⟩
    · simp [ReadBuffer.data]
    · rw [Proofs.accounted, List.filterMap_append, hids, List.append_nil, List.range_succ]
      rfl

lemma Collected.more {n : Nat} (hn : 0 < n) (hread : read s n = (chunk, none, s'))
    {before : Bytes} {x : ReadAllResult} {offers : List Nat} {chunks : List Bytes} {e : GoString}
    (h : Collected read s' (before ++ chunk) x offers chunks e) :
    Collected read s before x (n :: offers) (chunk :: chunks) e := by
  refine ⟨.more hread h.delivered, ?_, ?_, h.err, h.accounted⟩
  · intro m hm
    obtain rfl | hm := List.mem_cons.mp hm
    · exact hn
    · exact h.offered m hm
  · rw [h.bytes, List.flatten_cons, List.append_assoc]

/-- By induction on the answers of the reader: the buffers before `i` are in the result, and buffer
`i` has room. -/
lemma loop_collects (hr : ReadsInside read) (hcap : ∀ i, 0 < cap i) (hs : Ends read s)
    (i : Nat) (used : Bytes) (result : List ReadBuffer) (hroom : used.length < cap i)
    (hids : result.filterMap (·.poolId) = List.range i) :
    ∃ fuel x offers chunks e,
      (∀ more, ReadAll.loop cap read (fuel + more) s i used result = some x) ∧
      Collected read s (result.flatMap (·.data) ++ used) x offers chunks e := by
  induction hs generalizing i used result with
  | @intro s _ ih =>
    have hoffer : 0 < cap i - used.length := by omega
    have hlen := hr s (cap i - used.length)
    have hnext := ih _ hoffer
    rcases hread : read s (cap i - used.length) with ⟨chunk, err, s'⟩
    rw [hread] at hlen hnext
    cases err with
    | some e =>
      refine ⟨1, _, _, _, e, fun more => ?_, collected_error hoffer hread hids⟩
      rw [Nat.add_comm 1 more]
      exact loop_error hread more
    | none =>
      have hgo := hnext rfl
      by_cases hfull : cap i = (used ++ chunk).length
      · obtain ⟨fuel, x, offers, chunks, e, hloop, hx⟩ := hgo (i + 1) []
          (result ++ [.pooled i (used ++ chunk)]) (hcap _) (by
            rw [List.filterMap_append, hids, List.range_succ]
            rfl)
        refine ⟨fuel + 1, x, _ :: offers, chunk :: chunks, e, fun more => ?_, .more hoffer hread ?_⟩
        · rw [Nat.add_right_comm, loop_next hread, if_pos hfull]
          exact hloop more
        · simpa [ReadBuffer.data] using hx
      · have hroom' : (used ++ chunk).length < cap i := by
          dsimp only at hlen
          rw [List.length_append] at hfull ⊢
          omega
        obtain ⟨fuel, x, offers, chunks, e, hloop, hx⟩ := hgo i (used ++ chunk) result hroom' hids
        refine ⟨fuel + 1, x, _ :: offers, chunk :: chunks, e, fun more => ?_, .more hoffer hread ?_⟩
        · rw [Nat.add_right_comm, loop_next hread, if_neg hfull]
          exact hloop more
        · rw [List.append_assoc]
          exact hx

end Loop

/-- Each chunk becomes a buffer of its own, over the pool's next buffer if it is long. -/
lemma writes_collects (ps : List Bytes) {buffers : List ReadBuffer} {gets : Nat}
    (hids : buffers.filterMap (·.poolId) = List.range gets) :
    (ReadAll.writes ps buffers gets).1.flatMap (·.data) =
        buffers.flatMap (·.data) ++ ps.flatten ∧
      (ReadAll.writes ps buffers gets).1.filterMap (·.poolId) =
        List.range (ReadAll.writes ps buffers gets).2 := by
  induction ps generalizing buffers gets with
  | nil => exact ⟨by simp [ReadAll.writes], hids⟩
  | cons p ps ih =>
    rw [ReadAll.writes]
    have hcopy : (buffers ++ [(ReadAll.Copy p gets).1]).filterMap (·.poolId) =
        List.range (ReadAll.Copy p gets).2 := by
      rw [List.filterMap_append, hids, ReadAll.Copy]
      split
      · simp [ReadBuffer.poolId]
      · rw [List.range_succ]
        rfl
    have hdata : (ReadAll.Copy p gets).1.data = p := by
      rw [ReadAll.Copy]
      split <;> rfl
    obtain ⟨hbytes, hpool⟩ := ih hcopy
    refine ⟨?_, hpool⟩
    rw [hbytes]
    simp [hdata]

/-- A reader that ends is read to its end: the result holds all it delivered, in order, with its
error unless that is `io.EOF`, and each buffer of the pool is in the result or put back, once. A
`WriteTo` that writes the same bytes in any chunks gives the same bytes and error. -/
theorem read_all_collects {σ : Type v} (read : σ → Nat → Bytes × Option GoString × σ)
    (cap : Nat → Nat) (s : σ) (hr : ReadsInside read) (hcap : ∀ i, readAllBufSize ≤ cap i)
    (hs : Ends read s) :
    ∃ offers chunks e fuel x, Delivered read s offers chunks e ∧ (∀ n ∈ offers, 0 < n) ∧
      (∀ more, ReadAll.readAll cap ⟨read, none⟩ (fuel + more) s = some x) ∧
      x.result.flatMap (·.data) = chunks.flatten ∧ x.err = readAllError e ∧
      accounted x = List.range x.gets ∧
      ∀ (writeTo : σ → List Bytes × Option GoString), (writeTo s).1.flatten = chunks.flatten →
        (writeTo s).2 = readAllError e → ∀ fuel, ∃ y,
          ReadAll.readAll cap ⟨read, some writeTo⟩ fuel s = some y ∧
          y.result.flatMap (·.data) = x.result.flatMap (·.data) ∧ y.err = x.err ∧
          accounted y = List.range y.gets := by
  have hpos : ∀ i, 0 < cap i := fun i => lt_of_lt_of_le (by decide) (hcap i)
  obtain ⟨fuel, x, offers, chunks, e, hloop, hx⟩ := loop_collects hr hpos hs 0 [] [] (hpos 0) rfl
  have hbytes : x.result.flatMap (·.data) = chunks.flatten := hx.bytes
  refine ⟨offers, chunks, e, fuel, x, hx.delivered, hx.offered, hloop, hbytes, hx.err,
    hx.accounted, fun writeTo hsame herr fuel' => ?_⟩
  have hempty : ([] : List ReadBuffer).filterMap (·.poolId) = List.range 0 := rfl
  obtain ⟨hwritten, hpool⟩ := writes_collects (writeTo s).1 hempty
  refine ⟨⟨_, (writeTo s).2, _, []⟩, rfl, ?_, herr.trans hx.err.symm, ?_⟩
  · rw [hwritten, hbytes, hsame]
    rfl
  · rw [accounted, List.append_nil]
    exact hpool

/-- A connection that breaks after `left` bytes, which arrive in pieces of at most 20000. -/
def brokenStream (left n : Nat) : Bytes × Option GoString × Nat :=
  if left = 0 then ([], some (str "connection reset by peer"), 0)
  else (List.replicate (min 20000 (min left n)) 7, none, left - min 20000 (min left n))

lemma readsInside_brokenStream : ReadsInside brokenStream := by
  intro left n
  unfold brokenStream
  split
  · exact Nat.zero_le n
  · rw [List.length_replicate]
    omega

lemma ends_brokenStream (left : Nat) : Ends brokenStream left := by
  induction left using Nat.strong_induction_on with
  | _ left ih =>
    refine .intro fun n hn hnone => ?_
    unfold brokenStream at hnone ⊢
    split
    · next hleft =>
      rw [if_pos hleft] at hnone
      cases hnone
    · exact ih _ (by dsimp only; omega)

/-- Whatever slices it is offered, it delivers its bytes and then its error. -/
lemma delivered_brokenStream {left : Nat} {offers : List Nat} {chunks : List Bytes} {e : GoString}
    (h : Delivered brokenStream left offers chunks e) :
    chunks.flatten = List.replicate left 7 ∧ e = str "connection reset by peer" := by
  induction h with
  | last hread =>
    unfold brokenStream at hread
    split at hread
    · next hleft =>
      cases hread
      rw [hleft]
      exact ⟨rfl, rfl⟩
    · cases hread
  | more hread _ ih =>
    unfold brokenStream at hread
    split at hread
    · cases hread
    · cases hread
      refine ⟨?_, ih.2⟩
      rw [List.flatten_cons, ih.1, List.replicate_append_replicate]
      congr 1
      omega

/-- 50000 bytes need more than one buffer. Read or written, they arrive with the error. -/
theorem read_all_collects_brokenStream :
    ∃ fuel x y, ReadAll.readAll (fun _ => readAllBufSize) ⟨brokenStream, none⟩ fuel 50000 = some x ∧
      ReadAll.readAll (fun _ => readAllBufSize) ⟨brokenStream, some fun _ =>
        ([List.replicate 100 7, List.replicate 49900 7], some (str "connection reset by peer"))⟩
          fuel 50000 = some y ∧
      x.result.flatMap (·.data) = List.replicate 50000 7 ∧
      x.err = some (str "connection reset by peer") ∧ accounted x = List.range x.gets ∧
      y.result.flatMap (·.data) = x.result.flatMap (·.data) ∧ y.err = x.err ∧
      accounted y = List.range y.gets := by
  obtain ⟨offers, chunks, e, fuel, x, hdelivered, -, hrun, hbytes, herr, hids, hwrite⟩ :=
    read_all_collects brokenStream (fun _ => readAllBufSize) 50000 readsInside_brokenStream
      (fun _ => le_rfl) (ends_brokenStream 50000)
  obtain ⟨hflat, rfl⟩ := delivered_brokenStream hdelivered
  have hne : str "connection reset by peer" ≠ ioEOF := by decide
  rw [readAllError, if_neg hne] at herr
  have hwritten : ([List.replicate 100 7, List.replicate 49900 7] : List Bytes).flatten =
      chunks.flatten := by
    rw [hflat, List.flatten_cons, List.flatten_cons, List.flatten_nil, List.append_nil,
      List.replicate_append_replicate]
  obtain ⟨y, hy, hsame, hyerr, hyids⟩ := hwrite
    (fun _ => ([List.replicate 100 7, List.replicate 49900 7], some (str "connection reset by peer")))
    hwritten (if_neg hne).symm fuel
  exact ⟨fuel, x, y, hrun 0, hy, hbytes.trans hflat, herr, hids, hsame, hyerr, hyids⟩

end Zrpc.Proofs
