import Zrpc.MethodName
import Zrpc.Proofs.RemoteCall

/-!
# Both sides call a method by one name
-/

namespace Zrpc.Proofs

variable {V : Type}

lemma invokeFullMethod_eq (method : GoString) : invokeFullMethod method = 47 :: bareMethod method := by
  have hslash : str "/" = [47] := by decide
  unfold invokeFullMethod bareMethod
  rw [hslash]
  cases method with
  | nil => rfl
  | cons c rest =>
    by_cases hc : c = 47
    · simp [hc]
    · have hc' : ¬47 = c := fun h => hc h.symm
      simp [hc, hc']

lemma lastSlash_none_iff (s : GoString) : lastSlash s = none ↔ 47 ∉ s := by
  unfold lastSlash
  simp only [Option.map_eq_none_iff, List.findIdx?_eq_none_iff, List.mem_reverse,
    decide_eq_false_iff_not]
  exact ⟨fun h hmem => h 47 hmem rfl, fun h c hc he => h (he ▸ hc)⟩

lemma exists_last_slash {s : GoString} (h : 47 ∈ s) : ∃ svc mtd, s = svc ++ 47 :: mtd ∧ 47 ∉ mtd := by
  obtain ⟨mtd, svc, hrev, hmtd⟩ := List.eq_append_cons_of_mem (List.mem_reverse.mpr h)
  refine ⟨svc.reverse, mtd.reverse, ?_, fun hmem => hmtd (List.mem_reverse.mp hmem)⟩
  rw [← List.reverse_reverse s, hrev]
  simp

lemma newCall_no_slash {method : GoString} (h : 47 ∉ bareMethod method) (args : V) :
    newCall method args = fail (str "invalid method name syntax") := by
  have hnone := (lastSlash_none_iff _).mpr h
  unfold bareMethod at hnone
  unfold newCall
  simp only [hnone]

lemma parseFullMethod_cons (svc : GoString) {mtd : GoString} (h : 47 ∉ mtd) :
    parseFullMethod (47 :: (svc ++ 47 :: mtd)) =
      (svc ++ 47 :: mtd, [(.RPCServiceKey, svc), (.RPCMethodKey, mtd)]) := by
  unfold parseFullMethod
  simp only [List.head?_cons, if_true, List.tail_cons, lastSlash_append svc h]
  simp

lemma serveFullMethod_eq (req : Message) :
    serveFullMethod req = 47 :: (req.serviceName ++ 47 :: req.serviceMethod) := by
  have hslash : str "/" = [47] := by decide
  simp [serveFullMethod, hslash]

/-- The name that `invoke` gives to the stats handlers is the one the server makes of a request
with the names of the call, such as the one it decodes from the frame of the call. The tracing
handlers and `newCall` itself read the names of the call off it. A string that `newCall` does not
accept has no slash behind a leading one. -/
theorem method_names_agree (method : GoString) (args : V) :
    (∀ call, newCall method args = .ok call →
      (∀ req : Message, req.serviceName = call.serviceName →
        req.serviceMethod = call.serviceMethod → serveFullMethod req = invokeFullMethod method) ∧
      (∀ E, GzipLaw E → ∀ payload seq req,
        RequestFor call.serviceName call.serviceMethod payload seq req →
        (∀ e ∈ req.metadata.entries, e.2.length ≤ 255) → ∀ maxLength, FitsFrame E maxLength req →
        ∀ c failure, ∃ frame header got, req.encode E c = .ok (frame, header) ∧
          (decode E maxLength ⟨frame, failure⟩).1 = .ok got ∧
          serveFullMethod got = invokeFullMethod method) ∧
      (parseFullMethod (invokeFullMethod method)).2 =
        [(.RPCServiceKey, call.serviceName), (.RPCMethodKey, call.serviceMethod)] ∧
      newCall (invokeFullMethod method) args = .ok call) ∧
    (newCall method args = fail (str "invalid method name syntax") ↔ 47 ∉ bareMethod method) := by
  by_cases hslash : 47 ∈ bareMethod method
  · obtain ⟨svc, mtd, hbare, hmtd⟩ := exists_last_slash hslash
    have hcall := newCall_bare hbare hmtd args
    have hfull : invokeFullMethod method = 47 :: (svc ++ 47 :: mtd) := by
      rw [invokeFullMethod_eq, hbare]
    constructor
    · intro call hok
      cases hcall.symm.trans hok
      rw [hfull, parseFullMethod_cons svc hmtd]
      have hserve : ∀ req : Message, req.serviceName = svc → req.serviceMethod = mtd →
          serveFullMethod req = 47 :: (svc ++ 47 :: mtd) := by
        intro req hname hmethod
        rw [serveFullMethod_eq, hname, hmethod]
      refine ⟨hserve, ?_, rfl, newCall_bare rfl hmtd args⟩
      intro E hE payload seq req hreq hcount maxLength hfits c failure
      obtain ⟨frame, header, got, henc, hdec, hgot⟩ := decode_request E hE hreq hcount hfits c failure
      exact ⟨frame, header, got, henc, hdec, hserve got hgot.serviceName hgot.serviceMethod⟩
    · rw [hcall]
      exact iff_of_false (by simp [fail]) (not_not.mpr hslash)
  · have hfail := newCall_no_slash hslash args
    refine ⟨fun call hok => ?_, iff_of_true hfail hslash⟩
    cases hfail.symm.trans hok

/-- A service of no name and a method behind two slashes. -/
theorem method_names_agree_empty_service :
    newCall (str "//Say") () = .ok ⟨[], str "Say", some ()⟩ ∧
      (parseFullMethod (invokeFullMethod (str "//Say"))).2 =
        [(.RPCServiceKey, []), (.RPCMethodKey, str "Say")] :=
  have hcall : newCall (str "//Say") () = .ok ⟨[], str "Say", some ()⟩ :=
    newCall_bare rfl (by decide) ()
  ⟨hcall, ((method_names_agree (str "//Say") ()).1 _ hcall).2.2.1⟩

end Zrpc.Proofs
