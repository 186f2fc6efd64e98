import Zrpc.Generator
import Zrpc.Proofs.RemoteCall

/-!
# Generated clients and servers

The method string of a generated client ends in the Go name of the method, the descriptor has its
proto name. They meet in the method map of the server.
-/

namespace Zrpc.Proofs

variable {V T : Type}

/-! ### The method string -/

lemma slash_not_mem_ident {n : GoString} (h : isIdent n) : 47 ∉ n := by
  cases n with
  | nil => simp
  | cons c rest =>
    simp only [isIdent, Bool.and_eq_true, List.all_eq_true] at h
    intro hmem
    rcases List.mem_cons.mp hmem with rfl | hrest
    · exact absurd h.1 (by decide)
    · exact absurd (h.2 47 hrest) (by decide)

lemma head_ident {n : GoString} (h : isIdent n) : ∃ c rest, n = c :: rest ∧ c ≠ 47 := by
  have hslash := slash_not_mem_ident h
  cases n with
  | nil => cases h
  | cons c rest => exact ⟨c, rest, rfl, fun he => hslash (he ▸ List.mem_cons_self)⟩

lemma head_fullName (svc : ProtoService) : ∃ c rest, svc.fullName = c :: rest ∧ c ≠ 47 := by
  obtain ⟨package, name, methods, hpackage, hname, -, -⟩ := svc
  cases package with
  | nil => exact head_ident hname
  | cons part parts =>
    obtain ⟨c, rest, rfl, hc⟩ := head_ident (hpackage part List.mem_cons_self)
    exact ⟨c, _, rfl, hc⟩

/-- `newCall` splits the string at the slash the generator printed. -/
lemma newCall_generated (svc : ProtoService) {mtd : GoString} (h : 47 ∉ mtd) (args : V) :
    newCall (svc.fullName ++ str "/" ++ mtd) args = .ok ⟨svc.fullName, mtd, some args⟩ := by
  have hslash : svc.fullName ++ str "/" ++ mtd = svc.fullName ++ 47 :: mtd := by
    rw [List.append_assoc]
    rfl
  have hhead : (svc.fullName ++ 47 :: mtd).head? ≠ some 47 := by
    obtain ⟨c, rest, heq, hc⟩ := head_fullName svc
    rw [heq]
    simpa using hc
  rw [hslash]
  exact newCall_bare (if_neg hhead) h args

/-! ### What the generator prints for a method -/

lemma lookup_map_of_mem {α β γ : Type} [BEq β] [LawfulBEq β] {key : α → β} {val : α → γ}
    (hkey : ∀ a b, key a = key b → val a = val b) {l : List α} {a : α} (h : a ∈ l) :
    (l.map fun a => (key a, val a)).lookup (key a) = some (val a) := by
  induction l with
  | nil => cases h
  | cons b l ih =>
    rw [List.map_cons, List.lookup_cons]
    by_cases heq : key a = key b
    · simp [heq, hkey a b heq]
    · have htail : a ∈ l := (List.mem_cons.mp h).resolve_left fun hab => heq (hab ▸ rfl)
      rw [beq_false_of_ne heq]
      exact ih htail

section Printed
variable (goName : GoString → GoString) (code : GoString → MethodDesc V T) (svc : ProtoService)
  {mtd : GoString}

/-- Methods with one constant name have one Go name, so the constant has the value of both. -/
lemma genClientMethod_eq (h : mtd ∈ svc.methods) :
    genClientMethod goName svc mtd = some (svc.fullName ++ str "/" ++ goName mtd) := by
  unfold genClientMethod genFullMethods
  refine lookup_map_of_mem (fun a b hab => ?_) h
  have hgo : goName a = goName b := List.append_cancel_left (List.append_cancel_right hab)
  rw [hgo]

lemma generateServerFunctions_methods : (generateServerFunctions goName code svc).methods =
    svc.methods.map fun mtd => (mtd, code (genServerMethod goName svc mtd)) := by
  simp [generateServerFunctions, genServiceDesc, List.zipWith_map_right, List.zipWith_self]

end Printed

/-! ### Registration -/

section Register
variable {S S' : Server V T} {sd : ServiceDesc V T} {serve : Bool}

lemma foldl_addMethod_of_not_mem {ds : List (GoString × MethodDesc V T)} {name : GoString}
    (h : name ∉ ds.map Prod.fst) (methods : GoString → Option (MethodDesc V T)) :
    ds.foldl addMethod methods name = methods name := by
  induction ds generalizing methods with
  | nil => rfl
  | cons d ds ih =>
    rw [List.map_cons, List.mem_cons, not_or] at h
    rw [List.foldl_cons, ih h.2]
    exact Function.update_of_ne h.1 _ _

lemma methodMap_of_mem {name : GoString} {md : MethodDesc V T}
    (hnodup : (sd.methods.map Prod.fst).Nodup) (h : (name, md) ∈ sd.methods) :
    sd.methodMap name = some md := by
  obtain ⟨before, after, heq⟩ := List.append_of_mem h
  unfold ServiceDesc.methodMap
  rw [heq] at hnodup ⊢
  have hafter : name ∉ after.map Prod.fst := by
    rw [List.map_append, List.map_cons] at hnodup
    exact (List.nodup_cons.mp (List.Nodup.of_append_right hnodup)).1
  rw [List.foldl_append, List.foldl_cons, foldl_addMethod_of_not_mem hafter]
  exact Function.update_self ..

lemma dispatch_register (h : S.register serve sd = some S') (name : GoString) :
    S'.dispatch sd.serviceName name = sd.methodMap name := by
  unfold Server.register at h
  split at h
  · cases h
  · cases h
    simp [Server.dispatch]

end Register

/-! ### Calls of generated clients -/

section Calls
variable {goName : GoString → GoString} {code : GoString → MethodDesc V T} {svc : ProtoService}
  {S S' : Server V T} {serve : Bool}

/-- The call of the generated client method of index `i` names the service and the method of its
own entry in the descriptor, and the server has the method's own handler there. -/
def ReachesHandler (goName : GoString → GoString) (code : GoString → MethodDesc V T)
    (svc : ProtoService) (S : Server V T) (args : V) (i : Nat) (mtd : GoString) : Prop :=
  ∃ entry method call,
    (generateServerFunctions goName code svc).methods[i]? = some entry ∧
    genClientMethod goName svc mtd = some method ∧ newCall method args = .ok call ∧
    call.serviceName = (generateServerFunctions goName code svc).serviceName ∧
    call.serviceMethod = entry.1 ∧
    S.dispatch call.serviceName call.serviceMethod = some (code (genServerMethod goName svc mtd))

lemma reachesHandler_iff (hgo : ∀ n, isIdent n → 47 ∉ goName n)
    (hreg : S.register serve (generateServerFunctions goName code svc) = some S') (args : V)
    {i : Nat} {mtd : GoString} (hi : svc.methods[i]? = some mtd) :
    ReachesHandler goName code svc S' args i mtd ↔ goName mtd = mtd := by
  have hmem : mtd ∈ svc.methods := List.mem_of_getElem? hi
  have hcall := newCall_generated svc (hgo mtd (svc.methods_ident mtd hmem)) args
  have hentry : (generateServerFunctions goName code svc).methods[i]? =
      some (mtd, code (genServerMethod goName svc mtd)) := by
    rw [generateServerFunctions_methods, List.getElem?_map, hi]
    rfl
  constructor
  · rintro ⟨entry, method, call, he, hm, hc, -, hname, -⟩
    rw [genClientMethod_eq goName svc hmem] at hm
    cases hm
    cases hcall.symm.trans hc
    cases hentry.symm.trans he
    exact hname
  · intro hsame
    refine ⟨_, _, _, hentry, genClientMethod_eq goName svc hmem, hcall, rfl, hsame, ?_⟩
    have hnodup : ((generateServerFunctions goName code svc).methods.map Prod.fst).Nodup := by
      rw [generateServerFunctions_methods, List.map_map]
      simpa [Function.comp_def] using svc.methods_nodup
    exact (dispatch_register hreg _).trans
      (methodMap_of_mem hnodup (hsame.symm ▸ List.mem_of_getElem? hentry))

/-- Every generated client method reaches its own handler exactly if the Go name of every method
is its proto name. -/
theorem generated_calls_iff (goName : GoString → GoString) (hgo : ∀ n, isIdent n → 47 ∉ goName n)
    (code : GoString → MethodDesc V T) (svc : ProtoService) (serve : Bool) (S S' : Server V T)
    (hreg : S.register serve (generateServerFunctions goName code svc) = some S') (args : V) :
    (∀ i mtd, svc.methods[i]? = some mtd → ReachesHandler goName code svc S' args i mtd) ↔
      ∀ mtd ∈ svc.methods, goName mtd = mtd := by
  constructor
  · intro h mtd hmem
    obtain ⟨i, hi⟩ := List.mem_iff_getElem?.mp hmem
    exact (reachesHandler_iff hgo hreg args hi).mp (h i mtd hi)
  · intro h i mtd hi
    exact (reachesHandler_iff hgo hreg args hi).mpr (h mtd (List.mem_of_getElem? hi))

/-- The service `Greeter` with one method. -/
def greeter (mtd : GoString) (h : isIdent mtd) : ProtoService where
  package := []
  name := str "Greeter"
  methods := [mtd]
  package_ident := by simp
  name_ident := by decide
  methods_ident := by simpa using h
  methods_nodup := List.nodup_singleton mtd

def emptyServer : Server Bytes Unit := ⟨plainOption, fun _ => none⟩

theorem generated_calls_sayHello : ∃ S',
    emptyServer.register false (generateServerFunctions id (fun _ => echoHandler)
      (greeter (str "SayHello") (by decide))) = some S' ∧
    ∀ i mtd, (greeter (str "SayHello") (by decide)).methods[i]? = some mtd →
      ReachesHandler id (fun _ => echoHandler) (greeter (str "SayHello") (by decide)) S' [] i mtd :=
  ⟨_, rfl, (generated_calls_iff id (fun _ => slash_not_mem_ident) (fun _ => echoHandler)
    (greeter (str "SayHello") (by decide)) false emptyServer _ rfl []).mpr fun _ _ => rfl⟩

/-- The Go name of `say_hello`; the other names of the example are their own Go names. -/
def sayHelloGoName (n : GoString) : GoString := if n = str "say_hello" then str "SayHello" else n

/-- The client calls `Greeter/SayHello`; the server knows the method as `say_hello`. -/
theorem generated_call_say_hello : ∃ S',
    emptyServer.register false (generateServerFunctions sayHelloGoName (fun _ => echoHandler)
      (greeter (str "say_hello") (by decide))) = some S' ∧
    genClientMethod sayHelloGoName (greeter (str "say_hello") (by decide)) (str "say_hello") =
      some (str "Greeter/SayHello") ∧
    S'.dispatch (str "Greeter") (str "SayHello") = none ∧
    ¬ReachesHandler sayHelloGoName (fun _ => echoHandler)
      (greeter (str "say_hello") (by decide)) S' [] 0 (str "say_hello") := by
  have hgo : ∀ n, isIdent n → 47 ∉ sayHelloGoName n := by
    intro n hn
    unfold sayHelloGoName
    split
    · decide
    · exact slash_not_mem_ident hn
  have hreg : ∃ S', emptyServer.register false (generateServerFunctions sayHelloGoName
      (fun _ => echoHandler) (greeter (str "say_hello") (by decide))) = some S' ∧
      S'.dispatch (str "Greeter") (str "SayHello") = none := ⟨_, rfl, rfl⟩
  obtain ⟨S', hreg, hnone⟩ := hreg
  refine ⟨S', hreg, by decide, hnone, fun h => ?_⟩
  exact absurd ((reachesHandler_iff hgo hreg [] rfl).mp h) (by decide)

end Calls

end Zrpc.Proofs
