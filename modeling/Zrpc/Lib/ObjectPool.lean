import Mathlib.Data.List.Nodup

/-!
# Objects that are recycled

Objects are named by their index. A pool keeps the names of objects that nobody uses; a `get` may
take any of them, or make a new object. Between `get` and `put` an object is in use.
-/

namespace Zrpc.Lib

universe u

structure ObjectPool (α : Type u) where
  cells : List α
  free : List Nat

namespace ObjectPool

variable {α : Type u}

def empty : ObjectPool α := ⟨[], []⟩

/-- Element `choice` of the pool, or a new object. -/
def get (p : ObjectPool α) (fresh : α) (choice : Option Nat) : ObjectPool α × Nat :=
  match choice.bind (fun j => p.free[j]?) with
  | some i => ({ p with free := p.free.erase i }, i)
  | none => ({ p with cells := p.cells ++ [fresh] }, p.cells.length)

def put (p : ObjectPool α) (i : Nat) : ObjectPool α := { p with free := i :: p.free }

def set (p : ObjectPool α) (i : Nat) (x : α) : ObjectPool α := { p with cells := p.cells.set i x }

def InUse (p : ObjectPool α) (i : Nat) : Prop := i < p.cells.length ∧ i ∉ p.free

/-- The pool holds names of objects, none of them twice. -/
structure Sound (p : ObjectPool α) : Prop where
  valid : ∀ i ∈ p.free, i < p.cells.length
  nodup : p.free.Nodup

variable {p : ObjectPool α} {fresh x : α} {choice : Option Nat} {i j : Nat}

lemma sound_empty : Sound (empty : ObjectPool α) := by
  constructor
  · intro i hi
    cases hi
  · exact List.nodup_nil

/-- The object a `get` delivers was in the pool, or is new. -/
lemma get_cases (p : ObjectPool α) (fresh : α) (choice : Option Nat) :
    (∃ i ∈ p.free, p.get fresh choice = ({ p with free := p.free.erase i }, i)) ∨
      p.get fresh choice = ({ p with cells := p.cells ++ [fresh] }, p.cells.length) := by
  unfold get
  split
  · next i hi =>
    obtain ⟨j, -, hj⟩ := Option.bind_eq_some_iff.mp hi
    exact .inl ⟨i, List.mem_of_getElem? hj, rfl⟩
  · exact .inr rfl

lemma Sound.get (h : Sound p) (fresh : α) (choice : Option Nat) : Sound (p.get fresh choice).1 := by
  rcases get_cases p fresh choice with ⟨i, -, hget⟩ | hget
  · rw [hget]
    exact ⟨fun j hj => h.valid j (List.mem_of_mem_erase hj), h.nodup.erase i⟩
  · rw [hget]
    refine ⟨fun j hj => ?_, h.nodup⟩
    have hlt := h.valid j hj
    dsimp only
    rw [List.length_append]
    omega

lemma Sound.inUse_get (h : Sound p) (fresh : α) (choice : Option Nat) :
    InUse (p.get fresh choice).1 (p.get fresh choice).2 := by
  rcases get_cases p fresh choice with ⟨i, hi, hget⟩ | hget
  · rw [hget]
    exact ⟨h.valid i hi, h.nodup.not_mem_erase⟩
  · rw [hget]
    refine ⟨by simp, fun hmem => ?_⟩
    exact absurd (h.valid _ hmem) (Nat.lt_irrefl _)

/-- Nobody used the object a `get` delivers. -/
lemma not_inUse_get (p : ObjectPool α) (fresh : α) (choice : Option Nat) :
    ¬InUse p (p.get fresh choice).2 := by
  rcases get_cases p fresh choice with ⟨i, hi, hget⟩ | hget
  · rw [hget]
    exact fun hin => hin.2 hi
  · rw [hget]
    exact fun hin => absurd hin.1 (Nat.lt_irrefl _)

lemma InUse.ne_get (hi : InUse p i) (fresh : α) (choice : Option Nat) :
    i ≠ (p.get fresh choice).2 :=
  fun he => not_inUse_get p fresh choice (he ▸ hi)

lemma InUse.get (hi : InUse p i) (fresh : α) (choice : Option Nat) :
    InUse (p.get fresh choice).1 i := by
  rcases get_cases p fresh choice with ⟨j, hj, hget⟩ | hget
  · rw [hget]
    exact ⟨hi.1, fun hmem => hi.2 (List.mem_of_mem_erase hmem)⟩
  · rw [hget]
    refine ⟨?_, hi.2⟩
    have hlt := hi.1
    dsimp only
    rw [List.length_append]
    omega

lemma getElem?_get_of_some (h : p.cells[i]? = some x) (fresh : α) (choice : Option Nat) :
    (p.get fresh choice).1.cells[i]? = some x := by
  rcases get_cases p fresh choice with ⟨j, hj, hget⟩ | hget
  · rw [hget]
    exact h
  · rw [hget]
    exact (List.getElem?_append_left (List.getElem?_eq_some_iff.mp h).1).trans h

lemma getElem?_get (hi : InUse p i) (fresh : α) (choice : Option Nat) :
    (p.get fresh choice).1.cells[i]? = p.cells[i]? := by
  have hsome := List.getElem?_eq_getElem hi.1
  rw [getElem?_get_of_some hsome, hsome]

/-- Where all pooled objects and the new ones meet `P`, the delivered one does. -/
lemma getElem?_get_self {P : α → Prop} (hfresh : P fresh)
    (hfree : ∀ i ∈ p.free, ∃ x, p.cells[i]? = some x ∧ P x) (choice : Option Nat) :
    ∃ x, (p.get fresh choice).1.cells[(p.get fresh choice).2]? = some x ∧ P x := by
  rcases get_cases p fresh choice with ⟨i, hi, hget⟩ | hget
  · rw [hget]
    exact hfree i hi
  · rw [hget]
    exact ⟨fresh, List.getElem?_concat_length, hfresh⟩

lemma mem_free_get (h : i ∈ (p.get fresh choice).1.free) : i ∈ p.free := by
  rcases get_cases p fresh choice with ⟨j, hj, hget⟩ | hget
  · rw [hget] at h
    exact List.mem_of_mem_erase h
  · rw [hget] at h
    exact h

lemma Sound.put (h : Sound p) (hi : InUse p i) : Sound (p.put i) := by
  constructor
  · intro j hj
    obtain rfl | hj := List.mem_cons.mp hj
    · exact hi.1
    · exact h.valid j hj
  · exact List.nodup_cons.mpr ⟨hi.2, h.nodup⟩

lemma InUse.put (hi : InUse p i) (hne : i ≠ j) : InUse (p.put j) i := by
  refine ⟨hi.1, fun hmem => ?_⟩
  obtain rfl | hmem := List.mem_cons.mp hmem
  · exact hne rfl
  · exact hi.2 hmem

lemma Sound.set (h : Sound p) (i : Nat) (x : α) : Sound (p.set i x) := by
  refine ⟨fun j hj => ?_, h.nodup⟩
  have hlt := h.valid j hj
  simpa [ObjectPool.set] using hlt

lemma inUse_set : InUse (p.set i x) j ↔ InUse p j := by
  simp [InUse, ObjectPool.set]

lemma getElem?_set_self (hi : InUse p i) : (p.set i x).cells[i]? = some x :=
  List.getElem?_set_self hi.1

lemma getElem?_set_ne (hne : i ≠ j) : (p.set i x).cells[j]? = p.cells[j]? :=
  List.getElem?_set_ne hne

end ObjectPool

end Zrpc.Lib
