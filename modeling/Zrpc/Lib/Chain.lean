import Mathlib.Data.List.Basic

/-!
# Chains of wrappers built by position

A wrapper takes the function it goes around. `chainAt` puts the wrappers behind a position of a
list around a last function, going from one position to the next; it is the right fold over them.
`chainOf` prepends an optional first wrapper and treats lists of no and of one element apart.
-/

namespace Zrpc.Lib

universe u v
variable {μ : Type u} {η : Type v}

/-- The function that a wrapper at position `pos` gets as its next one. `outside` stands for an
access behind the end of the list. -/
def chainAt (outside : η) (around : μ → η → η) (ws : List μ) (pos : Nat) (final : η) : η :=
  if pos + 1 = ws.length then final
  else if h : pos + 1 < ws.length then
    around ws[pos + 1] (chainAt outside around ws (pos + 1) final)
  else outside
  termination_by ws.length - pos

theorem chainAt_eq_foldr (outside : η) (around : μ → η → η) (ws : List μ) {pos : Nat}
    (hpos : pos < ws.length) (final : η) :
    chainAt outside around ws pos final = (ws.drop (pos + 1)).foldr around final := by
  fun_induction chainAt outside around ws pos final with
  | case1 pos hlast => rw [List.drop_eq_nil_of_le (Nat.le_of_eq hlast.symm), List.foldr_nil]
  | case2 pos hlast h ih => rw [List.drop_eq_getElem_cons h, List.foldr_cons, ih h]
  | case3 pos hlast h => omega

/-- An optional first wrapper before a list of wrappers, each of which may be nil. -/
def chainOf (build : List (Option μ) → μ) (first : Option μ) (rest : List (Option μ)) : Option μ :=
  match (if first.isSome then first :: rest else rest) with
  | [] => none
  | [w] => w
  | ws => some (build ws)

/-- Wrappers that are not nil are chained into one that acts as their list, if `build` does this for
two or more. -/
theorem chainOf_acts (Acts : μ → List μ → Prop) {build : List (Option μ) → μ}
    (hone : ∀ w, Acts w [w]) (hbuild : ∀ w ws, Acts (build ((w :: ws).map some)) (w :: ws))
    (first : Option μ) (rest : List μ) :
    (first.toList ++ rest = [] → chainOf build first (rest.map some) = none) ∧
    (first.toList ++ rest ≠ [] → ∃ w, chainOf build first (rest.map some) = some w ∧
      Acts w (first.toList ++ rest)) := by
  have hlist : (if first.isSome then first :: rest.map some else rest.map some) =
      (first.toList ++ rest).map some := by
    cases first with
    | none => rfl
    | some w => rfl
  unfold chainOf
  rw [hlist]
  generalize first.toList ++ rest = ws
  match ws with
  | [] => exact ⟨fun _ => rfl, fun h => absurd rfl h⟩
  | [w] => exact ⟨fun h => absurd h (by simp), fun _ => ⟨w, rfl, hone w⟩⟩
  | w :: w' :: ws => exact ⟨fun h => absurd h (by simp), fun _ => ⟨_, rfl, hbuild w (w' :: ws)⟩⟩

end Zrpc.Lib
