import ClosedSwitch.TypeTable.Load
import ClosedSwitch.Proofs.TypeTable.Conversion
import Mathlib.Data.Fintype.Pigeonhole
import Mathlib.Logic.Function.Iterate

/-!
# Base types that come to an end

A table has finitely many types, so following base types from one of them comes to an
end within as many steps as there are types, or a type is met a second time and the
steps from there on repeat without end.
-/

namespace ClosedSwitch.TypeTable

/-- The base types of `t` never come to an end. -/
def HasEndlessBases (T : TypeTable) (t : TypeId) : Prop :=
  ∃ chain : Nat → TypeId, chain 0 = t ∧ ∀ n, T.base? (chain n) = some (chain (n + 1))

theorem HasEndlessBases.exists_base
    {T : TypeTable} {t : TypeId} (h : T.HasEndlessBases t) :
    ∃ b, T.base? t = some b ∧ T.HasEndlessBases b := by
  obtain ⟨chain, rfl, hchain⟩ := h
  exact ⟨chain 1, hchain 0, fun n => chain (n + 1), rfl, fun n => hchain (n + 1)⟩

theorem HasEndlessBases.lt_size
    {T : TypeTable} {t : TypeId} (h : T.HasEndlessBases t) : t < T.size := by
  obtain ⟨b, hbase, -⟩ := h.exists_base
  exact lt_size_of_base? hbase

theorem HasEndlessBases.chainEnds_eq_false
    {T : TypeTable} {t : TypeId} (h : T.HasEndlessBases t) (fuel : Nat) :
    T.chainEnds fuel t = false := by
  induction fuel generalizing t with
  | zero => rfl
  | succ fuel ih =>
      obtain ⟨b, hbase, hnext⟩ := h.exists_base
      rw [chainEnds, hbase]
      exact ih hnext

/-- The base type of `t`, or `t` itself if it has none. -/
def nextBase (T : TypeTable) (t : TypeId) : TypeId := (T.base? t).getD t

theorem base?_eq_some_nextBase
    {T : TypeTable} {t : TypeId} (h : T.base? t ≠ none) :
    T.base? t = some (T.nextBase t) := by
  obtain ⟨b, hb⟩ := Option.ne_none_iff_exists'.mp h
  rw [nextBase, hb, Option.getD_some]

theorem base?_iterate_of_chainEnds_eq_false
    {T : TypeTable} {fuel : Nat} {t : TypeId} (h : T.chainEnds fuel t = false)
    {k : Nat} (hk : k < fuel) :
    T.base? (T.nextBase^[k] t) = some (T.nextBase^[k + 1] t) := by
  induction fuel generalizing t k with
  | zero => omega
  | succ fuel ih =>
      have hbase : T.base? t ≠ none := by
        intro hnone
        simp [chainEnds, hnone] at h
      have hsome := base?_eq_some_nextBase hbase
      rw [chainEnds, hsome] at h
      cases k with
      | zero => exact hsome
      | succ k =>
          rw [Function.iterate_succ_apply, Function.iterate_succ_apply]
          exact ih h (by omega)

/-- A type that is met again after `i` steps has been left by the same step before,
so no number of steps leads to a type that was not met within the first `j`. -/
theorem exists_iterate_eq_of_repeat
    {α : Type} {f : α → α} {a : α} {i j : Nat} (hij : i < j) (h : f^[i] a = f^[j] a)
    (n : Nat) : ∃ k < j, f^[n] a = f^[k] a := by
  induction n using Nat.strong_induction_on with
  | h n ih =>
      by_cases hn : n < j
      · exact ⟨n, hn, rfl⟩
      · obtain ⟨m, rfl⟩ := Nat.exists_eq_add_of_le' (Nat.le_of_not_lt hn)
        obtain ⟨k, hk, heq⟩ := ih (m + i) (by omega)
        refine ⟨k, hk, ?_⟩
        rw [Function.iterate_add_apply, ← h, ← Function.iterate_add_apply, heq]

/-- Following base types meets a type twice if it goes on for as many steps as there
are types. -/
theorem exists_repeat_of_chainEnds_eq_false
    {T : TypeTable} (hbound : ∀ u b, T.base? u = some b → b < T.size)
    {t : TypeId} (ht : t < T.size) (h : T.chainEnds T.size t = false) :
    ∃ i j, i < j ∧ j ≤ T.size ∧ T.nextBase^[i] t = T.nextBase^[j] t := by
  have hlt : ∀ k : Fin (T.size + 1), T.nextBase^[k] t < T.size := by
    rintro ⟨k, hk⟩
    cases k with
    | zero => exact ht
    | succ k =>
        exact hbound _ _ (base?_iterate_of_chainEnds_eq_false h (Nat.lt_of_succ_lt_succ hk))
  obtain ⟨⟨i, hi⟩, ⟨j, hj⟩, hne, heq⟩ := Fintype.exists_ne_map_eq_of_card_lt
    (fun k : Fin (T.size + 1) => (⟨T.nextBase^[k] t, hlt k⟩ : Fin T.size)) (by simp)
  simp only [Fin.mk.injEq] at heq
  have hij : i ≠ j := fun hij => hne (Fin.ext hij)
  rcases Nat.lt_or_gt_of_ne hij with hlt | hgt
  · exact ⟨i, j, hlt, Nat.le_of_lt_succ hj, heq⟩
  · exact ⟨j, i, hgt, Nat.le_of_lt_succ hi, heq.symm⟩

theorem hasEndlessBases_of_chainEnds_eq_false
    {T : TypeTable} (hbound : ∀ u b, T.base? u = some b → b < T.size)
    {t : TypeId} (ht : t < T.size) (h : T.chainEnds T.size t = false) :
    T.HasEndlessBases t := by
  obtain ⟨i, j, hij, hj, hrepeat⟩ := exists_repeat_of_chainEnds_eq_false hbound ht h
  refine ⟨fun n => T.nextBase^[n] t, rfl, ?_⟩
  intro n
  -- Whatever is reached after `n` steps was met within the first ones, and has a base.
  obtain ⟨k, hk, heq⟩ := exists_iterate_eq_of_repeat hij hrepeat n
  have hbase := base?_iterate_of_chainEnds_eq_false h (Nat.lt_of_lt_of_le hk hj)
  change T.base? (T.nextBase^[n] t) = some (T.nextBase^[n + 1] t)
  rw [Function.iterate_succ_apply'] at hbase ⊢
  rw [heq]
  exact hbase

/-- Base types that do not come to an end within as many steps as there are types
never do. -/
theorem chainEnds_size_eq_false_iff
    {T : TypeTable} (hbound : ∀ u b, T.base? u = some b → b < T.size)
    {t : TypeId} (ht : t < T.size) :
    T.chainEnds T.size t = false ↔ T.HasEndlessBases t := by
  constructor
  · exact hasEndlessBases_of_chainEnds_eq_false hbound ht
  · intro hendless
    exact hendless.chainEnds_eq_false T.size

end ClosedSwitch.TypeTable
