import ClosedSwitch.Proofs.TypeTable.Bounds
import Mathlib.Logic.Relation

/-!
# Looking up along base types

In a table that loads, the base types of every type come to an end, so that the chain of a
type has all of them.  Searching the chain stops at the nearest type with something to
find.
-/

namespace ClosedSwitch.TypeTable

/-- `c` is `t` or one of the base types of `t`. -/
def Inherits (T : TypeTable) : TypeId → TypeId → Prop :=
  Relation.ReflTransGen fun t b => T.base? t = some b

/-- `c` is the nearest type with a property, from `t` on along the base types. -/
inductive Nearest (T : TypeTable) (p : TypeId → Prop) : TypeId → TypeId → Prop
  | here {t : TypeId} (holds : p t) : Nearest T p t t
  | further {t b c : TypeId} (fails : ¬ p t) (base : T.base? t = some b)
      (nearest : Nearest T p b c) : Nearest T p t c

theorem Nearest.inherits
    {T : TypeTable} {p : TypeId → Prop} {t c : TypeId} (h : T.Nearest p t c) :
    T.Inherits t c := by
  induction h with
  | here holds => exact .refl
  | further fails base nearest ih => exact .head base ih

theorem Nearest.congr
    {T : TypeTable} {p q : TypeId → Prop} {t c : TypeId} (h : T.Nearest p t c)
    (hiff : ∀ u, T.Inherits t u → (p u ↔ q u)) : T.Nearest q t c := by
  induction h with
  | here holds => exact .here ((hiff _ .refl).mp holds)
  | further fails base nearest ih =>
      have hfails := (not_congr (hiff _ .refl)).mp fails
      exact .further hfails base (ih fun u hu => hiff u (.head base hu))

/-! ## Chains -/

theorem chainFrom_succ_of_base?
    {T : TypeTable} {fuel : Nat} {t b : TypeId} (hbase : T.base? t = some b) :
    T.chainFrom (fuel + 1) t = t :: T.chainFrom fuel b := by
  rw [chainFrom, hbase]

theorem chainFrom_succ_of_base?_eq_none
    {T : TypeTable} {fuel : Nat} {t : TypeId} (hbase : T.base? t = none) :
    T.chainFrom (fuel + 1) t = [t] := by
  rw [chainFrom, hbase]

/-- A chain that comes to an end has the type and all of its base types. -/
theorem mem_chainFrom_iff
    {T : TypeTable} {fuel : Nat} {t c : TypeId} (hends : T.chainEnds fuel t = true) :
    c ∈ T.chainFrom fuel t ↔ T.Inherits t c := by
  induction fuel generalizing t with
  | zero => exact absurd hends Bool.false_ne_true
  | succ fuel ih =>
      rw [Inherits, Relation.ReflTransGen.cases_head_iff]
      cases hbase : T.base? t with
      | none =>
          rw [chainFrom_succ_of_base?_eq_none hbase, List.mem_singleton]
          simp [eq_comm]
      | some b =>
          rw [chainEnds, hbase] at hends
          rw [chainFrom_succ_of_base? hbase, List.mem_cons, ih hends, eq_comm]
          simp [Inherits]

/-- What is found along a chain is what the nearest type has. -/
theorem exists_nearest_of_findSome?
    {α : Type} {T : TypeTable} {f : TypeId → Option α} {fuel : Nat} {t : TypeId} {a : α}
    (h : (T.chainFrom fuel t).findSome? f = some a) :
    ∃ c, T.Nearest (fun u => (f u).isSome = true) t c ∧ f c = some a := by
  induction fuel generalizing t with
  | zero => simp [chainFrom] at h
  | succ fuel ih =>
      by_cases hfound : (f t).isSome = true
      · rw [chainFrom, List.findSome?_cons_of_isSome hfound] at h
        exact ⟨t, .here hfound, h⟩
      · have hnone : f t = none := by simpa using hfound
        cases hbase : T.base? t with
        | none => simp [chainFrom_succ_of_base?_eq_none hbase, hnone] at h
        | some b =>
            rw [chainFrom_succ_of_base? hbase, List.findSome?_cons, hnone] at h
            obtain ⟨c, hnearest, hc⟩ := ih h
            exact ⟨c, .further hfound hbase hnearest, hc⟩

/-! ## Tables that load -/

theorem chainEnds_of_load
    {decls : List TypeDecl} {T : TypeTable} (h : load decls = .ok T)
    {t : TypeId} (ht : t < T.size) : T.chainEnds T.size t = true := by
  have hacyclic : T.cyclicType? = none := by
    simp only [load] at h
    split at h
    · simp at h
    · obtain ⟨entries, -, hcycle⟩ := bind_eq_ok_iff.mp h
      split at hcycle
      · simp at hcycle
      next hnone =>
        rw [← Except.ok.inj hcycle]
        exact hnone
  have hpasses := List.find?_eq_none.mp hacyclic t (List.mem_range.mpr ht)
  simpa using hpasses

theorem mem_baseChain_iff
    {decls : List TypeDecl} {T : TypeTable} (h : load decls = .ok T)
    {t c : TypeId} (ht : t < T.size) : c ∈ T.baseChain t ↔ T.Inherits t c :=
  mem_chainFrom_iff (chainEnds_of_load h ht)

/-- A type is built in and not declared, or the table holds what is declared under its
name. -/
theorem Represents.declared_cases
    {T : TypeTable} {s : Snapshot} (hT : T.Represents s.types) {c : TypeId}
    (hc : c < T.size) :
    (c < builtinTypes.length ∧ s.declaredTypes.find? (·.shape.name == T.name c) = none) ∨
      ∃ d, s.declaredTypes.find? (·.shape.name == T.name c) = some d ∧ T.Holds c d := by
  have hfound : ∀ d, s.declaredTypes.find? (·.shape.name == T.name c) = some d →
      builtinTypes.length ≤ c ∧ T.Holds c d := by
    intro d hd
    have hname : d.shape.name = T.name c := by simpa using List.find?_some hd
    obtain ⟨u, hbuiltin, hu, hholds⟩ := hT.exists_number (List.mem_of_find?_eq_some hd)
    obtain rfl : u = c := hT.eq_of_name_eq hu hc (hholds.name_eq.trans hname)
    exact ⟨hbuiltin, hholds⟩
  by_cases hbuiltin : c < builtinTypes.length
  · refine Or.inl ⟨hbuiltin, ?_⟩
    rw [Option.eq_none_iff_forall_ne_some]
    intro d hd
    exact absurd (hfound d hd).1 (Nat.not_le_of_lt hbuiltin)
  · obtain ⟨d, hd, hholds⟩ := hT.exists_holds (Nat.le_of_not_lt hbuiltin) hc
    have hsome : (s.declaredTypes.find? (·.shape.name == T.name c)).isSome = true := by
      rw [List.find?_isSome]
      exact ⟨d, hd, by simp [hholds.name_eq]⟩
    obtain ⟨found, hd'⟩ := Option.isSome_iff_exists.mp hsome
    exact Or.inr ⟨found, hd', (hfound found hd').2⟩

theorem Represents.lt_size_of_inherits
    {T : TypeTable} {s : Snapshot} (hT : T.Represents s.types) {t c : TypeId}
    (ht : t < T.size) (h : T.Inherits t c) : c < T.size := by
  induction h with
  | refl => exact ht
  | tail _ hbase _ => exact (hT.entry_within _).base _ hbase

end ClosedSwitch.TypeTable
