import ClosedSwitch.Proofs.TypeTable.Load
import Mathlib.Data.List.Nodup
import Mathlib.Data.List.Perm.Basic

/-!
# Nested types

Declarations are numbered depth first, so a type takes a number and the types
nested in it take the numbers right after it.  Every number is given out once:
a nested type stands in the list of exactly one type, which has a smaller
number.
-/

namespace ClosedSwitch

namespace TypeDecl

/-! ## Numbers are given out once -/

theorem le_of_mem_ids
    {first c : TypeId} {ds : List TypeDecl} (h : c ∈ ids first ds) : first ≤ c := by
  induction ds generalizing first with
  | nil => simp [ids] at h
  | cons d rest ih =>
      rcases List.mem_cons.mp h with rfl | hrest
      · exact Nat.le_refl _
      · exact Nat.le_of_add_right_le (ih hrest)

mutual

theorem length_place (enclosing : Option String) (id : TypeId) (d : TypeDecl) :
    (place enclosing id d).length = d.count := by
  rcases d with ⟨shape, nested⟩
  rw [place, List.length_cons, length_placeAll _ (id + 1) nested, count, Nat.add_comm]

theorem length_placeAll (enclosing : Option String) (id : TypeId) (ds : List TypeDecl) :
    (placeAll enclosing id ds).length = countAll ds := by
  rcases ds with _ | ⟨d, rest⟩
  · rfl
  · rw [placeAll, List.length_append, length_place enclosing id d,
      length_placeAll enclosing _ rest, countAll]

end

mutual

/-- The number of a declaration and the numbers in the nested lists below it are
the numbers that the declaration takes up, each of them once. -/
theorem perm_place (enclosing : Option String) (id : TypeId) (d : TypeDecl) :
    (id :: (place enclosing id d).flatMap (·.nested)).Perm
      (List.range' id d.count) := by
  rcases d with ⟨shape, nested⟩
  rw [place, List.flatMap_cons, count, Nat.add_comm 1, List.range'_succ]
  exact (perm_placeAll _ (id + 1) nested).cons id

theorem perm_placeAll (enclosing : Option String) (id : TypeId) (ds : List TypeDecl) :
    (ids id ds ++ (placeAll enclosing id ds).flatMap (·.nested)).Perm
      (List.range' id (countAll ds)) := by
  rcases ds with _ | ⟨d, rest⟩
  · exact List.Perm.refl _
  · rw [ids, placeAll, List.flatMap_append, countAll, ← List.range'_append_1]
    refine List.Perm.trans ?_
      ((perm_place enclosing id d).append (perm_placeAll enclosing (id + d.count) rest))
    rw [List.cons_append, List.cons_append]
    refine List.Perm.cons id ?_
    rw [← List.append_assoc, ← List.append_assoc]
    exact List.perm_append_comm.append_right _

end

mutual

theorem lt_of_mem_nested_place
    {enclosing : Option String} {id k c : Nat} (d : TypeDecl) {p : PlacedType}
    (hp : (place enclosing id d)[k]? = some p) (hc : c ∈ p.nested) : id + k < c := by
  rcases d with ⟨shape, nested⟩
  rw [place] at hp
  cases k with
  | zero =>
      simp only [List.getElem?_cons_zero, Option.some.injEq] at hp
      subst hp
      exact le_of_mem_ids hc
  | succ k =>
      rw [List.getElem?_cons_succ] at hp
      have hlt := lt_of_mem_nested_placeAll nested hp hc
      omega

theorem lt_of_mem_nested_placeAll
    {enclosing : Option String} {id k c : Nat} (ds : List TypeDecl) {p : PlacedType}
    (hp : (placeAll enclosing id ds)[k]? = some p) (hc : c ∈ p.nested) :
    id + k < c := by
  rcases ds with _ | ⟨d, rest⟩
  · simp [placeAll] at hp
  · rw [placeAll, List.getElem?_append, length_place] at hp
    split at hp
    · exact lt_of_mem_nested_place d hp hc
    next hk =>
      have hlt := lt_of_mem_nested_placeAll rest hp hc
      omega

end

end TypeDecl

theorem PlacedType.nested_of_define
    {find? : String → Option TypeId} {p : PlacedType} {e : TypeEntry}
    (h : p.define find? = .ok e) : e.nested = p.nested := by
  obtain ⟨r, _, he⟩ := bind_eq_ok_iff.mp h
  simp only [pure, Except.pure, Except.ok.injEq] at he
  exact he ▸ rfl

namespace TypeTable

/-! ## Types inside other types -/

/-- The type `c` is declared directly in `t`. -/
def IsChild (T : TypeTable) (t c : TypeId) : Prop := c ∈ (T.entry t).nested

instance (T : TypeTable) (t c : TypeId) : Decidable (T.IsChild t c) :=
  inferInstanceAs (Decidable (c ∈ (T.entry t).nested))

/-- The type `c` is declared in `t`, at any depth. -/
def IsInside (T : TypeTable) : TypeId → TypeId → Prop := Relation.TransGen T.IsChild

theorem lt_size_of_isChild
    {T : TypeTable} {t c : TypeId} (h : T.IsChild t c) : t < T.size := by
  apply lt_size_of_entry_ne
  intro hdefault
  rw [IsChild, hdefault] at h
  exact absurd h List.not_mem_nil

/-- A declared type has the nested list of its place, and a built-in type has
none. -/
theorem Represents.exists_placed_of_isChild
    {T : TypeTable} {decls : List TypeDecl} (h : T.Represents decls)
    {t c : TypeId} (hchild : T.IsChild t c) :
    ∃ k p, t = builtinTypes.length + k ∧ (placed decls)[k]? = some p ∧
      c ∈ p.nested := by
  obtain ⟨entries, hentries, hdefined⟩ := h.entries_eq
  have hget := getElem?_entries_of_lt_size (lt_size_of_isChild hchild)
  rw [hentries, List.getElem?_toArray, List.getElem?_append] at hget
  split at hget
  next hbuiltin =>
    have hnested : ∀ e ∈ builtinTypes, e.nested = [] := by decide
    rw [IsChild, hnested _ (List.mem_of_getElem? hget)] at hchild
    exact absurd hchild List.not_mem_nil
  next hdeclared =>
    obtain ⟨p, hp, hdefine⟩ := exists_left_of_forall₂ hdefined hget
    refine ⟨t - builtinTypes.length, p, ?_, hp, ?_⟩
    · exact (Nat.add_sub_cancel' (Nat.le_of_not_lt hdeclared)).symm
    · rw [← PlacedType.nested_of_define hdefine]
      exact hchild

theorem Represents.size_eq
    {T : TypeTable} {decls : List TypeDecl} (h : T.Represents decls) :
    T.size = builtinTypes.length + TypeDecl.countAll decls := by
  obtain ⟨entries, hentries, hdefined⟩ := h.entries_eq
  rw [size, hentries, List.size_toArray, List.length_append, ← hdefined.length_eq, placed,
    TypeDecl.length_placeAll]

theorem Represents.child_lt_size
    {T : TypeTable} {decls : List TypeDecl} (h : T.Represents decls)
    {t c : TypeId} (hchild : T.IsChild t c) : c < T.size := by
  obtain ⟨k, p, -, hp, hc⟩ := h.exists_placed_of_isChild hchild
  have hmem : c ∈ TypeDecl.ids builtinTypes.length decls ++
      (placed decls).flatMap (·.nested) :=
    List.mem_append_right _ (List.mem_flatMap.mpr ⟨p, List.mem_of_getElem? hp, hc⟩)
  have hrange := (TypeDecl.perm_placeAll none builtinTypes.length decls).mem_iff.mp hmem
  rw [h.size_eq]
  exact (List.mem_range'_1.mp hrange).2

/-- Types have greater numbers than the type they are nested in. -/
theorem Represents.lt_of_isChild
    {T : TypeTable} {decls : List TypeDecl} (h : T.Represents decls)
    {t c : TypeId} (hchild : T.IsChild t c) : t < c := by
  obtain ⟨k, p, rfl, hp, hc⟩ := h.exists_placed_of_isChild hchild
  exact TypeDecl.lt_of_mem_nested_placeAll decls hp hc

theorem Represents.lt_of_isInside
    {T : TypeTable} {decls : List TypeDecl} (h : T.Represents decls)
    {t c : TypeId} (hinside : T.IsInside t c) : t < c := by
  induction hinside with
  | single hchild => exact h.lt_of_isChild hchild
  | tail _ hchild ih => exact Nat.lt_trans ih (h.lt_of_isChild hchild)

/-- No type is declared directly in two others. -/
theorem Represents.isChild_unique
    {T : TypeTable} {decls : List TypeDecl} (h : T.Represents decls)
    {t u c : TypeId} (ht : T.IsChild t c) (hu : T.IsChild u c) : t = u := by
  obtain ⟨i, p, rfl, hp, hcp⟩ := h.exists_placed_of_isChild ht
  obtain ⟨j, q, rfl, hq, hcq⟩ := h.exists_placed_of_isChild hu
  have hperm := TypeDecl.perm_placeAll none builtinTypes.length decls
  have hnodup := hperm.nodup_iff.mpr List.nodup_range'
  have hdisjoint := (List.nodup_flatMap.mp hnodup.of_append_right).2
  have hij : i = j := by
    by_contra hne
    rw [List.pairwise_iff_getElem] at hdisjoint
    obtain ⟨hi, rfl⟩ := List.getElem?_eq_some_iff.mp hp
    obtain ⟨hj, rfl⟩ := List.getElem?_eq_some_iff.mp hq
    rcases Nat.lt_or_gt_of_ne hne with hlt | hgt
    · exact hdisjoint i j hi hj hlt hcp hcq
    · exact hdisjoint j i hj hi hgt hcq hcp
  rw [hij]

end TypeTable

end ClosedSwitch
