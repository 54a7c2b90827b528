import ClosedSwitch.Hierarchy
import ClosedSwitch.Proofs.Binding
import ClosedSwitch.Proofs.TypeTable.Nesting

/-!
# The leaves of a closed hierarchy

The traversal behind `classify` goes from a type that qualifies to the nested
types that derive from it, and stops at the types that do not qualify.  So the
leaves are the ends of derivation chains.  Every step of a chain goes to a type
declared directly in its base.  A private constructor also admits the subtypes that
are declared deeper, in a helper type or in another leaf, but no chain leads to these.
-/

namespace ClosedSwitch

namespace TypeTable

/-- A step of the traversal: it goes on from a type that qualifies to a nested
type that derives from it. -/
def IsDerivation (T : TypeTable) (records : Bool) (t c : TypeId) : Prop :=
  T.qualifies records t = true ∧ c ∈ T.derived t

/-- A chain of such steps. -/
def Derives (T : TypeTable) (records : Bool) : TypeId → TypeId → Prop :=
  Relation.ReflTransGen (T.IsDerivation records)

theorem mem_derived_iff
    {T : TypeTable} {t c : TypeId} :
    c ∈ T.derived t ↔ T.IsChild t c ∧ T.base? c = some t := by
  simp [derived, IsChild]

/-- What a derived type contributes to the leaves of its base. -/
def contribution
    (T : TypeTable) (records : Bool) (fuel : Nat) (c : TypeId) :
    Option (List TypeId) :=
  if T.qualifies records c then T.leavesBelow records fuel c
  else if (T.entry c).isSealed then some [c]
  else none

theorem exists_contributions_of_leavesBelow
    {T : TypeTable} {records : Bool} {fuel : Nat} {t : TypeId} {leaves : List TypeId}
    (h : T.leavesBelow records (fuel + 1) t = some leaves) :
    ∃ parts, leaves = parts.flatten ∧
      List.Forall₂ (fun c part => T.contribution records fuel c = some part)
        (T.derived t) parts := by
  rw [leavesBelow, Option.map_eq_some_iff] at h
  obtain ⟨parts, hparts, rfl⟩ := h
  exact ⟨parts, rfl, forall₂_of_mapM_eq_some hparts⟩

theorem contribution_of_mem_derived
    {T : TypeTable} {records : Bool} {fuel : Nat} {t c : TypeId} {leaves : List TypeId}
    (h : T.leavesBelow records (fuel + 1) t = some leaves) (hc : c ∈ T.derived t) :
    ∃ part, T.contribution records fuel c = some part ∧ part ⊆ leaves := by
  obtain ⟨parts, rfl, hparts⟩ := exists_contributions_of_leavesBelow h
  obtain ⟨k, hk⟩ := List.getElem?_of_mem hc
  obtain ⟨part, hpart, hcontribution⟩ := exists_right_of_forall₂ hparts hk
  refine ⟨part, hcontribution, ?_⟩
  intro x hx
  exact List.mem_flatten.mpr ⟨part, List.mem_of_getElem? hpart, hx⟩

theorem exists_contribution_of_mem_leavesBelow
    {T : TypeTable} {records : Bool} {fuel : Nat} {t x : TypeId} {leaves : List TypeId}
    (h : T.leavesBelow records (fuel + 1) t = some leaves) (hx : x ∈ leaves) :
    ∃ c ∈ T.derived t, ∃ part,
      T.contribution records fuel c = some part ∧ x ∈ part := by
  obtain ⟨parts, rfl, hparts⟩ := exists_contributions_of_leavesBelow h
  obtain ⟨part, hpart, hx⟩ := List.mem_flatten.mp hx
  obtain ⟨k, hk⟩ := List.getElem?_of_mem hpart
  obtain ⟨c, hc, hcontribution⟩ := exists_left_of_forall₂ hparts hk
  exact ⟨c, List.mem_of_getElem? hc, part, hcontribution, hx⟩

theorem derives_of_mem_leavesBelow
    {T : TypeTable} {records : Bool} {fuel : Nat} {t x : TypeId} {leaves : List TypeId}
    (hqualifies : T.qualifies records t = true)
    (h : T.leavesBelow records fuel t = some leaves) (hx : x ∈ leaves) :
    T.Derives records t x ∧ T.qualifies records x = false := by
  induction fuel generalizing t leaves with
  | zero => simp [leavesBelow] at h
  | succ fuel ih =>
      obtain ⟨c, hc, part, hpart, hx⟩ := exists_contribution_of_mem_leavesBelow h hx
      have hstep : T.IsDerivation records t c := ⟨hqualifies, hc⟩
      rw [contribution] at hpart
      split at hpart
      next hqualifies =>
        obtain ⟨hderives, hleaf⟩ := ih hqualifies hpart hx
        exact ⟨Relation.ReflTransGen.head hstep hderives, hleaf⟩
      next hleaf =>
        split at hpart
        · simp only [Option.some.injEq] at hpart
          rw [← hpart, List.mem_singleton] at hx
          subst hx
          exact ⟨Relation.ReflTransGen.single hstep, Bool.eq_false_of_not_eq_true hleaf⟩
        · simp at hpart

theorem mem_leavesBelow_of_derives
    {T : TypeTable} {records : Bool} {fuel : Nat} {t x : TypeId} {leaves : List TypeId}
    (hqualifies : T.qualifies records t = true)
    (h : T.leavesBelow records fuel t = some leaves)
    (hderives : T.Derives records t x) (hleaf : T.qualifies records x = false) :
    x ∈ leaves := by
  induction fuel generalizing t leaves with
  | zero => simp [leavesBelow] at h
  | succ fuel ih =>
      rcases Relation.ReflTransGen.cases_head hderives with rfl | ⟨c, hstep, hrest⟩
      · simp [hqualifies] at hleaf
      · obtain ⟨part, hpart, hsubset⟩ := contribution_of_mem_derived h hstep.2
        apply hsubset
        rw [contribution] at hpart
        split at hpart
        next hqualifies => exact ih hqualifies hpart hrest
        next hc =>
          -- No step leads on from a type that does not qualify.
          rcases Relation.ReflTransGen.cases_head hrest with rfl | ⟨u, hstep, _⟩
          · split at hpart
            · simp only [Option.some.injEq] at hpart
              exact hpart ▸ List.mem_singleton_self c
            · simp at hpart
          · exact absurd hstep.1 hc

theorem classify_eq_some_iff
    {T : TypeTable} {records : Bool} {root : TypeId} {h : ClosedHierarchy} :
    T.classify records root = some h ↔
      T.qualifies records root = true ∧ h.root = root ∧
        T.leavesBelow records T.size root = some h.leaves := by
  rcases h with ⟨found, leaves⟩
  rw [classify]
  split
  next hqualifies =>
    simp only [Option.map_eq_some_iff, ClosedHierarchy.mk.injEq, hqualifies, true_and]
    constructor
    · rintro ⟨_, hleaves, rfl, rfl⟩
      exact ⟨rfl, hleaves⟩
    · rintro ⟨rfl, hleaves⟩
      exact ⟨leaves, hleaves, rfl, rfl⟩
  next hqualifies => simp [hqualifies]

theorem qualifies_of_classify
    {T : TypeTable} {records : Bool} {root : TypeId} {h : ClosedHierarchy}
    (hclosed : T.classify records root = some h) :
    T.qualifies records root = true :=
  (classify_eq_some_iff.mp hclosed).1

theorem root_of_classify
    {T : TypeTable} {records : Bool} {root : TypeId} {h : ClosedHierarchy}
    (hclosed : T.classify records root = some h) : h.root = root :=
  (classify_eq_some_iff.mp hclosed).2.1

/-- The leaves of a closed hierarchy are the types that derivation chains from
its root end at. -/
theorem mem_leaves_iff
    {T : TypeTable} {records : Bool} {root x : TypeId} {h : ClosedHierarchy}
    (hclosed : T.classify records root = some h) :
    x ∈ h.leaves ↔ T.Derives records root x ∧ T.qualifies records x = false := by
  obtain ⟨hqualifies, -, hleaves⟩ := classify_eq_some_iff.mp hclosed
  constructor
  · exact derives_of_mem_leavesBelow hqualifies hleaves
  · rintro ⟨hderives, hleaf⟩
    exact mem_leavesBelow_of_derives hqualifies hleaves hderives hleaf

theorem not_qualifies_of_not_isAbstract
    {T : TypeTable} {records : Bool} {t : TypeId}
    (h : (T.entry t).isAbstract = false) : T.qualifies records t = false := by
  simp [qualifies, h]

theorem lt_size_of_qualifies
    {T : TypeTable} {records : Bool} {t : TypeId}
    (h : T.qualifies records t = true) : t < T.size := by
  apply lt_size_of_entry_ne
  intro hdefault
  rw [qualifies, hdefault] at h
  exact absurd h Bool.false_ne_true

/-- A leaf is declared directly in its base type. -/
theorem exists_base_of_mem_leaves
    {T : TypeTable} {records : Bool} {root x : TypeId} {h : ClosedHierarchy}
    (hclosed : T.classify records root = some h) (hx : x ∈ h.leaves) :
    ∃ b, T.IsChild b x ∧ T.base? x = some b := by
  obtain ⟨hderives, hleaf⟩ := (mem_leaves_iff hclosed).mp hx
  rcases Relation.ReflTransGen.cases_tail hderives with rfl | ⟨b, _, hstep⟩
  · rw [qualifies_of_classify hclosed] at hleaf
    simp at hleaf
  · exact ⟨b, mem_derived_iff.mp hstep.2⟩

theorem Represents.find?_root
    {T : TypeTable} {decls : List TypeDecl} (hT : T.Represents decls)
    {records : Bool} {root : TypeId} {h : ClosedHierarchy}
    (hclosed : T.classify records root = some h) :
    T.find? (T.name root) = some root := by
  apply hT.find?_name
  exact lt_size_of_qualifies (qualifies_of_classify hclosed)

theorem Represents.find?_leaf
    {T : TypeTable} {decls : List TypeDecl} (hT : T.Represents decls)
    {records : Bool} {root : TypeId} {h : ClosedHierarchy}
    (hclosed : T.classify records root = some h) :
    ∀ leaf ∈ h.leaves, T.find? (T.name leaf) = some leaf := by
  intro leaf hleaf
  obtain ⟨b, -, hbase⟩ := exists_base_of_mem_leaves hclosed hleaf
  exact hT.find?_name (lt_size_of_base? hbase)

/-- A concrete subtype declared inside the root is a leaf exactly when no other
type inside the root declares it. -/
theorem mem_leaves_iff_not_deeper
    {s : Snapshot} {P : Program} (hP : P.IsLoadedFrom s)
    {records : Bool} {root t : TypeId} {h : ClosedHierarchy}
    (hclosed : P.types.classify records root = some h)
    (hinside : P.types.IsInside root t)
    (hconcrete : (P.types.entry t).isAbstract = false)
    (hbase : P.types.base? t = some root) :
    t ∈ h.leaves ↔
      ¬ ∃ u, P.types.IsInside root u ∧ P.types.IsChild u t := by
  have hrep := hP.represents.types
  constructor
  · rintro hleaf ⟨u, hu, hchild⟩
    obtain ⟨b, hroot, hb⟩ := exists_base_of_mem_leaves hclosed hleaf
    rw [hbase, Option.some.injEq] at hb
    rw [hrep.isChild_unique hchild hroot, ← hb] at hu
    exact Nat.lt_irrefl root (hrep.lt_of_isInside hu)
  · intro hdirect
    rcases Relation.TransGen.tail'_iff.mp hinside with ⟨u, hu, hchild⟩
    rcases Relation.reflTransGen_iff_eq_or_transGen.mp hu with rfl | hu
    · have hstep : P.types.IsDerivation records u t :=
        ⟨qualifies_of_classify hclosed, mem_derived_iff.mpr ⟨hchild, hbase⟩⟩
      exact (mem_leaves_iff hclosed).mpr
        ⟨Relation.ReflTransGen.single hstep, not_qualifies_of_not_isAbstract hconcrete⟩
    · exact absurd ⟨u, hu, hchild⟩ hdirect

end TypeTable

/-- A hierarchy in which a helper type declares a second subtype of the root. -/
def helperSnapshot : Snapshot where
  types :=
    [⟨{ name := "Root", isAbstract := true, constructors := [⟨.privateAccess, []⟩] },
      [⟨{ name := "Leaf", isSealed := true, base := some "Root" }, []⟩,
       ⟨{ name := "Helper" },
        [⟨{ name := "Leaf", isSealed := true, base := some "Root" }, []⟩]⟩]⟩]
  files := []
  diagnostics := []

/-- Its types have the numbers 4 (`Root`), 5 (`Root.Leaf`), 6 (`Root.Helper`) and
7 (`Root.Helper.Leaf`). -/
def helperProgram : Program := .ofSnapshot helperSnapshot

theorem isLoadedFrom_helperProgram : helperProgram.IsLoadedFrom helperSnapshot :=
  Program.isLoadedFrom_ofSnapshot rfl

theorem classify_helperProgram :
    helperProgram.types.classify false 4 = some ⟨4, [5]⟩ := by
  decide

theorem isInside_helperProgram : helperProgram.types.IsInside 4 7 :=
  Relation.TransGen.tail (b := 6) (.single (by decide)) (by decide)

namespace TypeTable

theorem helperProgram_leaves :
    helperProgram.IsLoadedFrom helperSnapshot ∧
      helperProgram.types.classify false 4 = some ⟨4, [5]⟩ ∧
      (5 ∈ [5] ↔ ¬ ∃ u, helperProgram.types.IsInside 4 u ∧
        helperProgram.types.IsChild u 5) ∧
      (7 ∈ [5] ↔ ¬ ∃ u, helperProgram.types.IsInside 4 u ∧
        helperProgram.types.IsChild u 7) := by
  have hload := isLoadedFrom_helperProgram
  have hclosed := classify_helperProgram
  refine ⟨hload, hclosed, ?_, ?_⟩
  · exact mem_leaves_iff_not_deeper hload hclosed (.single (by decide))
      (by decide) (by decide)
  · exact mem_leaves_iff_not_deeper hload hclosed isInside_helperProgram
      (by decide) (by decide)

/-- A subtype that is declared inside the root need not be a leaf. -/
theorem not_forall_inside_mem_leaves :
    ¬ ∀ (s : Snapshot) (P : Program), P.IsLoadedFrom s →
      ∀ (records : Bool) (root : TypeId) (h : ClosedHierarchy),
        P.types.classify records root = some h →
        ∀ t, P.types.IsInside root t → (P.types.entry t).isAbstract = false →
          P.types.base? t = some root → t ∈ h.leaves := by
  intro hall
  have hleaf := hall helperSnapshot helperProgram isLoadedFrom_helperProgram
    false 4 _ classify_helperProgram 7 isInside_helperProgram (by decide) (by decide)
  exact absurd hleaf (by decide)

end TypeTable

end ClosedSwitch
