import ClosedSwitch.Proofs.Hierarchy.Judgment

/-!
# Hierarchies when records are allowed

Allowing records lets more types have subtypes, and whether a type qualifies is asked
before whether it is sealed.  So a sealed type that is also an abstract record is a
leaf of a hierarchy without records and a type in between once they are allowed.
Every other hierarchy keeps its leaves, in the same order.
-/

namespace ClosedSwitch

namespace TypeTable

theorem IsQualifying.allowRecords
    {T : TypeTable} {t : TypeId} (h : T.IsQualifying false t) : T.IsQualifying true t := by
  refine ⟨h.isAbstract, ?_⟩
  intro c hc
  rcases h.constructors c hc with hprivate | ⟨hfalse, -⟩
  · exact Or.inl hprivate
  · simp at hfalse

theorem qualifies_allowRecords
    {T : TypeTable} {t : TypeId} (h : T.qualifies false t = true) :
    T.qualifies true t = true :=
  qualifies_iff_isQualifying.mpr (qualifies_iff_isQualifying.mp h).allowRecords

theorem Derives.allowRecords
    {T : TypeTable} {t x : TypeId} (h : T.Derives false t x) : T.Derives true t x := by
  refine Relation.ReflTransGen.mono ?_ t x h
  intro a b hstep
  exact ⟨qualifies_allowRecords hstep.1, hstep.2⟩

/-- With records allowed, chains that have reached a leaf may go on from there.  They
have no other new steps. -/
theorem derives_allowRecords_iff
    {T : TypeTable} {root x : TypeId} {h : ClosedHierarchy}
    (hstrict : T.classify false root = some h) :
    T.Derives true root x ↔
      T.Derives false root x ∨ ∃ leaf ∈ h.leaves, T.Derives true leaf x := by
  constructor
  · intro hderives
    induction hderives with
    | refl => exact Or.inl Relation.ReflTransGen.refl
    | @tail y z _ hstep ih =>
        rcases ih with hy | ⟨leaf, hleaf, hy⟩
        · by_cases hqualifies : T.qualifies false y = true
          · exact Or.inl (hy.tail ⟨hqualifies, hstep.2⟩)
          · have hmem : y ∈ h.leaves :=
              (mem_leaves_iff hstrict).mpr ⟨hy, Bool.eq_false_of_not_eq_true hqualifies⟩
            exact Or.inr ⟨y, hmem, Relation.ReflTransGen.single hstep⟩
        · exact Or.inr ⟨leaf, hleaf, hy.tail hstep⟩
  · rintro (hderives | ⟨leaf, hleaf, hderives⟩)
    · exact hderives.allowRecords
    · exact ((mem_leaves_iff hstrict).mp hleaf).1.allowRecords.trans hderives

theorem derives_of_not_qualifies
    {T : TypeTable} {records : Bool} {t x : TypeId}
    (hqualifies : T.qualifies records t = false) (h : T.Derives records t x) : x = t := by
  rcases Relation.ReflTransGen.cases_head h with rfl | ⟨c, hstep, _⟩
  · rfl
  · simp [hstep.1] at hqualifies

/-- The hierarchy stays closed exactly when each leaf that now qualifies is the root
of a closed hierarchy itself. -/
theorem Represents.isClosed_allowRecords_iff
    {T : TypeTable} {decls : List TypeDecl} (hT : T.Represents decls)
    {root : TypeId} {h : ClosedHierarchy} (hstrict : T.classify false root = some h) :
    T.IsClosed true root ↔
      ∀ leaf ∈ h.leaves, T.IsQualifying true leaf → T.IsClosed true leaf := by
  constructor
  · intro hclosed leaf hleaf hqualifying
    rw [isClosed_iff_derives] at hclosed ⊢
    refine ⟨qualifies_iff_isQualifying.mpr hqualifying, ?_⟩
    intro x hx
    exact hclosed.2 x ((derives_allowRecords_iff hstrict).mpr (Or.inr ⟨leaf, hleaf, hx⟩))
  · intro hleaves
    obtain ⟨hroot, hends⟩ := isClosed_iff_derives.mp
      (hT.classify_isSome_iff.mp (Option.isSome_iff_exists.mpr ⟨h, hstrict⟩))
    refine isClosed_iff_derives.mpr ⟨qualifies_allowRecords hroot, ?_⟩
    have hstrictEnd : ∀ x, T.Derives false root x →
        T.qualifies true x = true ∨ (T.entry x).isSealed = true := by
      intro x hx
      exact (hends x hx).imp_left qualifies_allowRecords
    intro x hx
    rcases (derives_allowRecords_iff hstrict).mp hx with hx | ⟨leaf, hleaf, hx⟩
    · exact hstrictEnd x hx
    · by_cases hqualifies : T.qualifies true leaf = true
      · have hclosed := hleaves leaf hleaf (qualifies_iff_isQualifying.mp hqualifies)
        exact (isClosed_iff_derives.mp hclosed).2 x hx
      · rw [derives_of_not_qualifies (Bool.eq_false_of_not_eq_true hqualifies) hx]
        exact hstrictEnd leaf ((mem_leaves_iff hstrict).mp hleaf).1

theorem mem_leaves_allowRecords_iff
    {T : TypeTable} {root x : TypeId} {h lenient : ClosedHierarchy}
    (hstrict : T.classify false root = some h)
    (hlenient : T.classify true root = some lenient)
    (hleaves : ∀ leaf ∈ h.leaves, T.qualifies true leaf = false) :
    x ∈ lenient.leaves ↔ x ∈ h.leaves := by
  rw [mem_leaves_iff hlenient]
  constructor
  · rintro ⟨hderives, hleaf⟩
    rcases (derives_allowRecords_iff hstrict).mp hderives with hx | ⟨leaf, hmem, hx⟩
    · have hstrictLeaf : T.qualifies false x = false := by
        by_contra hqualifies
        rw [Bool.not_eq_false] at hqualifies
        simp [qualifies_allowRecords hqualifies] at hleaf
      exact (mem_leaves_iff hstrict).mpr ⟨hx, hstrictLeaf⟩
    · exact derives_of_not_qualifies (hleaves leaf hmem) hx ▸ hmem
  · intro hx
    exact ⟨((mem_leaves_iff hstrict).mp hx).1.allowRecords, hleaves x hx⟩

/-- A hierarchy is the same with records allowed exactly when no leaf qualifies then,
and it is closed at all exactly when every leaf that qualifies is the root of a closed
hierarchy. -/
theorem classify_allowRecords_iff
    {s : Snapshot} {P : Program} (hP : P.IsLoadedFrom s)
    {root : TypeId} {h : ClosedHierarchy}
    (hstrict : P.types.classify false root = some h) :
    (P.types.classify true root = some h ↔
      ∀ leaf ∈ h.leaves, ¬ P.types.IsQualifying true leaf) ∧
    ((P.types.classify true root).isSome = true ↔
      ∀ leaf ∈ h.leaves, P.types.IsQualifying true leaf →
        (P.types.classify true leaf).isSome = true) := by
  have hT := hP.represents.types
  have hsome : (P.types.classify true root).isSome = true ↔
      ∀ leaf ∈ h.leaves, P.types.IsQualifying true leaf →
        (P.types.classify true leaf).isSome = true := by
    rw [hT.classify_isSome_iff, hT.isClosed_allowRecords_iff hstrict]
    exact forall₂_congr fun leaf _ => imp_congr_right fun _ => hT.classify_isSome_iff.symm
  refine ⟨?_, hsome⟩
  constructor
  · intro hlenient leaf hleaf
    rw [← qualifies_eq_false_iff]
    exact ((mem_leaves_iff hlenient).mp hleaf).2
  · intro hleaves
    obtain ⟨lenient, hlenient⟩ := Option.isSome_iff_exists.mp
      (hsome.mpr fun leaf hleaf hqualifying => absurd hqualifying (hleaves leaf hleaf))
    have hmem : ∀ x, x ∈ lenient.leaves ↔ x ∈ h.leaves := by
      intro x
      exact mem_leaves_allowRecords_iff hstrict hlenient fun leaf hleaf =>
        qualifies_eq_false_iff.mpr (hleaves leaf hleaf)
    have hleavesEq : lenient.leaves = h.leaves :=
      List.Pairwise.eq_of_mem_iff (hT.leaves_pairwise_lt hlenient)
        (hT.leaves_pairwise_lt hstrict) hmem
    have hrootEq : lenient.root = h.root :=
      (root_of_classify hlenient).trans (root_of_classify hstrict).symm
    rw [hlenient, Option.some.injEq, ClosedHierarchy.mk.injEq]
    exact ⟨hrootEq, hleavesEq⟩

end TypeTable

/-- A sealed leaf that is also an abstract record with a copy constructor, and a
subtype of it that is open. -/
def sealedRecordSnapshot : Snapshot where
  types :=
    [⟨{ name := "Root", isAbstract := true, constructors := [⟨.privateAccess, []⟩] },
      [⟨{ name := "Leaf", isAbstract := true, isSealed := true, base := some "Root",
          members := [cloneMember],
          constructors := [⟨.protectedAccess, [some "Root.Leaf"]⟩] },
        [⟨{ name := "Open", base := some "Root.Leaf" }, []⟩]⟩]⟩]

/-- Its types have the numbers 4 (`Root`), 5 (`Root.Leaf`) and 6
(`Root.Leaf.Open`). -/
def sealedRecordProgram : Program := .ofSnapshot sealedRecordSnapshot

theorem isLoadedFrom_sealedRecordProgram :
    sealedRecordProgram.IsLoadedFrom sealedRecordSnapshot :=
  Program.isLoadedFrom_ofSnapshot rfl

theorem classify_sealedRecordProgram :
    sealedRecordProgram.types.classify false 4 = some ⟨4, [5]⟩ := by
  decide

namespace TypeTable

theorem sealedRecordProgram_opens :
    sealedRecordProgram.types.classify false 4 = some ⟨4, [5]⟩ ∧
      sealedRecordProgram.types.IsQualifying true 5 ∧
      sealedRecordProgram.types.classify true 4 ≠ some ⟨4, [5]⟩ ∧
      (sealedRecordProgram.types.classify true 4).isSome = false := by
  have hqualifying : sealedRecordProgram.types.IsQualifying true 5 :=
    qualifies_iff_isQualifying.mp (by decide)
  obtain ⟨hsame, hsome⟩ := classify_allowRecords_iff isLoadedFrom_sealedRecordProgram
    classify_sealedRecordProgram
  refine ⟨classify_sealedRecordProgram, hqualifying, ?_, ?_⟩
  · intro hlenient
    exact hsame.mp hlenient 5 List.mem_cons_self hqualifying
  · rw [← Bool.not_eq_true]
    intro hlenient
    exact absurd (hsome.mp hlenient 5 List.mem_cons_self hqualifying) (by decide)

/-- A closed hierarchy need not keep its leaves when records are allowed. -/
theorem not_forall_classify_allowRecords :
    ¬ ∀ (s : Snapshot) (P : Program), P.IsLoadedFrom s →
      ∀ (root : TypeId) (h : ClosedHierarchy),
        P.types.classify false root = some h → P.types.classify true root = some h := by
  intro hall
  have hlenient := hall sealedRecordSnapshot sealedRecordProgram
    isLoadedFrom_sealedRecordProgram 4 ⟨4, [5]⟩ classify_sealedRecordProgram
  exact absurd hlenient (by decide)

end TypeTable

end ClosedSwitch
