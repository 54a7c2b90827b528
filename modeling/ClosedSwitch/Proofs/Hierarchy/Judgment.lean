import ClosedSwitch.Proofs.Hierarchy.Leaves
import ClosedSwitch.Proofs.TypeTable.Declarations
import Mathlib.Data.List.Chain

/-!
# Which hierarchies are closed

A type is the root of a closed hierarchy when it qualifies and no chain of
derivations from it ends at a type that neither qualifies nor is sealed.  The
definition speaks about single chains and keeps no list, while the traversal of
`classify` collects leaves and gives up at the first defect.  The two agree on every
table of a loaded snapshot: nested types have greater numbers than the type around
them, so the fuel of the traversal covers every chain, and the trees of nested types
stand one after another, so the leaves come in the order of the declarations.
-/

namespace ClosedSwitch

namespace TypeTable

/-! ## The judgment -/

/-- The type is abstract, and each constructor is private or, where records are
allowed and the type is one, takes a single value of the type itself and is
protected. -/
structure IsQualifying (T : TypeTable) (records : Bool) (t : TypeId) : Prop where
  isAbstract : (T.entry t).isAbstract = true
  constructors : ∀ c ∈ (T.entry t).constructors,
    c.accessibility = .privateAccess ∨
      (records = true ∧ cloneMember ∈ (T.entry t).members ∧
        c.accessibility = .protectedAccess ∧ c.parameters = [some t])

/-- One step down: from a type that qualifies to a type that is declared directly in
it and derives from it. -/
structure StepsDown (T : TypeTable) (records : Bool) (t c : TypeId) : Prop where
  qualifying : T.IsQualifying records t
  nested : c ∈ (T.entry t).nested
  base : T.base? c = some t

/-- A chain of derivations that starts at `root`; it may consist of `root` alone. -/
structure DerivationChain (T : TypeTable) (records : Bool) (root : TypeId) where
  later : List TypeId
  isChain : List.IsChain (T.StepsDown records) (root :: later)

/-- The last type of a chain. -/
def DerivationChain.endPoint
    {T : TypeTable} {records : Bool} {root : TypeId}
    (chain : T.DerivationChain records root) : TypeId :=
  (root :: chain.later).getLast (List.cons_ne_nil root chain.later)

/-- The root qualifies, and so does the end point of every chain unless it is
sealed. -/
structure IsClosed (T : TypeTable) (records : Bool) (root : TypeId) : Prop where
  qualifying : T.IsQualifying records root
  endPoints : ∀ chain : T.DerivationChain records root,
    T.IsQualifying records chain.endPoint ∨
      (T.entry chain.endPoint).isSealed = true

/-- The list holds the end points that do not qualify.  All of them are sealed, each
is listed once, and they come in the depth-first order of the declarations. -/
structure IsLeafList
    (T : TypeTable) (s : Snapshot) (records : Bool) (root : TypeId)
    (leaves : List TypeId) : Prop where
  mem_iff : ∀ x, x ∈ leaves ↔
    (∃ chain : T.DerivationChain records root, chain.endPoint = x) ∧
      ¬ T.IsQualifying records x
  isSealed : ∀ x ∈ leaves, (T.entry x).isSealed = true
  nodup : leaves.Nodup
  depthFirst : (leaves.map T.name).Sublist (s.declaredTypes.map (·.shape.name))

/-! ## The judgment in terms of the traversal -/

theorem qualifies_iff_isQualifying
    {T : TypeTable} {records : Bool} {t : TypeId} :
    T.qualifies records t = true ↔ T.IsQualifying records t := by
  simp only [qualifies, isRecord, hasMember, Constructor.isCopyOf, Bool.and_eq_true,
    List.all_eq_true, Bool.or_eq_true, decide_eq_true_eq, List.contains_iff_mem,
    and_assoc]
  constructor
  · rintro ⟨habstract, hconstructors⟩
    exact ⟨habstract, hconstructors⟩
  · rintro ⟨habstract, hconstructors⟩
    exact ⟨habstract, hconstructors⟩

theorem qualifies_eq_false_iff
    {T : TypeTable} {records : Bool} {t : TypeId} :
    T.qualifies records t = false ↔ ¬ T.IsQualifying records t := by
  rw [← qualifies_iff_isQualifying, Bool.not_eq_true]

theorem isDerivation_iff_stepsDown
    {T : TypeTable} {records : Bool} {t c : TypeId} :
    T.IsDerivation records t c ↔ T.StepsDown records t c := by
  rw [IsDerivation, qualifies_iff_isQualifying, mem_derived_iff]
  constructor
  · rintro ⟨hqualifying, hnested, hbase⟩
    exact ⟨hqualifying, hnested, hbase⟩
  · rintro ⟨hqualifying, hnested, hbase⟩
    exact ⟨hqualifying, hnested, hbase⟩

theorem exists_endPoint_iff_derives
    {T : TypeTable} {records : Bool} {root x : TypeId} :
    (∃ chain : T.DerivationChain records root, chain.endPoint = x) ↔
      T.Derives records root x := by
  have hsteps : T.IsDerivation records = T.StepsDown records := by
    funext t c
    exact propext isDerivation_iff_stepsDown
  rw [Derives, hsteps]
  constructor
  · rintro ⟨⟨later, hchain⟩, hend⟩
    exact List.relationReflTransGen_of_exists_isChain_cons later hchain hend
  · intro hderives
    obtain ⟨later, hchain, hend⟩ :=
      List.exists_isChain_cons_of_relationReflTransGen hderives
    exact ⟨⟨later, hchain⟩, hend⟩

theorem isClosed_iff_derives
    {T : TypeTable} {records : Bool} {root : TypeId} :
    T.IsClosed records root ↔
      T.qualifies records root = true ∧
        ∀ x, T.Derives records root x →
          T.qualifies records x = true ∨ (T.entry x).isSealed = true := by
  constructor
  · rintro ⟨hroot, hends⟩
    refine ⟨qualifies_iff_isQualifying.mpr hroot, ?_⟩
    intro x hderives
    obtain ⟨chain, rfl⟩ := exists_endPoint_iff_derives.mpr hderives
    rw [qualifies_iff_isQualifying]
    exact hends chain
  · rintro ⟨hroot, hends⟩
    refine ⟨qualifies_iff_isQualifying.mp hroot, ?_⟩
    intro chain
    rw [← qualifies_iff_isQualifying]
    exact hends chain.endPoint (exists_endPoint_iff_derives.mp ⟨chain, rfl⟩)

/-! ## The traversal finds every defect, and gives up at no other -/

theorem qualifies_or_isSealed_of_derives
    {T : TypeTable} {records : Bool} {fuel : Nat} {t x : TypeId} {leaves : List TypeId}
    (hqualifies : T.qualifies records t = true)
    (h : T.leavesBelow records fuel t = some leaves) (hderives : T.Derives records t x) :
    T.qualifies records x = true ∨ (T.entry x).isSealed = true := by
  induction fuel generalizing t leaves with
  | zero => simp [leavesBelow] at h
  | succ fuel ih =>
      rcases Relation.ReflTransGen.cases_head hderives with rfl | ⟨c, hstep, hrest⟩
      · exact Or.inl hqualifies
      · obtain ⟨part, hpart, -⟩ := contribution_of_mem_derived h hstep.2
        rw [contribution] at hpart
        split at hpart
        next hc => exact ih hc hpart hrest
        next hc =>
          split at hpart
          next hsealed =>
            rcases Relation.ReflTransGen.cases_head hrest with rfl | ⟨u, hnext, _⟩
            · exact Or.inr hsealed
            · exact absurd hnext.1 hc
          · simp at hpart

/-- Every step of a chain goes to a greater number, so fuel for the numbers that are
left lasts until the chain ends. -/
theorem Represents.exists_leavesBelow
    {T : TypeTable} {decls : List TypeDecl} (hT : T.Represents decls)
    {records : Bool} {fuel t : Nat} (ht : t < T.size) (hfuel : T.size ≤ t + fuel)
    (hqualifies : T.qualifies records t = true)
    (hends : ∀ x, T.Derives records t x →
      T.qualifies records x = true ∨ (T.entry x).isSealed = true) :
    ∃ leaves, T.leavesBelow records fuel t = some leaves := by
  induction fuel generalizing t with
  | zero => omega
  | succ fuel ih =>
      have hparts : ∀ c ∈ T.derived t,
          ∃ part, T.contribution records fuel c = some part := by
        intro c hc
        have hstep : T.IsDerivation records t c := ⟨hqualifies, hc⟩
        have hchild := (mem_derived_iff.mp hc).1
        have hbase := (mem_derived_iff.mp hc).2
        rw [contribution]
        split
        next hc =>
          have hlt : t < c := hT.lt_of_isChild hchild
          apply ih (lt_size_of_base? hbase) (by omega) hc
          intro x hx
          exact hends x (Relation.ReflTransGen.head hstep hx)
        next hc =>
          have hsealed : (T.entry c).isSealed = true :=
            (hends c (Relation.ReflTransGen.single hstep)).resolve_left hc
          exact ⟨[c], if_pos hsealed⟩
      obtain ⟨parts, hmapM⟩ := exists_mapM_eq_some hparts
      refine ⟨parts.flatten, ?_⟩
      rw [leavesBelow, Option.map_eq_some_iff]
      exact ⟨parts, hmapM, rfl⟩

theorem Represents.classify_isSome_iff
    {T : TypeTable} {decls : List TypeDecl} (hT : T.Represents decls)
    {records : Bool} {root : TypeId} :
    (T.classify records root).isSome = true ↔ T.IsClosed records root := by
  rw [Option.isSome_iff_exists, isClosed_iff_derives]
  constructor
  · rintro ⟨h, hclosed⟩
    obtain ⟨hqualifies, -, hleaves⟩ := classify_eq_some_iff.mp hclosed
    exact ⟨hqualifies, fun x => qualifies_or_isSealed_of_derives hqualifies hleaves⟩
  · rintro ⟨hqualifies, hends⟩
    obtain ⟨leaves, hleaves⟩ := hT.exists_leavesBelow (lt_size_of_qualifies hqualifies)
      (Nat.le_add_left _ _) hqualifies hends
    exact ⟨⟨root, leaves⟩, classify_eq_some_iff.mpr ⟨hqualifies, rfl, hleaves⟩⟩

/-! ## The order of the leaves -/

/-- The parts that neighbouring declarations contribute lie in the numbers of these
declarations, one part after another. -/
theorem HostsAll.flatten_sublist
    {T : TypeTable} {records : Bool} {fuel : Nat}
    (htree : ∀ outer t tree leaves, T.Hosts outer t tree →
      T.leavesBelow records fuel t = some leaves →
        (t :: leaves).Sublist (List.range' t tree.count))
    {enclosing : Option String} {id : TypeId} {ds : List TypeDecl}
    (h : T.HostsAll enclosing id ds) {keep : TypeId → Bool} {parts : List (List TypeId)}
    (hparts : List.Forall₂ (fun c part => T.contribution records fuel c = some part)
      ((TypeDecl.ids id ds).filter keep) parts) :
    parts.flatten.Sublist (List.range' id (TypeDecl.countAll ds)) := by
  induction ds generalizing id parts with
  | nil =>
      rw [List.forall₂_nil_left_iff.mp hparts]
      exact List.nil_sublist _
  | cons d rest ih =>
      obtain ⟨hd, hrest⟩ := hostsAll_cons.mp h
      rw [TypeDecl.countAll, ← List.range'_append_1]
      rw [TypeDecl.ids, List.filter_cons] at hparts
      split at hparts
      next hkeep =>
        obtain ⟨part, later, hpart, hlater, rfl⟩ := List.forall₂_cons_left_iff.mp hparts
        rw [List.flatten_cons]
        refine List.Sublist.append ?_ (ih hrest hlater)
        rw [contribution] at hpart
        split at hpart
        · exact (List.sublist_cons_self id part).trans (htree _ _ _ _ hd hpart)
        · split at hpart
          · simp only [Option.some.injEq] at hpart
            rcases d with ⟨shape, nested⟩
            rw [← hpart, TypeDecl.count, Nat.add_comm, List.range'_succ]
            exact (List.nil_sublist _).cons_cons id
          · simp at hpart
      next hskip => exact (ih hrest hparts).trans (List.sublist_append_right _ _)

/-- A type and the leaves below it have increasing numbers, all within the tree of
the type. -/
theorem Hosts.leavesBelow_sublist
    {T : TypeTable} {records : Bool} {fuel : Nat} {outer : Option String} {t : TypeId}
    {tree : TypeDecl} {leaves : List TypeId} (h : T.Hosts outer t tree)
    (hleaves : T.leavesBelow records fuel t = some leaves) :
    (t :: leaves).Sublist (List.range' t tree.count) := by
  induction fuel generalizing outer t tree leaves with
  | zero => simp [leavesBelow] at hleaves
  | succ fuel ih =>
      obtain ⟨parts, rfl, hparts⟩ := exists_contributions_of_leavesBelow hleaves
      rcases tree with ⟨shape, nested⟩
      rw [derived, h.nested_eq] at hparts
      rw [TypeDecl.count, Nat.add_comm, List.range'_succ]
      refine List.Sublist.cons_cons t ?_
      exact HostsAll.flatten_sublist (fun _ _ _ _ => ih) h.nested hparts

theorem Represents.builtin_le_of_qualifies
    {T : TypeTable} {decls : List TypeDecl} (hT : T.Represents decls)
    {records : Bool} {t : TypeId} (h : T.qualifies records t = true) :
    builtinTypes.length ≤ t := by
  by_contra hlt
  rw [Nat.not_le] at hlt
  have hconcrete : ∀ e ∈ builtinTypes, e.isAbstract = false := by decide
  have hbuiltin := List.mem_of_getElem? (hT.getElem?_builtinTypes hlt)
  rw [not_qualifies_of_not_isAbstract (hconcrete _ hbuiltin)] at h
  exact absurd h Bool.false_ne_true

/-- The root and the leaves of a closed hierarchy have increasing numbers among those
of the declared types. -/
theorem Represents.leaves_sublist
    {T : TypeTable} {decls : List TypeDecl} (hT : T.Represents decls)
    {records : Bool} {root : TypeId} {h : ClosedHierarchy}
    (hclosed : T.classify records root = some h) :
    (root :: h.leaves).Sublist
      (List.range' builtinTypes.length (TypeDecl.countAll decls)) := by
  obtain ⟨hqualifies, -, hleaves⟩ := classify_eq_some_iff.mp hclosed
  have hle : builtinTypes.length ≤ root := hT.builtin_le_of_qualifies hqualifies
  obtain ⟨outer, tree, htree, hend⟩ := hT.exists_hosts hle (lt_size_of_qualifies hqualifies)
  rw [hT.size_eq] at hend
  obtain ⟨before, rfl⟩ := Nat.exists_eq_add_of_le hle
  obtain ⟨after, hafter⟩ := Nat.exists_eq_add_of_le hend
  have hcount : TypeDecl.countAll decls = before + (tree.count + after) := by omega
  rw [hcount, ← List.range'_append_1, ← List.range'_append_1]
  exact ((htree.leavesBelow_sublist hleaves).trans
    (List.sublist_append_left _ _)).trans (List.sublist_append_right _ _)

theorem Represents.leaves_pairwise_lt
    {T : TypeTable} {decls : List TypeDecl} (hT : T.Represents decls)
    {records : Bool} {root : TypeId} {h : ClosedHierarchy}
    (hclosed : T.classify records root = some h) :
    h.leaves.Pairwise (· < ·) :=
  List.Pairwise.sublist ((List.sublist_cons_self root h.leaves).trans
    (hT.leaves_sublist hclosed)) (List.pairwise_lt_range' 1)

theorem Represents.map_name_declared
    {T : TypeTable} {s : Snapshot} (hT : T.Represents s.types) :
    (List.range' builtinTypes.length (TypeDecl.countAll s.types)).map T.name =
      s.declaredTypes.map (·.shape.name) := by
  have hnames := hT.names_eq
  rw [← map_name_range, hT.size_eq, List.range_eq_range', ← List.range'_append_1,
    List.map_append, Snapshot.typeNames, Nat.zero_add] at hnames
  exact (List.append_inj hnames (by simp)).2

theorem Represents.isLeafList_leaves
    {T : TypeTable} {s : Snapshot} (hT : T.Represents s.types)
    {records : Bool} {root : TypeId} {h : ClosedHierarchy}
    (hclosed : T.classify records root = some h) :
    T.IsLeafList s records root h.leaves := by
  obtain ⟨hqualifies, -, hleaves⟩ := classify_eq_some_iff.mp hclosed
  refine ⟨?_, ?_, ?_, ?_⟩
  · intro x
    rw [mem_leaves_iff hclosed, exists_endPoint_iff_derives, qualifies_eq_false_iff]
  · intro x hx
    obtain ⟨hderives, hleaf⟩ := (mem_leaves_iff hclosed).mp hx
    have hend := qualifies_or_isSealed_of_derives hqualifies hleaves hderives
    exact hend.resolve_left (Bool.not_eq_true _ ▸ hleaf)
  · exact (hT.leaves_pairwise_lt hclosed).imp Nat.ne_of_lt
  · rw [← hT.map_name_declared]
    exact ((List.sublist_cons_self root h.leaves).trans (hT.leaves_sublist hclosed)).map _

/-- A type classifies exactly when it is the root of a closed hierarchy, and then the
leaves are the sealed ends of its derivation chains. -/
theorem classify_agrees_with_judgment
    {s : Snapshot} {P : Program} (hP : P.IsLoadedFrom s) (records : Bool) (root : TypeId) :
    ((P.types.classify records root).isSome = true ↔ P.types.IsClosed records root) ∧
    (∀ h, P.types.classify records root = some h →
      h.root = root ∧ P.types.IsLeafList s records root h.leaves) ∧
    (P.types.classify records root = none ↔
      ¬ P.types.IsQualifying records root ∨
        ∃ chain : P.types.DerivationChain records root,
          ¬ P.types.IsQualifying records chain.endPoint ∧
            (P.types.entry chain.endPoint).isSealed = false) := by
  have hT := hP.represents.types
  have hsome : (P.types.classify records root).isSome = true ↔
      P.types.IsClosed records root := hT.classify_isSome_iff
  refine ⟨hsome, ?_, ?_⟩
  · intro h hclosed
    exact ⟨root_of_classify hclosed, hT.isLeafList_leaves hclosed⟩
  · rw [← Option.not_isSome_iff_eq_none, hsome]
    constructor
    · intro hopen
      by_contra hnone
      push Not at hnone
      refine hopen ⟨hnone.1, ?_⟩
      intro chain
      by_cases hend : P.types.IsQualifying records chain.endPoint
      · exact Or.inl hend
      · exact Or.inr (Bool.eq_true_of_not_eq_false (hnone.2 chain hend))
    · rintro (hroot | ⟨chain, hend, hopen⟩) hclosed
      · exact hroot hclosed.qualifying
      · rcases hclosed.endPoints chain with hqualifying | hsealed
        · exact hend hqualifying
        · simp [hopen] at hsealed

end TypeTable

/-- An abstract record with a copy constructor, an intermediate type in front of its
last subtype, and a nested type that derives from something else. -/
def recordSnapshot : Snapshot where
  types :=
    [⟨{ name := "Root", isAbstract := true, members := [cloneMember],
        constructors := [⟨.privateAccess, []⟩, ⟨.protectedAccess, [some "Root"]⟩] },
      [⟨{ name := "Mid", isAbstract := true, base := some "Root",
          constructors := [⟨.privateAccess, []⟩] },
        [⟨{ name := "A", isSealed := true, base := some "Root.Mid" }, []⟩,
         ⟨{ name := "B", isSealed := true, base := some "Root.Mid" }, []⟩]⟩,
       ⟨{ name := "Helper" }, []⟩,
       ⟨{ name := "C", isSealed := true, base := some "Root" }, []⟩]⟩]

/-- Its types have the numbers 4 (`Root`), 5 (`Root.Mid`), 6 (`Root.Mid.A`),
7 (`Root.Mid.B`), 8 (`Root.Helper`) and 9 (`Root.C`). -/
def recordProgram : Program := .ofSnapshot recordSnapshot

theorem isLoadedFrom_recordProgram : recordProgram.IsLoadedFrom recordSnapshot :=
  Program.isLoadedFrom_ofSnapshot rfl

namespace TypeTable

theorem recordProgram_judgment :
    recordProgram.types.classify true 4 = some ⟨4, [6, 7, 9]⟩ ∧
      recordProgram.types.IsClosed true 4 ∧
      recordProgram.types.IsLeafList recordSnapshot true 4 [6, 7, 9] ∧
      ¬ recordProgram.types.IsClosed false 4 := by
  have hclosed : recordProgram.types.classify true 4 = some ⟨4, [6, 7, 9]⟩ := by decide
  obtain ⟨hlenient, hleaves, -⟩ :=
    classify_agrees_with_judgment isLoadedFrom_recordProgram true 4
  obtain ⟨hstrict, -, -⟩ :=
    classify_agrees_with_judgment isLoadedFrom_recordProgram false 4
  refine ⟨hclosed, hlenient.mp (by decide), (hleaves _ hclosed).2, ?_⟩
  intro hrecord
  exact absurd (hstrict.mpr hrecord) (by decide)

end TypeTable

end ClosedSwitch
