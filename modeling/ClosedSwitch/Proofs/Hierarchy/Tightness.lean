import ClosedSwitch.Proofs.Hierarchy.Judgment
import ClosedSwitch.Proofs.TypeTable.Edits

/-!
# Nothing in a closed hierarchy can be dropped

One leaf that is no longer sealed, or one constructor more that is open to everyone, and
the hierarchy is not closed any more.  The edited type is still reached from the root,
since every type before it on the way keeps its entry, and it has become the end of a chain
that nothing closes off.
-/

namespace ClosedSwitch

namespace TypeTable

/-! ## One defect opens the hierarchy -/

theorem Represents.le_of_derives
    {T : TypeTable} {decls : List TypeDecl} (hT : T.Represents decls)
    {records : Bool} {t x : TypeId} (h : T.Derives records t x) : t ≤ x := by
  induction h with
  | refl => exact Nat.le_refl t
  | tail _ hstep ih =>
      have hlt := hT.lt_of_isChild (mem_derived_iff.mp hstep.2).1
      exact Nat.le_trans ih (Nat.le_of_lt hlt)

theorem classify_eq_none_of_not_qualifies
    {T : TypeTable} {records : Bool} {root : TypeId}
    (h : T.qualifies records root = false) : T.classify records root = none := by
  rw [classify, h]
  rfl

/-- A type that is reached and neither qualifies nor is sealed opens the hierarchy. -/
theorem classify_eq_none_of_derives
    {T : TypeTable} {records : Bool} {root x : TypeId} (hderives : T.Derives records root x)
    (hqualifies : T.qualifies records x = false) (hsealed : (T.entry x).isSealed = false) :
    T.classify records root = none := by
  rw [Option.eq_none_iff_forall_ne_some]
  intro h hclosed
  obtain ⟨hroot, -, hleaves⟩ := classify_eq_some_iff.mp hclosed
  rcases qualifies_or_isSealed_of_derives hroot hleaves hderives with hx | hx
  · exact absurd (hqualifies.symm.trans hx) Bool.false_ne_true
  · exact absurd (hsealed.symm.trans hx) Bool.false_ne_true

theorem qualifies_eq_of_entry_eq
    {T T' : TypeTable} {records : Bool} {t : TypeId} (h : T'.entry t = T.entry t) :
    T'.qualifies records t = T.qualifies records t := by
  simp only [qualifies, isRecord, hasMember, h]

section Edit

variable {s : Snapshot} {e : TypeEdit} {T T' : TypeTable} {records : Bool} {root x : TypeId}
  (hT : T.Represents s.types) (hT' : T'.Represents (s.editType (T.name x) e).types)

include hT hT'

/-- The edited type is reached as before.  Numbers grow along a chain, so it is none of the
types before its end. -/
theorem derives_editType (hx : x < T.size) (h : T.Derives records root x) :
    T'.Derives records root x := by
  induction h using Relation.ReflTransGen.head_induction_on with
  | refl => exact .refl
  | @head t c hstep hrest ih =>
      obtain ⟨hqualifies, hderived⟩ := hstep
      have hlt : t < c := hT.lt_of_isChild (mem_derived_iff.mp hderived).1
      have hne : t ≠ x := Nat.ne_of_lt (Nat.lt_of_lt_of_le hlt (hT.le_of_derives hrest))
      have hname : T.name t ≠ T.name x := fun hname =>
        hne (hT.eq_of_name_eq (lt_size_of_qualifies hqualifies) hx hname)
      have hkept := entry_editType_of_ne hT hT' hname
      refine .head ⟨?_, ?_⟩ ih
      · rw [qualifies_eq_of_entry_eq hkept]
        exact hqualifies
      · rw [derived_editType hT hT']
        exact hderived

end Edit

end TypeTable

/-! ## What the edits do to a declaration -/

theorem TypeShape.resolve_clearSealed
    {require : String → Except LoadError TypeId} {shape : TypeShape String}
    {r : TypeShape TypeId} (h : shape.resolve require = .ok r) :
    (TypeEdit.clearSealed.apply shape).resolve require = .ok { r with isSealed := false } := by
  simp only [resolve, bind_eq_ok_iff] at h ⊢
  obtain ⟨base, hbase, interfaces, hinterfaces, constructors, hconstructors, properties,
    hproperties, deconstructors, hdeconstructors, hr⟩ := h
  rw [← Except.ok.inj hr]
  exact ⟨base, hbase, interfaces, hinterfaces, constructors, hconstructors, properties,
    hproperties, deconstructors, hdeconstructors, rfl⟩

theorem TypeShape.isSealed_of_resolve
    {require : String → Except LoadError TypeId} {shape : TypeShape String}
    {r : TypeShape TypeId} (h : shape.resolve require = .ok r) :
    r.isSealed = shape.isSealed := by
  simp only [resolve, bind_eq_ok_iff] at h
  obtain ⟨_, _, _, _, _, _, _, _, _, _, hr⟩ := h
  rw [← Except.ok.inj hr]

/-- Constructors keep their accessibility when their parameters are resolved. -/
theorem TypeShape.exists_constructor_of_resolve
    {require : String → Except LoadError TypeId} {shape : TypeShape String}
    {r : TypeShape TypeId} (h : shape.resolve require = .ok r)
    {c : Constructor String} (hc : c ∈ shape.constructors) :
    ∃ c' ∈ r.constructors, c'.accessibility = c.accessibility := by
  simp only [resolve, bind_eq_ok_iff] at h
  obtain ⟨_, _, _, _, constructors, hconstructors, _, _, _, _, hr⟩ := h
  rw [← Except.ok.inj hr]
  obtain ⟨k, hk⟩ := List.mem_iff_getElem?.mp hc
  obtain ⟨c', hc', hresolve⟩ :=
    exists_right_of_forall₂ (forall₂_of_mapM_eq_ok hconstructors) hk
  obtain ⟨parameters, -, hparameters⟩ := bind_eq_ok_iff.mp hresolve
  refine ⟨c', List.mem_of_getElem? hc', ?_⟩
  rw [← Except.ok.inj hparameters]

theorem TypeShape.mem_references_iff {shape : TypeShape String} {name : String} :
    name ∈ shape.references ↔
      shape.base = some name ∨ name ∈ shape.interfaces ∨
        (∃ c ∈ shape.constructors, some name ∈ c.parameters) ∨
        (∃ p ∈ shape.properties, p.type = some name) ∨
        ∃ ps ∈ shape.deconstructors, some name ∈ ps := by
  simp [references]

namespace TypeEdit

theorem mem_constructors_addConstructor
    {index : Nat} {c : Constructor String} {shape : TypeShape String}
    {c' : Constructor String} :
    c' ∈ ((addConstructor index c).apply shape).constructors ↔
      c' = c ∨ c' ∈ shape.constructors := by
  have hperm : ((addConstructor index c).apply shape).constructors.Perm
      (c :: (shape.constructors.take index ++ shape.constructors.drop index)) :=
    List.perm_middle
  rw [hperm.mem_iff, List.take_append_drop, List.mem_cons]

/-- The only names that are added are those of the parameters. -/
theorem mem_references_addConstructor
    {index : Nat} {c : Constructor String} {shape : TypeShape String} {name : String}
    (h : name ∈ ((addConstructor index c).apply shape).references) :
    name ∈ shape.references ∨ some name ∈ c.parameters := by
  rw [TypeShape.mem_references_iff] at h ⊢
  rcases h with hbase | hinterface | ⟨c', hc', hname⟩ | hproperty | hdeconstructor
  · exact .inl (.inl hbase)
  · exact .inl (.inr (.inl hinterface))
  · rcases mem_constructors_addConstructor.mp hc' with rfl | hc'
    · exact .inr hname
    · exact .inl (.inr (.inr (.inl ⟨c', hc', hname⟩)))
  · exact .inl (.inr (.inr (.inr (.inl hproperty))))
  · exact .inl (.inr (.inr (.inr (.inr hdeconstructor))))

end TypeEdit

namespace TypeTable

section Edit

variable {s : Snapshot} {T T' : TypeTable} {records : Bool} {x : TypeId}
  (hT : T.Represents s.types) (hx : builtinTypes.length ≤ x ∧ x < T.size)

include hT hx

/-- A leaf that is no longer sealed does not come to qualify instead. -/
theorem open_of_clearSealed
    (hT' : T'.Represents (s.editType (T.name x) .clearSealed).types)
    (hleaf : T.qualifies records x = false) :
    T'.qualifies records x = false ∧ (T'.entry x).isSealed = false := by
  obtain ⟨shape, hshape, hshape'⟩ := exists_shape_editType hT hT' hx rfl
  have hentry : { (T.entry x).toTypeShape with isSealed := false } =
      (T'.entry x).toTypeShape :=
    Except.ok.inj ((TypeShape.resolve_clearSealed hshape).symm.trans hshape')
  have habstract := congrArg TypeShape.isAbstract hentry
  have hconstructors := congrArg TypeShape.constructors hentry
  have hmembers := congrArg TypeShape.members hentry
  refine ⟨?_, (congrArg TypeShape.isSealed hentry).symm⟩
  rw [← hleaf]
  simp only [qualifies, isRecord, hasMember, ← habstract, ← hconstructors, ← hmembers]

/-- A type with a public constructor does not qualify, and is as sealed as before. -/
theorem open_of_addConstructor
    (records : Bool) {index : Nat} {c : Constructor String}
    (hpublic : c.accessibility = .publicAccess)
    (hT' : T'.Represents (s.editType (T.name x) (.addConstructor index c)).types) :
    T'.qualifies records x = false ∧ (T'.entry x).isSealed = (T.entry x).isSealed := by
  obtain ⟨shape, hshape, hshape'⟩ := exists_shape_editType hT hT' hx rfl
  obtain ⟨c', hc', haccess⟩ := TypeShape.exists_constructor_of_resolve hshape'
    (TypeEdit.mem_constructors_addConstructor.mpr (.inl rfl))
  rw [hpublic] at haccess
  constructor
  · rw [qualifies_eq_false_iff]
    intro hqualifying
    rcases hqualifying.constructors c' hc' with hprivate | ⟨-, -, hprotected, -⟩
    · simp [haccess] at hprivate
    · simp [haccess] at hprotected
  · rw [TypeShape.isSealed_of_resolve hshape, TypeShape.isSealed_of_resolve hshape']
    rfl

end Edit

theorem Represents.declared_of_derives
    {T : TypeTable} {decls : List TypeDecl} (hT : T.Represents decls)
    {records : Bool} {root x : TypeId} (hroot : T.qualifies records root = true)
    (h : T.Derives records root x) : builtinTypes.length ≤ x ∧ x < T.size := by
  refine ⟨Nat.le_trans (hT.builtin_le_of_qualifies hroot) (hT.le_of_derives h), ?_⟩
  rcases Relation.ReflTransGen.cases_tail h with rfl | ⟨b, -, hstep⟩
  · exact lt_size_of_qualifies hroot
  · exact lt_size_of_base? (mem_derived_iff.mp hstep.2).2

end TypeTable

/-- A closed hierarchy is closed no more once a leaf is not sealed, or once the root or a
type in between that is not sealed itself has a public constructor. -/
theorem closed_hierarchies_are_tight
    {s : Snapshot} {P : Program} (hP : P.IsLoadedFrom s) {records : Bool} {root : TypeId}
    {h : ClosedHierarchy} (hclosed : P.types.classify records root = some h) :
    (∀ leaf ∈ h.leaves, ∃ P',
      Program.load (s.editType (P.types.name leaf) .clearSealed) = .ok P' ∧
        P'.types.find? (P.types.name root) = some root ∧
        P'.types.classify records root = none) ∧
    ∀ t, (t = root ∨ P.types.Derives records root t ∧ P.types.qualifies records t = true ∧
        (P.types.entry t).isSealed = false) →
      ∀ (index : Nat) (c : Constructor String), c.accessibility = .publicAccess →
        (∀ name, some name ∈ c.parameters → name ∈ s.typeNames) → ∃ P',
        Program.load (s.editType (P.types.name t) (.addConstructor index c)) = .ok P' ∧
          P'.types.find? (P.types.name root) = some root ∧
          P'.types.classify records root = none := by
  have hT := hP.represents.types
  have hqualifies := TypeTable.qualifies_of_classify hclosed
  constructor
  · intro leaf hleaf
    obtain ⟨hderives, hends⟩ := (TypeTable.mem_leaves_iff hclosed).mp hleaf
    have hdeclared := hT.declared_of_derives hqualifies hderives
    obtain ⟨P', hP'⟩ := Snapshot.exists_load_editType hP (P.types.name leaf) .clearSealed
      fun _ _ hname => .inl hname
    have hT' := (Program.represents_of_load hP').types
    obtain ⟨hopen, hsealed⟩ := TypeTable.open_of_clearSealed hT hdeclared hT' hends
    refine ⟨P', hP', ?_, ?_⟩
    · rw [TypeTable.find?_editType hT hT']
      exact hT.find?_root hclosed
    · exact TypeTable.classify_eq_none_of_derives
        (TypeTable.derives_editType hT hT' hdeclared.2 hderives) hopen hsealed
  · intro t ht index c hpublic hparameters
    have hderives : P.types.Derives records root t := by
      rcases ht with rfl | ⟨hderives, -, -⟩
      · exact .refl
      · exact hderives
    have hdeclared := hT.declared_of_derives hqualifies hderives
    obtain ⟨P', hP'⟩ := Snapshot.exists_load_editType hP (P.types.name t)
      (.addConstructor index c) fun _ name hname =>
        (TypeEdit.mem_references_addConstructor hname).imp_right (hparameters name)
    have hT' := (Program.represents_of_load hP').types
    obtain ⟨hopen, hsealed⟩ :=
      TypeTable.open_of_addConstructor hT hdeclared records hpublic hT'
    refine ⟨P', hP', ?_, ?_⟩
    · rw [TypeTable.find?_editType hT hT']
      exact hT.find?_root hclosed
    · rcases ht with hroot | ⟨-, -, hunsealed⟩
      · exact hroot ▸ TypeTable.classify_eq_none_of_not_qualifies hopen
      · exact TypeTable.classify_eq_none_of_derives
          (TypeTable.derives_editType hT hT' hdeclared.2 hderives) hopen
          (hsealed.trans hunsealed)

theorem recordProgram_tight :
    recordProgram.types.classify true 4 = some ⟨4, [6, 7, 9]⟩ ∧
      (∃ P', Program.load (recordSnapshot.editType "Root.Mid.B" .clearSealed) = .ok P' ∧
        P'.types.classify true 4 = none) ∧
      ∃ P', Program.load (recordSnapshot.editType "Root.Mid"
          (.addConstructor 1 ⟨.publicAccess, [none, some "Root.C"]⟩)) = .ok P' ∧
        P'.types.classify true 4 = none := by
  have hclosed : recordProgram.types.classify true 4 = some ⟨4, [6, 7, 9]⟩ := by decide
  have hderives : recordProgram.types.Derives true 4 5 := .single ⟨by decide, by decide⟩
  obtain ⟨hleaves, hbetween⟩ :=
    closed_hierarchies_are_tight isLoadedFrom_recordProgram hclosed
  obtain ⟨P', hP', -, hunsealed⟩ := hleaves 7 (by decide)
  obtain ⟨P'', hP'', -, hopened⟩ := hbetween 5 (.inr ⟨hderives, by decide, by decide⟩) 1
    ⟨.publicAccess, [none, some "Root.C"]⟩ rfl (by simp; decide)
  exact ⟨hclosed, ⟨P', hP', hunsealed⟩, ⟨P'', hP'', hopened⟩⟩

end ClosedSwitch
