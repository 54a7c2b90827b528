import ClosedSwitch.Proofs.Order.Rearrangement

/-!
# Editing one declaration

A snapshot in which one type declares something else, while its name, its base type and the
types nested in it are kept, has the same types under the same numbers.  If it loads, only
the entry of that type differs, and that entry is what the edited declaration resolves to.
-/

namespace ClosedSwitch

/-! ## Edits -/

/-- A change to what a type declares, whatever its name, that keeps its name and its base
type. -/
structure TypeEdit where
  apply : TypeShape String → TypeShape String
  apply_rename : ∀ (shape : TypeShape String) (name : String),
    apply { shape with name } = { apply shape with name }
  base_apply : ∀ shape : TypeShape String, (apply shape).base = shape.base

namespace TypeEdit

theorem name_apply (e : TypeEdit) (shape : TypeShape String) :
    (e.apply shape).name = shape.name := by
  have hname := congrArg TypeShape.name (e.apply_rename shape shape.name)
  exact hname

/-- The change to a type if that is the one called `target`. -/
def applyAt (e : TypeEdit) (target : String) (shape : TypeShape String) : TypeShape String :=
  if shape.name = target then e.apply shape else shape

theorem name_applyAt (e : TypeEdit) (target : String) (shape : TypeShape String) :
    (e.applyAt target shape).name = shape.name := by
  rw [applyAt]
  split
  · exact e.name_apply shape
  · rfl

theorem base_applyAt (e : TypeEdit) (target : String) (shape : TypeShape String) :
    (e.applyAt target shape).base = shape.base := by
  rw [applyAt]
  split
  · exact e.base_apply shape
  · rfl

/-- The type is no longer sealed. -/
def clearSealed : TypeEdit where
  apply shape := { shape with isSealed := false }
  apply_rename _ _ := rfl
  base_apply _ := rfl

/-- The type has one more constructor, which follows the first `index` ones. -/
def addConstructor (index : Nat) (c : Constructor String) : TypeEdit where
  apply shape :=
    { shape with
      constructors := shape.constructors.take index ++ c :: shape.constructors.drop index }
  apply_rename _ _ := rfl
  base_apply _ := rfl

end TypeEdit

namespace TypeDecl

mutual

/-- The declaration with the type called `target` edited, if it is in there. -/
def edit (e : TypeEdit) (target : String) (enclosing : Option String) :
    TypeDecl → TypeDecl
  | ⟨shape, nested⟩ =>
    let name := qualify enclosing shape.name
    ⟨if name = target then e.apply shape else shape, editAll e target (some name) nested⟩

def editAll (e : TypeEdit) (target : String) (enclosing : Option String) :
    List TypeDecl → List TypeDecl
  | [] => []
  | d :: rest => edit e target enclosing d :: editAll e target enclosing rest

end

end TypeDecl

/-- The snapshot with the type called `target` edited. -/
def Snapshot.editType (s : Snapshot) (target : String) (e : TypeEdit) : Snapshot :=
  s.withTypes (TypeDecl.editAll e target none s.types)

def PlacedType.edit (e : TypeEdit) (target : String) (p : PlacedType) : PlacedType :=
  ⟨e.applyAt target p.shape, p.nested⟩

namespace TypeDecl

/-! ## Places are kept -/

mutual

theorem count_edit
    (e : TypeEdit) (target : String) (enclosing : Option String) (d : TypeDecl) :
    (edit e target enclosing d).count = d.count := by
  rcases d with ⟨shape, nested⟩
  rw [edit, count, count, countAll_editAll e target _ nested]

theorem countAll_editAll
    (e : TypeEdit) (target : String) (enclosing : Option String) (ds : List TypeDecl) :
    countAll (editAll e target enclosing ds) = countAll ds := by
  rcases ds with _ | ⟨d, rest⟩
  · rfl
  · rw [editAll, countAll, countAll, count_edit e target enclosing d,
      countAll_editAll e target enclosing rest]

end

theorem ids_editAll
    (e : TypeEdit) (target : String) (enclosing : Option String) (first : TypeId)
    (ds : List TypeDecl) : ids first (editAll e target enclosing ds) = ids first ds := by
  induction ds generalizing first with
  | nil => rfl
  | cons d rest ih => rw [editAll, ids, ids, count_edit, ih]

mutual

/-- Editing a declaration edits the type at its place. -/
theorem place_edit
    (e : TypeEdit) (target : String) (enclosing : Option String) (id : TypeId)
    (d : TypeDecl) :
    place enclosing id (edit e target enclosing d) =
      (place enclosing id d).map (PlacedType.edit e target) := by
  rcases d with ⟨shape, nested⟩
  have hshape : ∀ name, { (if name = target then e.apply shape else shape) with name } =
      e.applyAt target { shape with name } := by
    intro name
    rw [TypeEdit.applyAt]
    split
    · exact (e.apply_rename shape name).symm
    · rfl
  have hname : (if qualify enclosing shape.name = target then e.apply shape
      else shape).name = shape.name := by
    split
    · exact e.name_apply shape
    · rfl
  rw [edit, place, place, List.map_cons, hname, hshape, ids_editAll,
    placeAll_editAll e target _ (id + 1) nested]
  rfl

theorem placeAll_editAll
    (e : TypeEdit) (target : String) (enclosing : Option String) (id : TypeId)
    (ds : List TypeDecl) :
    placeAll enclosing id (editAll e target enclosing ds) =
      (placeAll enclosing id ds).map (PlacedType.edit e target) := by
  rcases ds with _ | ⟨d, rest⟩
  · rfl
  · rw [editAll, placeAll, placeAll, List.map_append, count_edit,
      place_edit e target enclosing id d, placeAll_editAll e target enclosing _ rest]

end

end TypeDecl

/-! ## An edited snapshot loads -/

namespace Snapshot

section Edit

variable (s : Snapshot) (target : String) (e : TypeEdit)

theorem shapes_editType :
    (s.editType target e).declaredTypes.map (·.shape) =
      (s.declaredTypes.map (·.shape)).map (e.applyAt target) := by
  have hplaced := congrArg (List.map PlacedType.shape)
    (TypeDecl.placeAll_editAll e target none builtinTypes.length s.types)
  rw [TypeDecl.shapes_placeAll, List.map_map] at hplaced
  refine hplaced.trans ?_
  rw [declaredTypes, ← TypeDecl.shapes_placeAll none builtinTypes.length, List.map_map]
  rfl

theorem typeNames_editType : (s.editType target e).typeNames = s.typeNames := by
  have hnames := congrArg (List.map TypeShape.name) (shapes_editType s target e)
  simp only [List.map_map, Function.comp_def, e.name_applyAt] at hnames
  rw [typeNames, hnames]
  rfl

theorem isBase_editType_iff {name base : String} :
    (s.editType target e).IsBase name base ↔ s.IsBase name base := by
  simp only [isBase_iff_shapes, shapes_editType, List.mem_map, exists_exists_and_eq_and,
    e.name_applyAt, e.base_applyAt]

variable {s target e}

/-- The edited snapshot loads if the names that the edit adds are known. -/
theorem WellFormed.edit
    (hs : s.WellFormed)
    (hreferences : ∀ shape : TypeShape String, ∀ name ∈ (e.apply shape).references,
      name ∈ shape.references ∨ name ∈ s.typeNames) :
    (s.editType target e).WellFormed := by
  have hnames := typeNames_editType s target e
  refine ⟨?_, ?_, ?_, ?_, hs.spans, hs.diagnostics⟩
  · rw [NamesDistinct, hnames]
    exact hs.names
  · intro r hr
    rw [hnames]
    rw [typeReferences, shapes_editType, List.mem_flatMap] at hr
    obtain ⟨edited, hedited, hr⟩ := hr
    obtain ⟨shape, hshape, rfl⟩ := List.mem_map.mp hedited
    obtain ⟨name, hname, rfl⟩ := List.mem_map.mp hr
    have hknown : ∀ name ∈ shape.references, name ∈ s.typeNames := by
      intro name hname
      exact hs.references (name, shape.name)
        (List.mem_flatMap.mpr ⟨shape, hshape, List.mem_map.mpr ⟨name, hname, rfl⟩⟩)
    rw [TypeEdit.applyAt] at hname
    split at hname
    · exact (hreferences shape name hname).elim (hknown name) id
    · exact hknown name hname
  · rintro name hname ⟨chain, hstart, hchain⟩
    refine hs.bases name (hnames ▸ hname) ⟨chain, hstart, ?_⟩
    intro n
    exact (isBase_editType_iff s target e).mp (hchain n)
  · intro r hr
    rw [hnames]
    exact hs.extensions r hr

end Edit

theorem exists_load_editType
    {s : Snapshot} {P : Program} (hP : P.IsLoadedFrom s) (target : String) (e : TypeEdit)
    (hreferences : ∀ shape : TypeShape String, ∀ name ∈ (e.apply shape).references,
      name ∈ shape.references ∨ name ∈ s.typeNames) :
    ∃ P', Program.load (s.editType target e) = .ok P' := by
  obtain ⟨loaded, -, hload, -⟩ := hP
  have hs : s.WellFormed := exists_load_iff_wellFormed.mp ⟨loaded, hload⟩
  exact exists_load_iff_wellFormed.mpr (hs.edit hreferences)

end Snapshot

/-! ## The table of an edited snapshot -/

theorem PlacedType.resolve_of_define
    {find? : String → Option TypeId} {p : PlacedType} {entry : TypeEntry}
    (h : p.define find? = .ok entry) :
    p.shape.resolve (requireType find? p.shape.name) = .ok entry.toTypeShape := by
  obtain ⟨r, hr, hentry⟩ := bind_eq_ok_iff.mp h
  rw [← Except.ok.inj hentry]
  exact hr

namespace TypeTable

section Edit

variable {s : Snapshot} {target : String} {e : TypeEdit} {T T' : TypeTable}
  (hT : T.Represents s.types) (hT' : T'.Represents (s.editType target e).types)

include hT hT'

theorem names_editType : T'.names = T.names := by
  rw [hT'.names_eq, hT.names_eq, Snapshot.typeNames_editType]

theorem find?_editType : T'.find? = T.find? := by
  funext name
  rw [find?, find?, names_editType hT hT']

theorem size_editType : T'.size = T.size := by
  rw [← T.length_names, ← T'.length_names, names_editType hT hT']

theorem entry_editType_of_not_declared
    {t : TypeId} (h : ¬ (builtinTypes.length ≤ t ∧ t < T.size)) :
    T'.entry t = T.entry t := by
  by_cases hlt : t < T.size
  · have hbuiltin : t < builtinTypes.length := Nat.lt_of_not_le fun hle => h ⟨hle, hlt⟩
    have hkept := hT.getElem?_builtinTypes hbuiltin
    rw [hT'.getElem?_builtinTypes hbuiltin, Option.some.injEq] at hkept
    exact hkept
  · have hle : T.size ≤ t := Nat.le_of_not_lt hlt
    rw [entry_of_size_le hle, entry_of_size_le (size_editType hT hT' ▸ hle)]

/-- The entry of a declared type is that of the declaration at its place, edited if it is the
one in question. -/
theorem exists_placed_editType
    {t : TypeId} (h : builtinTypes.length ≤ t ∧ t < T.size) :
    ∃ p : PlacedType, p.define T.find? = .ok (T.entry t) ∧
      (p.edit e target).define T.find? = .ok (T'.entry t) := by
  obtain ⟨hle, hlt⟩ := h
  obtain ⟨k, rfl⟩ := Nat.exists_eq_add_of_le hle
  have hk : k < (placed s.types).length := by
    rw [placed, TypeDecl.length_placeAll]
    rw [hT.size_eq] at hlt
    exact Nat.lt_of_add_lt_add_left hlt
  have hp := List.getElem?_eq_getElem hk
  have hp' : (placed (s.editType target e).types)[k]? =
      some ((placed s.types)[k].edit e target) := by
    rw [placed, Snapshot.editType, Snapshot.withTypes, TypeDecl.placeAll_editAll,
      List.getElem?_map, ← placed, hp]
    rfl
  have hdefine' := hT'.stores k _ hp'
  rw [find?_editType hT hT'] at hdefine'
  exact ⟨_, hT.stores k _ hp, hdefine'⟩

theorem nested_editType (t : TypeId) : (T'.entry t).nested = (T.entry t).nested := by
  by_cases h : builtinTypes.length ≤ t ∧ t < T.size
  · obtain ⟨p, hdefine, hdefine'⟩ := exists_placed_editType hT hT' h
    rw [PlacedType.nested_of_define hdefine, PlacedType.nested_of_define hdefine']
    rfl
  · rw [entry_editType_of_not_declared hT hT' h]

theorem base?_editType (t : TypeId) : T'.base? t = T.base? t := by
  by_cases h : builtinTypes.length ≤ t ∧ t < T.size
  · obtain ⟨p, hdefine, hdefine'⟩ := exists_placed_editType hT hT' h
    have hbase := TypeShape.base_of_resolve (PlacedType.resolve_of_define hdefine)
    have hbase' := TypeShape.base_of_resolve (PlacedType.resolve_of_define hdefine')
    rw [PlacedType.edit, e.base_applyAt, e.name_applyAt] at hbase'
    exact Except.ok.inj (hbase'.symm.trans hbase)
  · rw [base?, base?, entry_editType_of_not_declared hT hT' h]

theorem derived_editType (t : TypeId) : T'.derived t = T.derived t := by
  rw [derived, derived, nested_editType hT hT']
  simp only [base?_editType hT hT']

theorem entry_editType_of_ne {t : TypeId} (hne : T.name t ≠ target) :
    T'.entry t = T.entry t := by
  by_cases h : builtinTypes.length ≤ t ∧ t < T.size
  · obtain ⟨p, hdefine, hdefine'⟩ := exists_placed_editType hT hT' h
    have hname : p.shape.name ≠ target := PlacedType.name_of_define hdefine ▸ hne
    rw [PlacedType.edit, TypeEdit.applyAt, if_neg hname] at hdefine'
    exact Except.ok.inj (hdefine'.symm.trans hdefine)
  · exact entry_editType_of_not_declared hT hT' h

/-- The entry of the edited type is what its edited declaration resolves to. -/
theorem exists_shape_editType
    {t : TypeId} (h : builtinTypes.length ≤ t ∧ t < T.size) (hname : T.name t = target) :
    ∃ shape, shape.resolve (requireType T.find? target) = .ok (T.entry t).toTypeShape ∧
      (e.apply shape).resolve (requireType T.find? target) =
        .ok (T'.entry t).toTypeShape := by
  obtain ⟨p, hdefine, hdefine'⟩ := exists_placed_editType hT hT' h
  have hname : p.shape.name = target := (PlacedType.name_of_define hdefine).symm.trans hname
  rw [PlacedType.edit, TypeEdit.applyAt, if_pos hname] at hdefine'
  have hresolve := PlacedType.resolve_of_define hdefine
  have hresolve' := PlacedType.resolve_of_define hdefine'
  rw [e.name_apply] at hresolve'
  rw [hname] at hresolve hresolve'
  exact ⟨p.shape, hresolve, hresolve'⟩

end Edit

end TypeTable

end ClosedSwitch
