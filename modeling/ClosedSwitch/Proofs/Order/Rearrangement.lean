import ClosedSwitch.Proofs.Load.FirstDefect
import ClosedSwitch.Proofs.Order.Renumbering

/-!
# Declarations in another order

A snapshot may list its types in another order, and so may every type those nested in
it.  The declared types are then the same ones under the same qualified names, so the
snapshot still loads, and the table it loads as is a renumbering of the first one: a
type keeps its name, and its references follow the numbers of the names.
-/

namespace ClosedSwitch

namespace TypeDecl

/-- The same declarations in another order, at the top or inside any of them. -/
inductive Rearranged : List TypeDecl → List TypeDecl → Prop
  | nil : Rearranged [] []
  | cons (shape : TypeShape String) {nested nested' rest rest' : List TypeDecl} :
      Rearranged nested nested' → Rearranged rest rest' →
        Rearranged (⟨shape, nested⟩ :: rest) (⟨shape, nested'⟩ :: rest')
  | swap (d e : TypeDecl) (rest : List TypeDecl) :
      Rearranged (d :: e :: rest) (e :: d :: rest)
  | trans {ds es fs : List TypeDecl} :
      Rearranged ds es → Rearranged es fs → Rearranged ds fs

namespace Rearranged

theorem refl : ∀ ds : List TypeDecl, Rearranged ds ds
  | [] => .nil
  | ⟨shape, nested⟩ :: rest => .cons shape (refl nested) (refl rest)

theorem of_perm {ds es : List TypeDecl} (h : ds.Perm es) : Rearranged ds es := by
  induction h with
  | nil => exact .nil
  | cons d _ ih =>
      rcases d with ⟨shape, nested⟩
      exact .cons shape (refl nested) ih
  | swap d e rest => exact .swap e d rest
  | trans _ _ ih₁ ih₂ => exact .trans ih₁ ih₂

theorem qualifiedNames_perm
    {ds es : List TypeDecl} (h : Rearranged ds es) (enclosing : Option String) :
    (qualifiedNames enclosing ds).Perm (qualifiedNames enclosing es) := by
  induction h with
  | nil => exact .nil
  | cons shape _ _ _ ih => exact .cons _ ih
  | swap d e rest => exact .swap _ _ _
  | trans _ _ ih₁ ih₂ => exact ih₁.trans ih₂

theorem shapes_perm
    {ds es : List TypeDecl} (h : Rearranged ds es) (enclosing : Option String) :
    ((flattenAll enclosing ds).map (·.shape)).Perm
      ((flattenAll enclosing es).map (·.shape)) := by
  induction h generalizing enclosing with
  | nil => exact .nil
  | cons shape _ _ ihnested ihrest =>
      rw [flattenAll, flattenAll, flatten, flatten, List.map_append, List.map_append]
      exact ((ihnested _).cons _).append (ihrest _)
  | swap d e rest =>
      simp only [flattenAll, List.map_append]
      exact List.perm_append_comm_assoc _ _ _
  | trans _ _ ih₁ ih₂ => exact (ih₁ _).trans (ih₂ _)

/-- Every declared type is declared after the rearrangement, with the same types nested
in it up to their order. -/
theorem exists_declared
    {ds es : List TypeDecl} (h : Rearranged ds es) {enclosing : Option String}
    {d : DeclaredType} (hd : d ∈ flattenAll enclosing ds) :
    ∃ d' ∈ flattenAll enclosing es, d'.shape = d.shape ∧ d.nested.Perm d'.nested := by
  induction h generalizing enclosing d with
  | nil => exact absurd hd List.not_mem_nil
  | cons shape hnested _ ihnested ihrest =>
      simp only [flattenAll, flatten, List.cons_append, List.mem_cons,
        List.mem_append] at hd ⊢
      rcases hd with rfl | hd | hd
      · exact ⟨_, .inl rfl, rfl, hnested.qualifiedNames_perm _⟩
      · obtain ⟨d', hd', hsame⟩ := ihnested hd
        exact ⟨d', .inr (.inl hd'), hsame⟩
      · obtain ⟨d', hd', hsame⟩ := ihrest hd
        exact ⟨d', .inr (.inr hd'), hsame⟩
  | swap d₁ d₂ rest =>
      refine ⟨d, ?_, rfl, List.Perm.refl _⟩
      simp only [flattenAll, List.mem_append] at hd ⊢
      tauto
  | trans _ _ ih₁ ih₂ =>
      obtain ⟨d', hd', hshape, hnested⟩ := ih₁ hd
      obtain ⟨d'', hd'', hshape', hnested'⟩ := ih₂ hd'
      exact ⟨d'', hd'', hshape'.trans hshape, hnested.trans hnested'⟩

end Rearranged

theorem flattenAll_perm
    {ds es : List TypeDecl} (h : ds.Perm es) (enclosing : Option String) :
    (flattenAll enclosing ds).Perm (flattenAll enclosing es) := by
  induction h with
  | nil => exact .nil
  | cons d _ ih => exact List.Perm.append_left _ ih
  | swap d e rest => exact List.perm_append_comm_assoc _ _ _
  | trans _ _ ih₁ ih₂ => exact ih₁.trans ih₂

end TypeDecl

/-! ## A rearranged snapshot loads -/

namespace Snapshot

/-- The snapshot with other types. -/
def withTypes (s : Snapshot) (types : List TypeDecl) : Snapshot := { s with types }

theorem isBase_iff_shapes {s : Snapshot} {name base : String} :
    s.IsBase name base ↔
      ∃ shape ∈ s.declaredTypes.map (·.shape), shape.name = name ∧ shape.base = some base := by
  simp [IsBase]

section Rearranged

variable {s : Snapshot} {types : List TypeDecl} (h : TypeDecl.Rearranged s.types types)

include h

theorem shapes_perm :
    (s.declaredTypes.map (·.shape)).Perm ((s.withTypes types).declaredTypes.map (·.shape)) :=
  h.shapes_perm none

theorem typeNames_perm : s.typeNames.Perm (s.withTypes types).typeNames := by
  have hnames := (shapes_perm h).map TypeShape.name
  rw [List.map_map, List.map_map] at hnames
  exact hnames.append_left _

theorem typeReferences_perm :
    s.typeReferences.Perm (s.withTypes types).typeReferences :=
  (shapes_perm h).flatMap_right _

theorem isBase_withTypes_iff {name base : String} :
    (s.withTypes types).IsBase name base ↔ s.IsBase name base := by
  simp only [isBase_iff_shapes, (shapes_perm h).mem_iff]

theorem WellFormed.rearrange (hs : s.WellFormed) : (s.withTypes types).WellFormed := by
  have hmem : ∀ name, name ∈ (s.withTypes types).typeNames ↔ name ∈ s.typeNames :=
    fun name => (typeNames_perm h).mem_iff.symm
  refine ⟨?_, ?_, ?_, ?_, hs.spans, hs.diagnostics⟩
  · exact (typeNames_perm h).nodup_iff.mp hs.names
  · intro r hr
    exact (hmem _).mpr (hs.references r ((typeReferences_perm h).mem_iff.mpr hr))
  · rintro name hname ⟨chain, hstart, hchain⟩
    refine hs.bases name ((hmem name).mp hname) ⟨chain, hstart, ?_⟩
    intro n
    exact (isBase_withTypes_iff h).mp (hchain n)
  · intro r hr
    exact (hmem _).mpr (hs.extensions r hr)

theorem exists_load_withTypes
    {P : Program} (hP : Program.load s = .ok P) :
    ∃ P', Program.load (s.withTypes types) = .ok P' := by
  have hs : s.WellFormed := exists_load_iff_wellFormed.mp ⟨P, hP⟩
  exact exists_load_iff_wellFormed.mpr (hs.rearrange h)

end Rearranged

end Snapshot

namespace TypeTable

/-! ## The number of a name -/

/-- The number in `T'` of the type that has the number `t` in `T`. -/
def renumber (T T' : TypeTable) (t : TypeId) : TypeId :=
  if t < T.size then (T'.find? (T.name t)).getD t else t

section Renumber

variable {T T' : TypeTable} {ds es : List TypeDecl}
  (hT : T.Represents ds) (hT' : T'.Represents es) (hnames : T.names.Perm T'.names)

include hnames

theorem size_eq_of_names_perm : T'.size = T.size := by
  rw [← T.length_names, ← T'.length_names, hnames.length_eq]

theorem find?_name_eq_some_renumber {t : TypeId} (ht : t < T.size) :
    T'.find? (T.name t) = some (T.renumber T' t) := by
  have hmem : T.name t ∈ T'.names :=
    hnames.mem_iff.mp (List.mem_of_getElem? (getElem?_names_of_lt_size ht))
  obtain ⟨u, hu⟩ := Option.isSome_iff_exists.mp (List.isSome_idxOf?.mpr hmem)
  rw [renumber, if_pos ht, find?, hu, Option.getD_some]

include hT'

theorem renumber_lt_size {t : TypeId} (ht : t < T.size) : T.renumber T' t < T'.size :=
  (hT'.find?_eq_some_iff.mp (find?_name_eq_some_renumber hnames ht)).1

theorem name_renumber (t : TypeId) : T'.name (T.renumber T' t) = T.name t := by
  by_cases ht : t < T.size
  · exact (hT'.find?_eq_some_iff.mp (find?_name_eq_some_renumber hnames ht)).2
  · have hle : T.size ≤ t := Nat.le_of_not_lt ht
    have hle' : T'.size ≤ t := size_eq_of_names_perm hnames ▸ hle
    rw [renumber, if_neg ht, name, name, entry_of_size_le hle, entry_of_size_le hle']

include hT

theorem renumber_renumber (t : TypeId) : T'.renumber T (T.renumber T' t) = t := by
  by_cases ht : t < T.size
  · have hlt := renumber_lt_size hT' hnames ht
    have hback := find?_name_eq_some_renumber hnames.symm hlt
    rw [name_renumber hT' hnames, hT.find?_name ht, Option.some.injEq] at hback
    exact hback.symm
  · have ht' : ¬ t < T'.size := size_eq_of_names_perm hnames ▸ ht
    rw [renumber, renumber, if_neg ht, if_neg ht']

end Renumber

/-- The permutation of numbers between two tables with the same names. -/
def renumbering
    {T T' : TypeTable} {ds es : List TypeDecl} (hT : T.Represents ds)
    (hT' : T'.Represents es) (hnames : T.names.Perm T'.names) : Equiv.Perm TypeId where
  toFun := T.renumber T'
  invFun := T'.renumber T
  left_inv := renumber_renumber hT hT' hnames
  right_inv := renumber_renumber hT' hT hnames.symm

theorem Represents.map_find?_map_name
    {T : TypeTable} {decls : List TypeDecl} (hT : T.Represents decls)
    {ts : List TypeId} (hts : ∀ t ∈ ts, t < T.size) :
    (ts.map T.name).map T.find? = ts.map some := by
  rw [List.map_map]
  exact List.map_congr_left fun t ht => hT.find?_name (hts t ht)

/-- A type that refers to no other one and has none nested in it. -/
def IsPlain (e : TypeEntry) : Prop :=
  (∀ f : TypeId → TypeId, e.toTypeShape.map f = e.toTypeShape) ∧ e.nested = []

theorem isPlain_default : IsPlain default := ⟨fun _ => rfl, rfl⟩

theorem isPlain_of_mem_builtinTypes {e : TypeEntry} (h : e ∈ builtinTypes) : IsPlain e := by
  simp only [builtinTypes, List.mem_cons, List.not_mem_nil, or_false] at h
  rcases h with rfl | rfl | rfl | rfl <;> exact ⟨fun _ => rfl, rfl⟩

section Rearranged

variable {s : Snapshot} {types : List TypeDecl} {T T' : TypeTable}
  (hT : T.Represents s.types) (hT' : T'.Represents types)
  (hnames : T.names.Perm T'.names)

include hT hnames

theorem find?_eq_map_renumber (name : String) :
    T'.find? name = (T.find? name).map (T.renumber T') := by
  cases hfind : T.find? name with
  | none =>
      have hmem : name ∉ T.names := List.idxOf?_eq_none_iff.mp hfind
      exact List.idxOf?_eq_none_iff.mpr fun hmem' => hmem (hnames.mem_iff.mpr hmem')
  | some t =>
      obtain ⟨ht, rfl⟩ := hT.find?_eq_some_iff.mp hfind
      exact find?_name_eq_some_renumber hnames ht

theorem shape_renumber
    {t : TypeId} {d d' : DeclaredType} (hshape : d'.shape = d.shape)
    (hd : T.Holds t d) (hd' : T'.Holds (T.renumber T' t) d') :
    (T'.entry (T.renumber T' t)).toTypeShape =
      (T.entry t).toTypeShape.map (T.renumber T') := by
  have hresolved := TypeShape.resolve_eq_ok_map
    (fun _ _ => requireType_eq_ok_map (find?_eq_map_renumber hT hnames)) hd.shape
  have hresolved' := hd'.shape
  rw [hshape, hresolved, Except.ok.injEq] at hresolved'
  exact hresolved'.symm

include hT'

/-- The built-in types come first in every table. -/
theorem renumber_builtin {t : TypeId} (ht : t < builtinTypes.length) :
    T.renumber T' t = t ∧ T'.entry t = T.entry t := by
  have hentry : T'.entry t = T.entry t := by
    have hsame := hT'.getElem?_builtinTypes ht
    rw [hT.getElem?_builtinTypes ht, Option.some.injEq] at hsame
    exact hsame.symm
  have hlt : t < T.size := hT.lt_size_of_builtin ht
  have hname : T'.name t = T.name t := congrArg (·.name) hentry
  have hfind := find?_name_eq_some_renumber hnames hlt
  rw [← hname, hT'.find?_name (size_eq_of_names_perm hnames ▸ hlt),
    Option.some.injEq] at hfind
  exact ⟨hfind.symm, hentry⟩

omit hT in
theorem holds_renumber
    {t : TypeId} (ht : t < T.size) {d : DeclaredType}
    (hd : d ∈ (s.withTypes types).declaredTypes) (hname : T.name t = d.shape.name) :
    T'.Holds (T.renumber T' t) d := by
  have hrep : T'.Represents (s.withTypes types).types := hT'
  obtain ⟨u, -, hu, hholds⟩ := hrep.exists_number hd
  have hsame : u = T.renumber T' t := by
    apply hT'.eq_of_name_eq hu (renumber_lt_size hT' hnames ht)
    rw [hholds.name_eq, name_renumber hT' hnames, hname]
  exact hsame ▸ hholds

/-- The types that are not declared stay where they are, and a declared type holds what
its declaration after the rearrangement says. -/
theorem renumber_cases
    {R : List String → List String → Prop}
    (hmatch : ∀ d ∈ s.declaredTypes, ∃ d' ∈ (s.withTypes types).declaredTypes,
      d'.shape = d.shape ∧ R d.nested d'.nested) (t : TypeId) :
    (T'.entry (T.renumber T' t) = T.entry t ∧ IsPlain (T.entry t)) ∨
      ∃ d d', d'.shape = d.shape ∧ R d.nested d'.nested ∧ T.Holds t d ∧
        T'.Holds (T.renumber T' t) d' := by
  -- A number belongs to a built-in type, to a declared one, or to none.
  by_cases hlt : t < T.size
  · by_cases hbuiltin : t < builtinTypes.length
    · obtain ⟨hstays, hentry⟩ := renumber_builtin hT hT' hnames hbuiltin
      rw [hstays, hentry]
      exact .inl ⟨rfl, isPlain_of_mem_builtinTypes
        (List.mem_of_getElem? (hT.getElem?_builtinTypes hbuiltin))⟩
    · obtain ⟨d, hd, hholds⟩ := hT.exists_holds (Nat.le_of_not_lt hbuiltin) hlt
      obtain ⟨d', hd', hshape, hnested⟩ := hmatch d hd
      refine .inr ⟨d, d', hshape, hnested, hholds, ?_⟩
      exact holds_renumber hT' hnames hlt hd' (hshape ▸ hholds.name_eq)
  · have hle : T.size ≤ t := Nat.le_of_not_lt hlt
    have hle' : T'.size ≤ t := size_eq_of_names_perm hnames ▸ hle
    rw [renumber, if_neg hlt, entry_of_size_le hle, entry_of_size_le hle']
    exact .inl ⟨rfl, isPlain_default⟩

/-- Nested types are found again through their names. -/
theorem map_some_nested_renumber
    {t : TypeId} {d : DeclaredType} (hd : T.Holds t d) :
    ((T.entry t).nested.map (T.renumber T')).map some = d.nested.map T'.find? := by
  have hlt : ∀ c ∈ (T.entry t).nested.map (T.renumber T'), c < T'.size := by
    intro c hc
    obtain ⟨b, hb, rfl⟩ := List.mem_map.mp hc
    exact renumber_lt_size hT' hnames (hT.child_lt_size hb)
  have hback : ((T.entry t).nested.map (T.renumber T')).map T'.name = d.nested := by
    rw [List.map_map, ← hd.nested]
    exact List.map_congr_left fun c _ => name_renumber hT' hnames c
  rw [← hT'.map_find?_map_name hlt, hback]

end Rearranged

theorem Represents.map_some_nested
    {T : TypeTable} {decls : List TypeDecl} (hT : T.Represents decls)
    {t : TypeId} {d : DeclaredType} (hd : T.Holds t d) :
    (T.entry t).nested.map some = d.nested.map T.find? := by
  rw [← hd.nested, hT.map_find?_map_name fun c hc => hT.child_lt_size hc]

/-- The table of a rearranged snapshot is a renumbering of the first one, and keeps the
order of nested types if only the types at the top have changed places. -/
theorem exists_renumbers
    {s : Snapshot} {types : List TypeDecl} {T T' : TypeTable}
    (hT : T.Represents s.types) (hT' : T'.Represents types)
    (h : TypeDecl.Rearranged s.types types) :
    ∃ σ, Renumbers σ T T' ∧ (s.types.Perm types → KeepsNesting σ T T') := by
  have hrep : T'.Represents (s.withTypes types).types := hT'
  have hnames : T.names.Perm T'.names := by
    rw [hT.names_eq, hrep.names_eq]
    exact Snapshot.typeNames_perm h
  refine ⟨renumbering hT hT' hnames, ⟨size_eq_of_names_perm hnames, ?_, ?_, ?_, ?_⟩, ?_⟩
  · intro t
    rcases renumber_cases hT hT' hnames (fun d hd => h.exists_declared hd) t with
      ⟨hentry, hplain⟩ | ⟨d, d', hshape, -, hd, hd'⟩
    · exact (congrArg (·.toTypeShape) hentry).trans (hplain.1 _).symm
    · exact shape_renumber hT hnames hshape hd hd'
  · intro t
    change (T'.entry (T.renumber T' t)).nested.Perm ((T.entry t).nested.map (T.renumber T'))
    rcases renumber_cases hT hT' hnames (fun d hd => h.exists_declared hd) t with
      ⟨hentry, hplain⟩ | ⟨d, d', -, hnested, hd, hd'⟩
    · rw [hentry, hplain.2]
      exact .nil
    · apply (List.map_perm_map_iff (Option.some_injective TypeId)).mp
      rw [hT'.map_some_nested hd', map_some_nested_renumber hT hT' hnames hd]
      exact hnested.symm.map _
  · exact (renumber_builtin hT hT' hnames (by decide)).1
  · exact find?_eq_map_renumber hT hnames
  · intro hperm t
    have hsame : ∀ d ∈ s.declaredTypes, ∃ d' ∈ (s.withTypes types).declaredTypes,
        d'.shape = d.shape ∧ d.nested = d'.nested := fun d hd =>
      ⟨d, (TypeDecl.flattenAll_perm hperm none).mem_iff.mp hd, rfl, rfl⟩
    change (T'.entry (T.renumber T' t)).nested = (T.entry t).nested.map (T.renumber T')
    rcases renumber_cases hT hT' hnames hsame t with
      ⟨hentry, hplain⟩ | ⟨d, d', -, hnested, hd, hd'⟩
    · rw [hentry, hplain.2]
      rfl
    · apply List.map_injective_iff.mpr (Option.some_injective TypeId)
      rw [hT'.map_some_nested hd', map_some_nested_renumber hT hT' hnames hd, hnested]

end TypeTable

end ClosedSwitch
