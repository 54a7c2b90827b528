import ClosedSwitch.Proofs.TypeTable.Nesting

/-!
# Declarations and their places

The declarations of a snapshot form trees.  Listed depth first, each under its
qualified name, they are the types of the table in the order of their numbers,
after the built-in ones.  The tree of a declaration takes up the numbers from its
own on, and the trees nested in it lie side by side within.
-/

namespace ClosedSwitch

/-- A declared type under its qualified name, with the qualified names of the
types that are declared directly in it. -/
structure DeclaredType where
  shape : TypeShape String
  nested : List String

namespace TypeDecl

/-- The qualified names of declarations inside the type called `enclosing`. -/
def qualifiedNames (enclosing : Option String) (ds : List TypeDecl) : List String :=
  ds.map fun d => qualify enclosing d.shape.name

mutual

/-- The types of a declaration depth first, a type before those nested in it. -/
def flatten (enclosing : Option String) : TypeDecl → List DeclaredType
  | ⟨shape, nested⟩ =>
    let name := qualify enclosing shape.name
    ⟨{ shape with name }, qualifiedNames (some name) nested⟩ ::
      flattenAll (some name) nested

def flattenAll (enclosing : Option String) : List TypeDecl → List DeclaredType
  | [] => []
  | d :: rest => flatten enclosing d ++ flattenAll enclosing rest

end

mutual

theorem shapes_place (enclosing : Option String) (id : TypeId) (d : TypeDecl) :
    (place enclosing id d).map (·.shape) = (flatten enclosing d).map (·.shape) := by
  rcases d with ⟨shape, nested⟩
  rw [place, flatten, List.map_cons, List.map_cons, shapes_placeAll _ (id + 1) nested]

theorem shapes_placeAll (enclosing : Option String) (id : TypeId) (ds : List TypeDecl) :
    (placeAll enclosing id ds).map (·.shape) =
      (flattenAll enclosing ds).map (·.shape) := by
  rcases ds with _ | ⟨d, rest⟩
  · rfl
  · rw [placeAll, flattenAll, List.map_append, List.map_append,
      shapes_place enclosing id d, shapes_placeAll enclosing _ rest]

end

end TypeDecl

namespace Snapshot

/-- The declared types of a snapshot, depth first. -/
def declaredTypes (s : Snapshot) : List DeclaredType := TypeDecl.flattenAll none s.types

/-- The names that can be referred to: the built-in types, and the declared ones
depth first. -/
def typeNames (s : Snapshot) : List String :=
  builtinTypes.map (·.name) ++ s.declaredTypes.map (·.shape.name)

end Snapshot

namespace TypeTable

/-! ## Names in the order of the table -/

theorem names_placed (decls : List TypeDecl) :
    (placed decls).map (·.shape.name) =
      (TypeDecl.flattenAll none decls).map (·.shape.name) := by
  have hshapes := TypeDecl.shapes_placeAll none builtinTypes.length decls
  have hnames := congrArg (List.map TypeShape.name) hshapes
  rw [List.map_map, List.map_map] at hnames
  exact hnames

theorem Represents.names_eq
    {T : TypeTable} {s : Snapshot} (h : T.Represents s.types) :
    T.names = s.typeNames := by
  obtain ⟨entries, hentries, hdefined⟩ := h.entries_eq
  rw [Snapshot.typeNames, Snapshot.declaredTypes, ← names_placed,
    ← names_of_forall₂_define hdefined]
  simp [names, hentries]

theorem map_name_range (T : TypeTable) : (List.range T.size).map T.name = T.names := by
  apply List.ext_getElem?
  intro t
  by_cases ht : t < T.size
  · simp [ht, getElem?_names_of_lt_size ht]
  · have hle : T.names.length ≤ t := T.length_names ▸ Nat.le_of_not_lt ht
    simp [ht, hle]

/-! ## Trees of declarations in the table -/

/-- The table holds the given types from the number `id` on. -/
def Stores (T : TypeTable) (id : TypeId) (ps : List PlacedType) : Prop :=
  ∀ (k : Nat) (p : PlacedType), ps[k]? = some p →
    p.define T.find? = .ok (T.entry (id + k))

theorem stores_cons
    {T : TypeTable} {id : TypeId} {p : PlacedType} {ps : List PlacedType} :
    T.Stores id (p :: ps) ↔
      p.define T.find? = .ok (T.entry id) ∧ T.Stores (id + 1) ps := by
  constructor
  · intro h
    refine ⟨h 0 p rfl, ?_⟩
    intro k q hq
    rw [Nat.add_assoc, Nat.add_comm 1 k]
    exact h (k + 1) q hq
  · rintro ⟨hp, hps⟩ k q hq
    cases k with
    | zero =>
        rw [List.getElem?_cons_zero, Option.some.injEq] at hq
        exact hq ▸ hp
    | succ k =>
        have hstored := hps k q hq
        rwa [Nat.add_assoc, Nat.add_comm 1 k] at hstored

theorem stores_append
    {T : TypeTable} {id : TypeId} {ps qs : List PlacedType} :
    T.Stores id (ps ++ qs) ↔ T.Stores id ps ∧ T.Stores (id + ps.length) qs := by
  induction ps generalizing id with
  | nil => simp [Stores]
  | cons p ps ih =>
      rw [List.cons_append, stores_cons, stores_cons, ih, List.length_cons, and_assoc,
        Nat.add_assoc, Nat.add_comm 1 ps.length]

theorem Represents.stores
    {T : TypeTable} {decls : List TypeDecl} (h : T.Represents decls) :
    T.Stores builtinTypes.length (placed decls) := by
  obtain ⟨entries, hentries, hdefined⟩ := h.entries_eq
  intro k p hp
  obtain ⟨e, he, hdefine⟩ := exists_right_of_forall₂ hdefined hp
  have hget : T.entries[builtinTypes.length + k]? = some e := by
    rw [hentries, List.getElem?_toArray, List.getElem?_append_right (Nat.le_add_right _ _),
      Nat.add_sub_cancel_left, he]
  have hlt : builtinTypes.length + k < T.size := (Array.getElem?_eq_some_iff.mp hget).1
  rw [getElem?_entries_of_lt_size hlt, Option.some.injEq] at hget
  rw [hget]
  exact hdefine

/-- The declaration `d` stands at the number `id`, and what is nested in it right
after. -/
def Hosts (T : TypeTable) (enclosing : Option String) (id : TypeId) (d : TypeDecl) : Prop :=
  T.Stores id (TypeDecl.place enclosing id d)

/-- The declarations stand side by side from the number `id` on. -/
def HostsAll
    (T : TypeTable) (enclosing : Option String) (id : TypeId) (ds : List TypeDecl) : Prop :=
  T.Stores id (TypeDecl.placeAll enclosing id ds)

theorem hostsAll_cons
    {T : TypeTable} {enclosing : Option String} {id : TypeId} {d : TypeDecl}
    {rest : List TypeDecl} :
    T.HostsAll enclosing id (d :: rest) ↔
      T.Hosts enclosing id d ∧ T.HostsAll enclosing (id + d.count) rest := by
  rw [HostsAll, TypeDecl.placeAll, stores_append, TypeDecl.length_place]
  rfl

section Hosts

variable {T : TypeTable} {enclosing : Option String} {id : TypeId}
  {shape : TypeShape String} {inner : List TypeDecl}

theorem Hosts.define_eq (h : T.Hosts enclosing id ⟨shape, inner⟩) :
    PlacedType.define T.find?
        ⟨{ shape with name := qualify enclosing shape.name },
          TypeDecl.ids (id + 1) inner⟩ =
      .ok (T.entry id) := by
  rw [Hosts, TypeDecl.place, stores_cons] at h
  exact h.1

theorem Hosts.nested (h : T.Hosts enclosing id ⟨shape, inner⟩) :
    T.HostsAll (some (qualify enclosing shape.name)) (id + 1) inner := by
  rw [Hosts, TypeDecl.place, stores_cons] at h
  exact h.2

theorem Hosts.name_eq {d : TypeDecl} (h : T.Hosts enclosing id d) :
    T.name id = qualify enclosing d.shape.name := by
  rcases d with ⟨shape, inner⟩
  exact PlacedType.name_of_define h.define_eq

theorem Hosts.nested_eq (h : T.Hosts enclosing id ⟨shape, inner⟩) :
    (T.entry id).nested = TypeDecl.ids (id + 1) inner :=
  PlacedType.nested_of_define h.define_eq

end Hosts

theorem HostsAll.map_name_ids
    {T : TypeTable} {enclosing : Option String} {id : TypeId} {ds : List TypeDecl}
    (h : T.HostsAll enclosing id ds) :
    (TypeDecl.ids id ds).map T.name = TypeDecl.qualifiedNames enclosing ds := by
  induction ds generalizing id with
  | nil => rfl
  | cons d rest ih =>
      obtain ⟨hd, hrest⟩ := hostsAll_cons.mp h
      rw [TypeDecl.ids, List.map_cons, hd.name_eq, ih hrest]
      rfl

mutual

theorem Hosts.exists_of_mem_range
    {T : TypeTable} {enclosing : Option String} {id t : Nat} (d : TypeDecl)
    (h : T.Hosts enclosing id d) (hle : id ≤ t) (hlt : t < id + d.count) :
    ∃ outer tree, T.Hosts outer t tree ∧ t + tree.count ≤ id + d.count := by
  rcases d with ⟨shape, nested⟩
  rcases Nat.eq_or_lt_of_le hle with rfl | hgt
  · exact ⟨enclosing, ⟨shape, nested⟩, h, Nat.le_refl _⟩
  · rw [TypeDecl.count] at hlt ⊢
    obtain ⟨outer, tree, htree, hend⟩ :=
      HostsAll.exists_of_mem_range (t := t) nested h.nested hgt (by omega)
    exact ⟨outer, tree, htree, by omega⟩

/-- Every number that a list of declarations takes up belongs to one of the trees
in it. -/
theorem HostsAll.exists_of_mem_range
    {T : TypeTable} {enclosing : Option String} {id t : Nat} (ds : List TypeDecl)
    (h : T.HostsAll enclosing id ds) (hle : id ≤ t)
    (hlt : t < id + TypeDecl.countAll ds) :
    ∃ outer tree, T.Hosts outer t tree ∧
      t + tree.count ≤ id + TypeDecl.countAll ds := by
  rcases ds with _ | ⟨d, rest⟩
  · rw [TypeDecl.countAll] at hlt
    omega
  · obtain ⟨hd, hrest⟩ := hostsAll_cons.mp h
    rw [TypeDecl.countAll] at hlt ⊢
    rcases Nat.lt_or_ge t (id + d.count) with hfirst | hlater
    · obtain ⟨outer, tree, htree, hend⟩ := Hosts.exists_of_mem_range d hd hle hfirst
      exact ⟨outer, tree, htree, by omega⟩
    · obtain ⟨outer, tree, htree, hend⟩ :=
        HostsAll.exists_of_mem_range rest hrest hlater (by omega)
      exact ⟨outer, tree, htree, by omega⟩

end

/-- A declared type is the root of a tree that stands in the table. -/
theorem Represents.exists_hosts
    {T : TypeTable} {decls : List TypeDecl} (h : T.Represents decls)
    {t : TypeId} (hle : builtinTypes.length ≤ t) (hlt : t < T.size) :
    ∃ outer tree, T.Hosts outer t tree ∧ t + tree.count ≤ T.size := by
  rw [h.size_eq] at hlt ⊢
  exact HostsAll.exists_of_mem_range decls h.stores hle hlt

/-! ## The declared type of a number -/

/-- The entry of `t` is the declared type `d` with its references resolved. -/
structure Holds (T : TypeTable) (t : TypeId) (d : DeclaredType) : Prop where
  shape : d.shape.resolve (requireType T.find? d.shape.name) =
    .ok (T.entry t).toTypeShape
  nested : (T.entry t).nested.map T.name = d.nested

theorem Holds.name_eq
    {T : TypeTable} {t : TypeId} {d : DeclaredType} (h : T.Holds t d) :
    T.name t = d.shape.name :=
  TypeShape.name_of_resolve h.shape

mutual

theorem Hosts.forall₂_holds
    {T : TypeTable} {enclosing : Option String} {id : TypeId} (d : TypeDecl)
    (h : T.Hosts enclosing id d) :
    List.Forall₂ T.Holds (List.range' id d.count) (TypeDecl.flatten enclosing d) := by
  rcases d with ⟨shape, nested⟩
  rw [TypeDecl.count, Nat.add_comm, List.range'_succ, TypeDecl.flatten]
  refine List.Forall₂.cons ⟨?_, ?_⟩ (HostsAll.forall₂_holds nested h.nested)
  · obtain ⟨r, hr, he⟩ := bind_eq_ok_iff.mp h.define_eq
    simp only [pure, Except.pure, Except.ok.injEq] at he
    rw [← he]
    exact hr
  · rw [h.nested_eq, h.nested.map_name_ids]

/-- The numbers that declarations take up belong to the declared types in depth-first
order. -/
theorem HostsAll.forall₂_holds
    {T : TypeTable} {enclosing : Option String} {id : TypeId} (ds : List TypeDecl)
    (h : T.HostsAll enclosing id ds) :
    List.Forall₂ T.Holds (List.range' id (TypeDecl.countAll ds))
      (TypeDecl.flattenAll enclosing ds) := by
  rcases ds with _ | ⟨d, rest⟩
  · exact List.Forall₂.nil
  · obtain ⟨hd, hrest⟩ := hostsAll_cons.mp h
    rw [TypeDecl.countAll, ← List.range'_append_1, TypeDecl.flattenAll]
    exact List.rel_append (Hosts.forall₂_holds d hd) (HostsAll.forall₂_holds rest hrest)

end

theorem Represents.exists_holds
    {T : TypeTable} {s : Snapshot} (h : T.Represents s.types)
    {t : TypeId} (hle : builtinTypes.length ≤ t) (hlt : t < T.size) :
    ∃ d ∈ s.declaredTypes, T.Holds t d := by
  have hmem : t ∈ List.range' builtinTypes.length (TypeDecl.countAll s.types) := by
    rw [List.mem_range'_1, ← h.size_eq]
    exact ⟨hle, hlt⟩
  obtain ⟨k, hk⟩ := List.mem_iff_getElem?.mp hmem
  obtain ⟨d, hd, hholds⟩ :=
    exists_right_of_forall₂ (HostsAll.forall₂_holds s.types h.stores) hk
  exact ⟨d, List.mem_of_getElem? hd, hholds⟩

theorem Represents.exists_number
    {T : TypeTable} {s : Snapshot} (h : T.Represents s.types)
    {d : DeclaredType} (hd : d ∈ s.declaredTypes) :
    ∃ t, builtinTypes.length ≤ t ∧ t < T.size ∧ T.Holds t d := by
  obtain ⟨k, hk⟩ := List.mem_iff_getElem?.mp hd
  obtain ⟨t, ht, hholds⟩ :=
    exists_left_of_forall₂ (HostsAll.forall₂_holds s.types h.stores) hk
  have hrange := List.mem_range'_1.mp (List.mem_of_getElem? ht)
  rw [← h.size_eq] at hrange
  exact ⟨t, hrange.1, hrange.2, hholds⟩

end TypeTable

end ClosedSwitch
