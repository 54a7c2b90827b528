import ClosedSwitch.Proofs.Hierarchy.Judgment
import ClosedSwitch.Proofs.TypeTable.Bounds

/-!
# The numbers of a loaded table

A loaded table numbers the built-in types first and the declared ones after them,
depth first.  Names and numbers determine each other, a type has the numbers of
everything declared in it right behind its own, and no reference leads out of the
table.  So the traversal behind `classify` moves to greater numbers at every step:
it comes to an end whatever the declarations are, and meets the leaves in increasing
order.
-/

namespace ClosedSwitch

theorem TypeDecl.count_pos (d : TypeDecl) : 0 < d.count := by
  rcases d with ⟨shape, nested⟩
  rw [count]
  omega

namespace TypeTable

/-! ## The trees inside a tree -/

/-- Each of several declarations side by side is the root of a tree within their
numbers. -/
theorem HostsAll.exists_hosts_of_mem_ids
    {T : TypeTable} {enclosing : Option String} {id c : Nat} {ds : List TypeDecl}
    (h : T.HostsAll enclosing id ds) (hc : c ∈ TypeDecl.ids id ds) :
    ∃ tree, T.Hosts enclosing c tree ∧ id ≤ c ∧
      c + tree.count ≤ id + TypeDecl.countAll ds := by
  induction ds generalizing id with
  | nil => exact absurd hc List.not_mem_nil
  | cons d rest ih =>
      obtain ⟨hd, hrest⟩ := hostsAll_cons.mp h
      rw [TypeDecl.countAll]
      rcases List.mem_cons.mp hc with rfl | hc
      · exact ⟨d, hd, Nat.le_refl c, by omega⟩
      · obtain ⟨tree, htree, hle, hend⟩ := ih hrest hc
        exact ⟨tree, htree, by omega, by omega⟩

/-- A type that is declared directly in another carries the name of that type in front
of its own, and its tree lies behind the number of that type. -/
theorem Hosts.exists_hosts_of_isChild
    {T : TypeTable} {enclosing : Option String} {t c : Nat} {tree : TypeDecl}
    (h : T.Hosts enclosing t tree) (hchild : T.IsChild t c) :
    ∃ inner, T.Hosts (some (T.name t)) c inner ∧ t < c ∧
      c + inner.count ≤ t + tree.count := by
  rcases tree with ⟨shape, nested⟩
  rw [IsChild, h.nested_eq] at hchild
  obtain ⟨inner, hinner, hle, hend⟩ := h.nested.exists_hosts_of_mem_ids hchild
  have hname : T.name t = qualify enclosing shape.name := h.name_eq
  rw [TypeDecl.count, hname]
  exact ⟨inner, hinner, hle, by omega⟩

theorem Hosts.exists_hosts_of_isInside
    {T : TypeTable} {enclosing : Option String} {t c : Nat} {tree : TypeDecl}
    (h : T.Hosts enclosing t tree) (hinside : T.IsInside t c) :
    ∃ outer inner, T.Hosts outer c inner ∧ t < c ∧ c + inner.count ≤ t + tree.count := by
  induction hinside with
  | single hchild =>
      obtain ⟨inner, hinner, hlt, hend⟩ := h.exists_hosts_of_isChild hchild
      exact ⟨_, inner, hinner, hlt, hend⟩
  | tail _ hchild ih =>
      obtain ⟨outer, middle, hmiddle, hlt, hend⟩ := ih
      obtain ⟨inner, hinner, hlt', hend'⟩ := hmiddle.exists_hosts_of_isChild hchild
      exact ⟨_, inner, hinner, by omega, by omega⟩

mutual

theorem Hosts.isInside_of_mem_range
    {T : TypeTable} {enclosing : Option String} {t c : Nat} (tree : TypeDecl)
    (h : T.Hosts enclosing t tree) (hlt : t < c) (hend : c < t + tree.count) :
    T.IsInside t c := by
  rcases tree with ⟨shape, nested⟩
  rw [TypeDecl.count] at hend
  obtain ⟨child, hchild, hpath⟩ :=
    HostsAll.exists_path_of_mem_range nested h.nested hlt (by omega)
  have hstep : T.IsChild t child := by
    rw [IsChild, h.nested_eq]
    exact hchild
  exact Relation.TransGen.head' hstep hpath

/-- Every number that neighbouring declarations take up is that of one of them, or is
inside one of them. -/
theorem HostsAll.exists_path_of_mem_range
    {T : TypeTable} {enclosing : Option String} {id c : Nat} (ds : List TypeDecl)
    (h : T.HostsAll enclosing id ds) (hle : id ≤ c)
    (hend : c < id + TypeDecl.countAll ds) :
    ∃ child ∈ TypeDecl.ids id ds, Relation.ReflTransGen T.IsChild child c := by
  rcases ds with _ | ⟨d, rest⟩
  · rw [TypeDecl.countAll] at hend
    omega
  · obtain ⟨hd, hrest⟩ := hostsAll_cons.mp h
    rw [TypeDecl.countAll] at hend
    by_cases hfirst : c < id + d.count
    · refine ⟨id, List.mem_cons_self, ?_⟩
      by_cases hsame : id = c
      · exact hsame ▸ Relation.ReflTransGen.refl
      · have hinside : T.IsInside id c :=
          Hosts.isInside_of_mem_range d hd (by omega) hfirst
        exact hinside.to_reflTransGen
    · obtain ⟨child, hchild, hpath⟩ :=
        HostsAll.exists_path_of_mem_range (c := c) rest hrest (by omega) (by omega)
      exact ⟨child, List.mem_cons_of_mem id hchild, hpath⟩

end

/-- What is declared in a type, at any depth, has the numbers right behind that of the
type, as many as there are declarations in it. -/
theorem Hosts.isInside_iff
    {T : TypeTable} {enclosing : Option String} {t c : Nat} {tree : TypeDecl}
    (h : T.Hosts enclosing t tree) :
    T.IsInside t c ↔ t < c ∧ c < t + tree.count := by
  constructor
  · intro hinside
    obtain ⟨outer, inner, -, hlt, hend⟩ := h.exists_hosts_of_isInside hinside
    have hpos := inner.count_pos
    exact ⟨hlt, by omega⟩
  · rintro ⟨hlt, hend⟩
    exact h.isInside_of_mem_range tree hlt hend

/-! ## Every nested type is listed once -/

theorem Represents.isChild_iff_placed
    {T : TypeTable} {decls : List TypeDecl} (hT : T.Represents decls) {c : TypeId} :
    (∃ t, T.IsChild t c) ↔ c ∈ (placed decls).flatMap (·.nested) := by
  constructor
  · rintro ⟨t, hchild⟩
    obtain ⟨k, p, -, hp, hc⟩ := hT.exists_placed_of_isChild hchild
    exact List.mem_flatMap.mpr ⟨p, List.mem_of_getElem? hp, hc⟩
  · intro hc
    obtain ⟨p, hp, hc⟩ := List.mem_flatMap.mp hc
    obtain ⟨k, hk⟩ := List.mem_iff_getElem?.mp hp
    have hnested := PlacedType.nested_of_define (hT.stores k p hk)
    refine ⟨builtinTypes.length + k, ?_⟩
    rw [IsChild, hnested]
    exact hc

/-- A type is declared in another exactly if it is declared, and not at the top. -/
theorem Represents.exists_isChild_iff
    {T : TypeTable} {decls : List TypeDecl} (hT : T.Represents decls) {c : TypeId} :
    (∃ t, T.IsChild t c) ↔
      builtinTypes.length ≤ c ∧ c < T.size ∧ c ∉ TypeDecl.ids builtinTypes.length decls := by
  have hperm := TypeDecl.perm_placeAll none builtinTypes.length decls
  have hnodup := hperm.nodup_iff.mpr List.nodup_range'
  have hmem : c ∈ TypeDecl.ids builtinTypes.length decls ++
      (placed decls).flatMap (·.nested) ↔ builtinTypes.length ≤ c ∧ c < T.size := by
    rw [hT.size_eq, ← List.mem_range'_1]
    exact hperm.mem_iff
  rw [hT.isChild_iff_placed, ← and_assoc, ← hmem, List.mem_append]
  constructor
  · intro hc
    refine ⟨Or.inr hc, ?_⟩
    intro htop
    exact (List.nodup_append.mp hnodup).2.2 c htop c hc rfl
  · rintro ⟨htop | hc, hnot⟩
    · exact absurd htop hnot
    · exact hc

theorem Represents.nodup_nested
    {T : TypeTable} {decls : List TypeDecl} (hT : T.Represents decls) (t : TypeId) :
    (T.entry t).nested.Nodup := by
  by_cases hempty : (T.entry t).nested = []
  · rw [hempty]
    exact List.nodup_nil
  · obtain ⟨c, hc⟩ := List.exists_mem_of_ne_nil _ hempty
    obtain ⟨k, p, rfl, hp, -⟩ := hT.exists_placed_of_isChild hc
    have hperm := TypeDecl.perm_placeAll none builtinTypes.length decls
    have hnodup := (hperm.nodup_iff.mpr List.nodup_range').of_append_right
    rw [PlacedType.nested_of_define (hT.stores k p hp)]
    exact (List.nodup_flatMap.mp hnodup).1 p (List.mem_of_getElem? hp)

/-! ## The traversal without fuel -/

theorem contribution_congr
    {T : TypeTable} {records : Bool} {fuel fuel' : Nat} {c : TypeId}
    (h : T.leavesBelow records fuel c = T.leavesBelow records fuel' c) :
    T.contribution records fuel c = T.contribution records fuel' c := by
  rw [contribution, contribution, h]

theorem Represents.lt_of_mem_derived
    {T : TypeTable} {decls : List TypeDecl} (hT : T.Represents decls)
    {t c : Nat} (h : c ∈ T.derived t) : t < c ∧ c < T.size := by
  obtain ⟨hchild, hbase⟩ := mem_derived_iff.mp h
  exact ⟨hT.lt_of_isChild hchild, lt_size_of_base? hbase⟩

/-- Fuel for the numbers that are left is enough, and more of it changes nothing. -/
theorem Represents.leavesBelow_fuel_irrelevant
    {T : TypeTable} {decls : List TypeDecl} (hT : T.Represents decls)
    {records : Bool} {fuel fuel' t : Nat} (ht : t < T.size)
    (hfuel : T.size ≤ t + fuel) (hfuel' : T.size ≤ t + fuel') :
    T.leavesBelow records fuel t = T.leavesBelow records fuel' t := by
  induction fuel generalizing t fuel' with
  | zero => omega
  | succ fuel ih =>
      obtain ⟨k, rfl⟩ : ∃ k, fuel' = k + 1 := ⟨fuel' - 1, by omega⟩
      have hparts : (T.derived t).mapM (T.contribution records fuel) =
          (T.derived t).mapM (T.contribution records k) := by
        apply mapM_congr_of_mem
        intro c hc
        obtain ⟨hlt, hsize⟩ := hT.lt_of_mem_derived hc
        exact contribution_congr (ih hsize (by omega) (by omega))
      exact congrArg (Option.map List.flatten) hparts

/-- The leaves below a type are those that its derived types contribute, with no fuel
used up on the way. -/
theorem Represents.leavesBelow_eq_contributions
    {T : TypeTable} {decls : List TypeDecl} (hT : T.Represents decls)
    (records : Bool) (t : TypeId) :
    T.leavesBelow records T.size t =
      ((T.derived t).mapM (T.contribution records T.size)).map List.flatten := by
  obtain ⟨fuel, hsize⟩ : ∃ fuel, T.size = fuel + 1 := by
    have hbuiltin : 0 < T.size := hT.lt_size_of_builtin (by decide)
    exact ⟨T.size - 1, by omega⟩
  have hparts : (T.derived t).mapM (T.contribution records fuel) =
      (T.derived t).mapM (T.contribution records T.size) := by
    apply mapM_congr_of_mem
    intro c hc
    obtain ⟨hlt, hc⟩ := hT.lt_of_mem_derived hc
    exact contribution_congr (hT.leavesBelow_fuel_irrelevant hc (by omega) (by omega))
  rw [← hparts, hsize]
  rfl

/-! ## What holds of every loaded table -/

/-- Names and numbers determine each other, and the numbers follow the declarations
depth first, after the built-in types. -/
structure NumbersTypes (T : TypeTable) (s : Snapshot) : Prop where
  size_eq : T.size = builtinTypes.length + s.declaredTypes.length
  find?_iff : ∀ name t, T.find? name = some t ↔ t < T.size ∧ T.name t = name
  isKnown_iff : ∀ name, (∃ t, T.find? name = some t) ↔ name ∈ s.typeNames
  builtin : ∀ t < builtinTypes.length, builtinTypes[t]? = some (T.entry t)
  declared : ∀ k d, s.declaredTypes[k]? = some d → T.Holds (builtinTypes.length + k) d

/-- What is declared in a type has the numbers right behind that of the type.  Every
type that is not declared at the top is listed once, in the type it is declared in,
and extends the name of that type by a dot and its own. -/
structure NestsTypes (T : TypeTable) (s : Snapshot) : Prop where
  interval : ∀ t, builtinTypes.length ≤ t → t < T.size →
    ∃ enclosing tree, T.Hosts enclosing t tree ∧
      ∀ c, T.IsInside t c ↔ t < c ∧ c < t + tree.count
  listed_iff : ∀ c, (∃ t, T.IsChild t c) ↔
    builtinTypes.length ≤ c ∧ c < T.size ∧ c ∉ TypeDecl.ids builtinTypes.length s.types
  parent_unique : ∀ t u c, T.IsChild t c → T.IsChild u c → t = u
  nodup : ∀ t, (T.entry t).nested.Nodup
  child : ∀ t c, T.IsChild t c → t < c ∧
    ∃ tree, T.Hosts (some (T.name t)) c tree ∧
      T.name c = T.name t ++ "." ++ tree.shape.name

/-- The traversal for closed hierarchies needs no fuel: each step goes to a greater
number of the table.  The leaves come in increasing order, behind the root. -/
structure TraversesUpwards (T : TypeTable) (records : Bool) : Prop where
  step : ∀ t, ∀ c ∈ T.derived t, t < c ∧ c < T.size
  recursion : ∀ t, T.leavesBelow records T.size t =
    ((T.derived t).mapM (T.contribution records T.size)).map List.flatten
  leaves : ∀ root h, T.classify records root = some h →
    h.leaves.Pairwise (· < ·) ∧ (∀ leaf ∈ h.leaves, root < leaf ∧ leaf < T.size) ∧
      h.leaves.Nodup

theorem Represents.numbersTypes
    {T : TypeTable} {s : Snapshot} (hT : T.Represents s.types) : T.NumbersTypes s := by
  have hholds := HostsAll.forall₂_holds s.types hT.stores
  have hlength : TypeDecl.countAll s.types = s.declaredTypes.length := by
    rw [Snapshot.declaredTypes, ← hholds.length_eq, List.length_range']
  refine ⟨hlength ▸ hT.size_eq, fun _ _ => hT.find?_eq_some_iff, ?_, ?_, ?_⟩
  · intro name
    rw [← hT.names_eq, find?, ← Option.isSome_iff_exists, List.isSome_idxOf?]
  · intro t ht
    exact hT.getElem?_builtinTypes ht
  · intro k d hd
    obtain ⟨t, ht, hholds⟩ := exists_left_of_forall₂ hholds hd
    obtain ⟨hk, rfl⟩ := List.getElem?_eq_some_iff.mp ht
    rwa [List.getElem_range', Nat.one_mul] at hholds

theorem Represents.nestsTypes
    {T : TypeTable} {s : Snapshot} (hT : T.Represents s.types) : T.NestsTypes s := by
  refine ⟨?_, fun _ => hT.exists_isChild_iff, fun _ _ _ => hT.isChild_unique,
    hT.nodup_nested, ?_⟩
  · intro t hle hlt
    obtain ⟨enclosing, tree, htree, -⟩ := hT.exists_hosts hle hlt
    exact ⟨enclosing, tree, htree, fun c => htree.isInside_iff⟩
  · intro t c hchild
    obtain ⟨k, p, rfl, -, -⟩ := hT.exists_placed_of_isChild hchild
    obtain ⟨enclosing, tree, htree, -⟩ :=
      hT.exists_hosts (Nat.le_add_right _ k) (lt_size_of_isChild hchild)
    obtain ⟨inner, hinner, hlt, -⟩ := htree.exists_hosts_of_isChild hchild
    exact ⟨hlt, inner, hinner, hinner.name_eq⟩

theorem Represents.traversesUpwards
    {T : TypeTable} {decls : List TypeDecl} (hT : T.Represents decls) (records : Bool) :
    T.TraversesUpwards records := by
  refine ⟨fun t c => hT.lt_of_mem_derived, hT.leavesBelow_eq_contributions records, ?_⟩
  intro root h hclosed
  have hsublist := hT.leaves_sublist hclosed
  have hincreasing : (root :: h.leaves).Pairwise (· < ·) :=
    List.Pairwise.sublist hsublist (List.pairwise_lt_range' 1)
  obtain ⟨hroot, hleaves⟩ := List.pairwise_cons.mp hincreasing
  refine ⟨hleaves, ?_, hleaves.imp Nat.ne_of_lt⟩
  intro leaf hleaf
  have hrange := List.mem_range'_1.mp (hsublist.subset (List.mem_cons_of_mem root hleaf))
  exact ⟨hroot leaf hleaf, hT.size_eq ▸ hrange.2⟩

end TypeTable

/-- No reference of a program leads out of its table: not those of its types and
extensions, and not what is known about its nodes. -/
structure Program.RefersWithinTable (P : Program) : Prop where
  entries : ∀ t, (P.types.entry t).toTypeShape.Within P.types.size
  nested : ∀ t, ∀ c ∈ (P.types.entry t).nested, c < P.types.size
  extensions : ∀ e ∈ P.scope.extensions, e.Within P.types.size
  nodes : ∀ (node : NodeId) (fact : NodeFact),
    P.nodes[node]? = some fact → fact.Within P.types.size

theorem Program.IsLoadedFrom.refersWithinTable
    {P : Program} {s : Snapshot} (hP : P.IsLoadedFrom s) : P.RefersWithinTable where
  entries := hP.scope_within.entries
  nested _ _ hc := hP.represents.types.child_lt_size hc
  extensions := hP.scope_within.extensions
  nodes _ _ := hP.node_within

/-- A loaded table numbers its types depth first, nested types right behind the type
around them, and holds no reference beyond its end; so closed hierarchies are found by
going to greater numbers only. -/
theorem types_numbered_depth_first
    {s : Snapshot} {P : Program} (hP : P.IsLoadedFrom s) :
    P.types.NumbersTypes s ∧ P.types.NestsTypes s ∧ P.RefersWithinTable ∧
      ∀ records, P.types.TraversesUpwards records := by
  have hT := hP.represents.types
  exact ⟨hT.numbersTypes, hT.nestsTypes, hP.refersWithinTable, hT.traversesUpwards⟩

theorem recordProgram_numbered_depth_first :
    recordProgram.IsLoadedFrom recordSnapshot ∧
      recordProgram.types.find? "Root.Mid.B" = some 7 ∧
      (∃ t, recordProgram.types.IsChild t 7) ∧
      recordProgram.types.classify true 4 = some ⟨4, [6, 7, 9]⟩ ∧
      ([6, 7, 9] : List TypeId).Pairwise (· < ·) ∧
      recordProgram.RefersWithinTable := by
  have hload := isLoadedFrom_recordProgram
  obtain ⟨hnumbers, hnests, hrefers, htraverses⟩ := types_numbered_depth_first hload
  have hclosed : recordProgram.types.classify true 4 = some ⟨4, [6, 7, 9]⟩ := by decide
  refine ⟨hload, ?_, ?_, hclosed, ?_, hrefers⟩
  · exact (hnumbers.find?_iff "Root.Mid.B" 7).mpr ⟨by decide, by decide⟩
  · exact (hnests.listed_iff 7).mpr ⟨by decide, by decide, by decide⟩
  · exact ((htraverses true).leaves 4 _ hclosed).1

end ClosedSwitch
