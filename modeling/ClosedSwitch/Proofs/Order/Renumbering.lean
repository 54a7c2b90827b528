import ClosedSwitch.Program.Load
import ClosedSwitch.Proofs.Hierarchy.Judgment
import Mathlib.Logic.Equiv.Defs

/-!
# Types under other numbers

Two tables may hold the same types under different numbers, related by a permutation
of all numbers.  What a table alone determines follows the permutation: conversions,
members, and which hierarchies are closed.  The types nested in a type may stand in
another order in the second table.  The leaves of a hierarchy are then the same up to
their order, and the very same list where the order of nested types is kept.
-/

namespace ClosedSwitch

/-! ## References under other numbers -/

section References

variable {τ υ : Type} (f : τ → υ)

def Constructor.map (c : Constructor τ) : Constructor υ :=
  ⟨c.accessibility, c.parameters.map (Option.map f)⟩

def Property.map (p : Property τ) : Property υ := ⟨p.name, p.type.map f⟩

def TypeShape.map (s : TypeShape τ) : TypeShape υ where
  name := s.name
  isAbstract := s.isAbstract
  isSealed := s.isSealed
  base := s.base.map f
  interfaces := s.interfaces.map f
  constructors := s.constructors.map (Constructor.map f)
  members := s.members
  properties := s.properties.map (Property.map f)
  deconstructors := s.deconstructors.map (List.map (Option.map f))

def Extension.map (e : Extension τ) : Extension υ :=
  ⟨f e.receiver, e.parameters.map (Option.map f)⟩

end References

def DeconstructMethod.map (f : TypeId → TypeId) (m : DeconstructMethod) :
    DeconstructMethod :=
  ⟨m.isExtension, m.parameters.map (Option.map f)⟩

theorem DeconstructMethod.elementType_map
    (f : TypeId → TypeId) (m : DeconstructMethod) (index : Nat) :
    (m.map f).elementType index = (m.elementType index).map f := by
  rw [elementType, elementType, map, List.getElem?_map]
  rcases m.parameters[_]? with _ | _ | t <;> rfl

/-! ## Resolving the same names to other numbers -/

section Resolve

variable {f g : String → Except LoadError TypeId} {k : TypeId → TypeId}
  (h : ∀ name t, f name = .ok t → g name = .ok (k t))

include h

theorem TypeShape.resolve_eq_ok_map
    {s : TypeShape String} {r : TypeShape TypeId} (hr : s.resolve f = .ok r) :
    s.resolve g = .ok (r.map k) := by
  simp only [resolve, bind_eq_ok_iff] at hr ⊢
  obtain ⟨base, hbase, interfaces, hinterfaces, constructors, hconstructors, properties,
    hproperties, deconstructors, hdeconstructors, hr⟩ := hr
  rw [← Except.ok.inj hr]
  refine ⟨_, optionMapM_eq_ok_map h hbase, _, mapM_eq_ok_map h hinterfaces,
    _, mapM_eq_ok_map ?_ hconstructors, _, mapM_eq_ok_map ?_ hproperties,
    _, mapM_eq_ok_map ?_ hdeconstructors, rfl⟩
  · intro c r hc
    obtain ⟨parameters, hparameters, hpure⟩ := bind_eq_ok_iff.mp hc
    rw [← Except.ok.inj hpure]
    exact bind_eq_ok_iff.mpr
      ⟨_, mapM_eq_ok_map (fun _ _ => optionMapM_eq_ok_map h) hparameters, rfl⟩
  · intro p r hp
    obtain ⟨type, htype, hpure⟩ := bind_eq_ok_iff.mp hp
    rw [← Except.ok.inj hpure]
    exact bind_eq_ok_iff.mpr ⟨_, optionMapM_eq_ok_map h htype, rfl⟩
  · intro ps rs hps
    exact mapM_eq_ok_map (fun _ _ => optionMapM_eq_ok_map h) hps

end Resolve

section Lookup

variable {find? find'? : String → Option TypeId} {k : TypeId → TypeId}
  (h : ∀ name, find'? name = (find? name).map k)

include h

theorem requireType_eq_ok_map
    {owner name : String} {t : TypeId} (ht : requireType find? owner name = .ok t) :
    requireType find'? owner name = .ok (k t) := by
  rw [requireType] at ht ⊢
  rw [h]
  cases hfind : find? name with
  | none => simp [hfind] at ht
  | some u =>
      rw [hfind] at ht
      rw [← Except.ok.inj ht]
      rfl

theorem Extension.resolve_eq_ok_map
    {e : Extension String} {r : Extension TypeId} (hr : e.resolve find? = .ok r) :
    e.resolve find'? = .ok (r.map k) := by
  obtain ⟨receiver, hreceiver, hrest⟩ := bind_eq_ok_iff.mp hr
  obtain ⟨parameters, hparameters, hpure⟩ := bind_eq_ok_iff.mp hrest
  rw [← Except.ok.inj hpure]
  refine bind_eq_ok_iff.mpr ⟨_, requireType_eq_ok_map h hreceiver, ?_⟩
  refine bind_eq_ok_iff.mpr ⟨_, mapM_eq_ok_map ?_ hparameters, rfl⟩
  intro o r hr
  exact optionMapM_eq_ok_map (fun _ _ => requireType_eq_ok_map h) hr

end Lookup

/-! ## Along a permutation -/

/-- Relations that agree along a permutation have closures that do. -/
theorem reflTransGen_iff_of_perm
    {σ : Equiv.Perm TypeId} {r s : TypeId → TypeId → Prop}
    (hrs : ∀ t u, s (σ t) (σ u) ↔ r t u) {t u : TypeId} :
    Relation.ReflTransGen s (σ t) (σ u) ↔ Relation.ReflTransGen r t u := by
  constructor
  · -- The inverse permutation carries a chain back.
    intro h
    have hback := Relation.ReflTransGen.lift (p := r) σ.symm ?_ _ _ h
    · simpa [Function.onFun] using hback
    · intro a b hab
      rw [← σ.apply_symm_apply a, ← σ.apply_symm_apply b] at hab
      exact (hrs _ _).mp hab
  · exact Relation.ReflTransGen.lift σ (fun a b hab => (hrs a b).mpr hab) t u

/-! ## Renumbered tables -/

namespace TypeTable

/-- The table `T'` holds at the number `σ t` what `T` holds at `t`, the order of nested
types apart. -/
structure Renumbers (σ : Equiv.Perm TypeId) (T T' : TypeTable) : Prop where
  size_eq : T'.size = T.size
  shape_eq : ∀ t, (T'.entry (σ t)).toTypeShape = (T.entry t).toTypeShape.map σ
  nested_perm : ∀ t, (T'.entry (σ t)).nested.Perm ((T.entry t).nested.map σ)
  object_eq : σ object = object
  find?_eq : ∀ name, T'.find? name = (T.find? name).map σ

/-- The nested types stand in the order of the first table. -/
def KeepsNesting (σ : Equiv.Perm TypeId) (T T' : TypeTable) : Prop :=
  ∀ t, (T'.entry (σ t)).nested = (T.entry t).nested.map σ

namespace Renumbers

variable {σ : Equiv.Perm TypeId} {T T' : TypeTable}

theorem name_eq (h : Renumbers σ T T') (t : TypeId) : T'.name (σ t) = T.name t := by
  rw [name, h.shape_eq]
  rfl

theorem isSealed_eq (h : Renumbers σ T T') (t : TypeId) :
    (T'.entry (σ t)).isSealed = (T.entry t).isSealed := by
  rw [h.shape_eq]
  rfl

theorem base?_eq (h : Renumbers σ T T') (t : TypeId) :
    T'.base? (σ t) = (T.base? t).map σ :=
  congrArg TypeShape.base (h.shape_eq t)

theorem interfaces_eq (h : Renumbers σ T T') (t : TypeId) :
    (T'.entry (σ t)).interfaces = (T.entry t).interfaces.map σ :=
  congrArg TypeShape.interfaces (h.shape_eq t)

theorem base?_eq_some_iff (h : Renumbers σ T T') {t b : TypeId} :
    T'.base? (σ t) = some (σ b) ↔ T.base? t = some b := by
  rw [h.base?_eq]
  exact (Option.map_injective σ.injective).eq_iff (b := some b)

theorem map_name_eq (h : Renumbers σ T T') (ts : List TypeId) :
    (ts.map σ).map T'.name = ts.map T.name := by
  rw [List.map_map]
  exact List.map_congr_left fun t _ => h.name_eq t

/-! ## Conversions -/

theorem supertypes_eq (h : Renumbers σ T T') (t : TypeId) :
    T'.supertypes (σ t) = (T.supertypes t).map σ := by
  rw [supertypes, supertypes, List.map_append, ← Option.toList_map, h.interfaces_eq]
  exact congrArg (fun base => base.toList ++ _) (h.base?_eq t)

theorem converts_eq (h : Renumbers σ T T') (t u : TypeId) :
    T'.converts (σ t) (σ u) = T.converts t u := by
  have hreaches : T'.Reaches (σ t) (σ u) ↔ T.Reaches t u := by
    apply reflTransGen_iff_of_perm
    intro a b
    rw [IsSupertype, IsSupertype, h.supertypes_eq, List.mem_map_of_injective σ.injective]
  have hobject : σ u = object ↔ u = object := by
    nth_rewrite 1 [← h.object_eq]
    exact σ.injective.eq_iff
  rw [Bool.eq_iff_iff, converts_iff, converts_iff, hreaches, hobject]

/-! ## Members -/

theorem chainFrom_eq (h : Renumbers σ T T') (fuel : Nat) (t : TypeId) :
    T'.chainFrom fuel (σ t) = (T.chainFrom fuel t).map σ := by
  induction fuel generalizing t with
  | zero => rfl
  | succ fuel ih =>
      rw [chainFrom, chainFrom, h.base?_eq]
      cases T.base? t with
      | none => rfl
      | some b =>
          rw [Option.map_some, List.map_cons, ← ih]

theorem baseChain_eq (h : Renumbers σ T T') (t : TypeId) :
    T'.baseChain (σ t) = (T.baseChain t).map σ := by
  rw [baseChain, baseChain, h.size_eq, h.chainFrom_eq]

theorem findProperty?_eq (h : Renumbers σ T T') (t : TypeId) (name : String) :
    T'.findProperty? (σ t) name = (T.findProperty? t name).map (Option.map σ) := by
  have hproperties : ∀ c, (T'.entry (σ c)).properties =
      (T.entry c).properties.map (Property.map σ) :=
    fun c => congrArg TypeShape.properties (h.shape_eq c)
  rw [findProperty?, findProperty?, h.baseChain_eq, List.findSome?_map, List.map_findSome?]
  congr 1
  funext c
  simp only [Function.comp_apply, hproperties, List.find?_map, Option.map_map]
  rfl

theorem findDeconstructor?_eq (h : Renumbers σ T T') (t : TypeId) (arity : Nat) :
    T'.findDeconstructor? (σ t) arity =
      (T.findDeconstructor? t arity).map (List.map (Option.map σ)) := by
  have hdeconstructors : ∀ c, (T'.entry (σ c)).deconstructors =
      (T.entry c).deconstructors.map (List.map (Option.map σ)) :=
    fun c => congrArg TypeShape.deconstructors (h.shape_eq c)
  rw [findDeconstructor?, findDeconstructor?, h.baseChain_eq, List.findSome?_map,
    List.map_findSome?]
  congr 1
  funext c
  simp only [Function.comp_apply, hdeconstructors, List.find?_map]
  congr 2
  funext parameters
  simp

/-! ## Closed hierarchies -/

theorem isCopyOf_map (c : Constructor TypeId) (t : TypeId) :
    (c.map σ).isCopyOf (σ t) = c.isCopyOf t := by
  have hinjective : Function.Injective (List.map (Option.map σ)) :=
    List.map_injective_iff.mpr (Option.map_injective σ.injective)
  have hparameters : c.parameters.map (Option.map σ) = [some (σ t)] ↔
      c.parameters = [some t] :=
    hinjective.eq_iff (b := [some t])
  rw [Constructor.isCopyOf, Constructor.isCopyOf, Constructor.map]
  simp only [hparameters]

theorem qualifies_eq (h : Renumbers σ T T') (records : Bool) (t : TypeId) :
    T'.qualifies records (σ t) = T.qualifies records t := by
  have hrecord : T'.isRecord (σ t) = T.isRecord t := by
    rw [isRecord, hasMember, h.shape_eq]
    rfl
  rw [qualifies, qualifies, hrecord, h.shape_eq]
  simp only [TypeShape.map, List.all_map, Function.comp_def, isCopyOf_map]
  rfl

theorem isDerivation_iff (h : Renumbers σ T T') {records : Bool} (t c : TypeId) :
    T'.IsDerivation records (σ t) (σ c) ↔ T.IsDerivation records t c := by
  have hchild : T'.IsChild (σ t) (σ c) ↔ T.IsChild t c := by
    rw [IsChild, IsChild, (h.nested_perm t).mem_iff, List.mem_map_of_injective σ.injective]
  rw [IsDerivation, IsDerivation, mem_derived_iff, mem_derived_iff, h.qualifies_eq,
    hchild, h.base?_eq_some_iff]

theorem derives_iff (h : Renumbers σ T T') {records : Bool} (t x : TypeId) :
    T'.Derives records (σ t) (σ x) ↔ T.Derives records t x :=
  reflTransGen_iff_of_perm h.isDerivation_iff

theorem isClosed_iff (h : Renumbers σ T T') (records : Bool) (root : TypeId) :
    T'.IsClosed records (σ root) ↔ T.IsClosed records root := by
  rw [isClosed_iff_derives, isClosed_iff_derives, σ.surjective.forall]
  simp only [h.qualifies_eq, h.derives_iff, h.isSealed_eq]

/-- A hierarchy is closed in both tables or in none, and its leaves are the same up to
their order. -/
theorem classify_rel
    (h : Renumbers σ T T') {decls decls' : List TypeDecl}
    (hT : T.Represents decls) (hT' : T'.Represents decls')
    (records : Bool) (root : TypeId) :
    Option.Rel (fun c c' => (c.leaves.map σ).Perm c'.leaves)
      (T.classify records root) (T'.classify records (σ root)) := by
  have hsome : (T.classify records root).isSome = true ↔
      (T'.classify records (σ root)).isSome = true := by
    rw [hT.classify_isSome_iff, hT'.classify_isSome_iff, h.isClosed_iff]
  cases hc : T.classify records root with
  | none =>
      cases hc' : T'.classify records (σ root) with
      | none => exact .none
      | some c' => simp [hc, hc'] at hsome
  | some c =>
      cases hc' : T'.classify records (σ root) with
      | none => simp [hc, hc'] at hsome
      | some c' =>
          have hleaves : c.leaves.Nodup := (hT.leaves_pairwise_lt hc).imp Nat.ne_of_lt
          have hleaves' : c'.leaves.Nodup := (hT'.leaves_pairwise_lt hc').imp Nat.ne_of_lt
          refine .some ((List.perm_ext_iff_of_nodup (hleaves.map σ.injective) hleaves').mpr ?_)
          intro y
          obtain ⟨x, rfl⟩ := σ.surjective y
          rw [List.mem_map_of_injective σ.injective, mem_leaves_iff hc, mem_leaves_iff hc',
            h.derives_iff, h.qualifies_eq]

/-! ## Leaves in the order of the first table -/

theorem derived_eq
    (h : Renumbers σ T T') (hnesting : KeepsNesting σ T T') (t : TypeId) :
    T'.derived (σ t) = (T.derived t).map σ := by
  rw [derived, derived, hnesting, List.filter_map]
  congr 2
  funext c
  simp only [Function.comp_apply, h.base?_eq_some_iff]

theorem leavesBelow_eq
    (h : Renumbers σ T T') (hnesting : KeepsNesting σ T T')
    (records : Bool) (fuel : Nat) (t : TypeId) :
    T'.leavesBelow records fuel (σ t) =
      (T.leavesBelow records fuel t).map (List.map σ) := by
  induction fuel generalizing t with
  | zero => rfl
  | succ fuel ih =>
      have hcontribution : ∀ c, T'.contribution records fuel (σ c) =
          (T.contribution records fuel c).map (List.map σ) := by
        intro c
        rw [contribution, contribution, h.qualifies_eq, h.isSealed_eq, ih]
        split
        · rfl
        · split <;> rfl
      change ((T'.derived (σ t)).mapM (T'.contribution records fuel)).map List.flatten =
        (((T.derived t).mapM (T.contribution records fuel)).map List.flatten).map (List.map σ)
      rw [h.derived_eq hnesting, List.mapM_map]
      simp only [Function.comp_def, hcontribution]
      rw [mapM_option_map, Option.map_map, Option.map_map]
      congr 1
      funext parts
      exact List.map_flatten.symm

theorem classify_eq
    (h : Renumbers σ T T') (hnesting : KeepsNesting σ T T')
    (records : Bool) (root : TypeId) :
    T'.classify records (σ root) =
      (T.classify records root).map fun c => ⟨σ c.root, c.leaves.map σ⟩ := by
  rw [classify, classify, h.qualifies_eq, h.size_eq, h.leavesBelow_eq hnesting]
  split
  · rw [Option.map_map, Option.map_map]
    rfl
  · rfl

end Renumbers

end TypeTable

end ClosedSwitch
