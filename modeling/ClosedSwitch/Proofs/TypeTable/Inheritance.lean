import ClosedSwitch.Proofs.TypeTable.BaseChain
import ClosedSwitch.Proofs.TypeTable.Deconstructors
import ClosedSwitch.Proofs.TypeTable.Preorder

/-!
# What a type inherits

The base types of a loaded program come to an end, so a walk along them needs no memory of
the types it has met.  The chain of a type lists all its base types, each once.  A lookup
stops at the nearest type with something to find; a property found there hides those of the
types behind it, also if its own type has no name.
-/

namespace ClosedSwitch

namespace TypeTable

/-! ## Walks along base types -/

/-- The type after `n` steps from a type to its base. -/
def baseAfter? (T : TypeTable) : Nat → TypeId → Option TypeId
  | 0, t => some t
  | n + 1, t => (T.base? t).bind (baseAfter? T n)

/-- The list has a type and its base types in their order, up to one without a base. -/
inductive IsBaseChain (T : TypeTable) : TypeId → List TypeId → Prop
  | last {t : TypeId} (base : T.base? t = none) : IsBaseChain T t [t]
  | step {t b : TypeId} {chain : List TypeId} (base : T.base? t = some b)
      (rest : IsBaseChain T b chain) : IsBaseChain T t (t :: chain)

/-- The list has all that `t` inherits from, once each, and ends at a type without a base. -/
structure ListsBases (T : TypeTable) (t : TypeId) (chain : List TypeId) : Prop where
  steps : ∀ n, chain[n]? = T.baseAfter? n t
  nodup : chain.Nodup
  ends : ∃ last, chain.getLast? = some last ∧ T.base? last = none
  length_le : chain.length ≤ T.size
  mem_iff : ∀ c, c ∈ chain ↔ T.Inherits t c
  converts : ∀ c ∈ chain, T.converts t c = true

/-- The check of a chain remembers the types it has met.  It passes at a type without a base,
and fails at one that it meets again. -/
inductive CheckedWalk (T : TypeTable) : List TypeId → TypeId → Bool → Prop
  | repeated {met : List TypeId} {t : TypeId} (again : t ∈ met) : CheckedWalk T met t false
  | ended {met : List TypeId} {t : TypeId} (fresh : t ∉ met) (base : T.base? t = none) :
      CheckedWalk T met t true
  | further {met : List TypeId} {t b : TypeId} {passes : Bool} (fresh : t ∉ met)
      (base : T.base? t = some b) (rest : CheckedWalk T (t :: met) b passes) :
      CheckedWalk T met t passes

/-- A walk from `t` that goes on to the base type until `f` has an answer or there is no base
type, with the types it meets and the answer it ends with. -/
inductive Walk {α : Type} (T : TypeTable) (f : TypeId → Option α) :
    TypeId → List TypeId → Option α → Prop
  | found {t : TypeId} {a : α} (answer : f t = some a) : Walk T f t [t] (some a)
  | ended {t : TypeId} (nothing : f t = none) (base : T.base? t = none) : Walk T f t [t] none
  | further {t b : TypeId} {met : List TypeId} {result : Option α} (nothing : f t = none)
      (base : T.base? t = some b) (rest : Walk T f b met result) :
      Walk T f t (t :: met) result

/-- The walk ends within the chain of `t`, and in no other way. -/
structure WalkTerminates {α : Type} (T : TypeTable) (f : TypeId → Option α) (t : TypeId)
    (result : Option α) : Prop where
  ends : ∃ met, met <+: T.baseChain t ∧ T.Walk f t met result
  answers : ∀ met other, T.Walk f t met other → other = result

/-- The type of the first property called `name` that the type `c` itself has. -/
def propertyIn? (T : TypeTable) (name : String) (c : TypeId) : Option (Option TypeId) :=
  ((T.entry c).properties.find? (·.name == name)).map (·.type)

/-- The first deconstructor with `arity` out-parameters that the type `c` itself has. -/
def deconstructorIn? (T : TypeTable) (arity : Nat) (c : TypeId) :
    Option (List (Option TypeId)) :=
  (T.entry c).deconstructors.find? (·.length == arity)

theorem baseAfter?_add
    (T : TypeTable) (m n : Nat) (t : TypeId) :
    T.baseAfter? (m + n) t = (T.baseAfter? m t).bind (T.baseAfter? n) := by
  induction m generalizing t with
  | zero => simp [baseAfter?]
  | succ m ih =>
      rw [Nat.add_right_comm, baseAfter?, baseAfter?]
      cases T.base? t with
      | none => rfl
      | some b => exact ih b

theorem isBaseChain_chainFrom
    {T : TypeTable} {fuel : Nat} {t : TypeId} (hends : T.chainEnds fuel t = true) :
    T.IsBaseChain t (T.chainFrom fuel t) := by
  induction fuel generalizing t with
  | zero => exact absurd hends Bool.false_ne_true
  | succ fuel ih =>
      cases hbase : T.base? t with
      | none =>
          rw [chainFrom_succ_of_base?_eq_none hbase]
          exact .last hbase
      | some b =>
          rw [chainEnds, hbase] at hends
          rw [chainFrom_succ_of_base? hbase]
          exact .step hbase (ih hends)

theorem IsBaseChain.getElem?_eq
    {T : TypeTable} {t : TypeId} {chain : List TypeId} (h : T.IsBaseChain t chain) (n : Nat) :
    chain[n]? = T.baseAfter? n t := by
  induction h generalizing n with
  | last base =>
      cases n with
      | zero => rfl
      | succ n => simp [baseAfter?, base]
  | step base _ ih =>
      cases n with
      | zero => rfl
      | succ n => simp [baseAfter?, base, ih n]

theorem IsBaseChain.exists_getLast?
    {T : TypeTable} {t : TypeId} {chain : List TypeId} (h : T.IsBaseChain t chain) :
    ∃ last, chain.getLast? = some last ∧ T.base? last = none := by
  induction h with
  | last base => exact ⟨_, rfl, base⟩
  | step base _ ih =>
      obtain ⟨last, hlast, hnone⟩ := ih
      exact ⟨last, by rw [List.getLast?_cons, hlast, Option.getD_some], hnone⟩

/-- A type that is met again is met once more after as many steps, and so without end. -/
theorem baseAfter?_of_repeat
    {T : TypeTable} {c : TypeId} {d : Nat} (h : T.baseAfter? d c = some c) (k : Nat) :
    T.baseAfter? (k * d) c = some c := by
  induction k with
  | zero => rw [Nat.zero_mul, baseAfter?]
  | succ k ih => rw [Nat.succ_mul, baseAfter?_add, ih, Option.bind_some, h]

theorem IsBaseChain.nodup
    {T : TypeTable} {t : TypeId} {chain : List TypeId} (h : T.IsBaseChain t chain) :
    chain.Nodup := by
  rw [List.nodup_iff_getElem?_ne_getElem?]
  intro i j hij hj heq
  obtain ⟨d, rfl⟩ := Nat.exists_eq_add_of_le (Nat.le_of_lt hij)
  obtain ⟨c, hc⟩ : ∃ c, chain[i]? = some c := ⟨_, List.getElem?_eq_getElem (hij.trans hj)⟩
  have hrepeat : T.baseAfter? d c = some c := by
    have hsteps := h.getElem?_eq (i + d)
    rw [baseAfter?_add, ← h.getElem?_eq i, ← heq, hc, Option.bind_some] at hsteps
    exact hsteps.symm
  -- So many rounds lead beyond the end of the list.
  have hbeyond := h.getElem?_eq (i + chain.length * d)
  rw [baseAfter?_add, ← h.getElem?_eq i, hc, Option.bind_some, baseAfter?_of_repeat hrepeat,
    List.getElem?_eq_none] at hbeyond
  · exact absurd hbeyond (Option.some_ne_none c).symm
  · have hd : 1 ≤ d := by omega
    exact (Nat.le_mul_of_pos_right _ hd).trans (Nat.le_add_left _ i)

theorem length_le_of_nodup
    {n : Nat} {types : List TypeId} (hnodup : types.Nodup) (h : ∀ c ∈ types, c < n) :
    types.length ≤ n := by
  have hsubset : types ⊆ List.range n := fun c hc => List.mem_range.mpr (h c hc)
  simpa using (hnodup.subperm hsubset).length_le

theorem Inherits.converts
    {T : TypeTable} {t c : TypeId} (h : T.Inherits t c) : T.converts t c = true := by
  have hstep : ∀ u b, T.base? u = some b → T.IsSupertype u b :=
    fun u b hbase => isSupertype_iff.mpr (Or.inl hbase)
  exact (T.converts_iff t c).mpr (Or.inr (Relation.ReflTransGen.mono hstep t c h))

theorem listsBases_baseChain
    {s : Snapshot} {T : TypeTable} (hload : load s.types = .ok T) {t : TypeId}
    (ht : t < T.size) : T.ListsBases t (T.baseChain t) := by
  have hchain := isBaseChain_chainFrom (chainEnds_of_load hload ht)
  have hmem : ∀ c, c ∈ T.baseChain t ↔ T.Inherits t c := fun _ => mem_baseChain_iff hload ht
  refine ⟨hchain.getElem?_eq, hchain.nodup, hchain.exists_getLast?, ?_, hmem, ?_⟩
  · refine length_le_of_nodup hchain.nodup ?_
    intro c hc
    exact (represents_of_load hload).lt_size_of_inherits ht ((hmem c).mp hc)
  · intro c hc
    exact ((hmem c).mp hc).converts

/-! ## The check of a chain -/

theorem IsBaseChain.checkedWalk
    {T : TypeTable} {t : TypeId} {chain met : List TypeId} (h : T.IsBaseChain t chain)
    (hfresh : ∀ c ∈ chain, c ∉ met) : T.CheckedWalk met t true := by
  induction h generalizing met with
  | last base => exact .ended (hfresh _ List.mem_cons_self) base
  | step base rest ih =>
      refine .further (hfresh _ List.mem_cons_self) base (ih ?_)
      -- The type itself is met, but it is not behind itself in the chain.
      have hnodup := (IsBaseChain.step base rest).nodup
      intro c hc
      rw [List.mem_cons, not_or]
      refine ⟨?_, hfresh c (List.mem_cons_of_mem _ hc)⟩
      rintro rfl
      exact (List.nodup_cons.mp hnodup).1 hc

/-- Base types without end lead to a type that was met before, since no more types than the
table has can be met. -/
theorem checkedWalk_of_hasEndlessBases
    {T : TypeTable} {t : TypeId} {met : List TypeId} {left : Nat} (h : T.HasEndlessBases t)
    (hnodup : met.Nodup) (hmet : ∀ c ∈ met, c < T.size) (hleft : T.size ≤ met.length + left) :
    T.CheckedWalk met t false := by
  induction left generalizing t met with
  | zero =>
      refine .repeated ?_
      by_contra hfresh
      have hlt : ∀ c ∈ t :: met, c < T.size :=
        List.forall_mem_cons.mpr ⟨h.lt_size, hmet⟩
      have hlength := length_le_of_nodup (List.nodup_cons.mpr ⟨hfresh, hnodup⟩) hlt
      rw [List.length_cons] at hlength
      omega
  | succ left ih =>
      by_cases hfresh : t ∈ met
      · exact .repeated hfresh
      · obtain ⟨b, hbase, hb⟩ := h.exists_base
        refine .further hfresh hbase (ih hb (List.nodup_cons.mpr ⟨hfresh, hnodup⟩)
          (List.forall_mem_cons.mpr ⟨h.lt_size, hmet⟩) ?_)
        rw [List.length_cons]
        omega

/-- The answer of the check is whether the chain comes to an end within as many steps as
there are types. -/
theorem checkedWalk_chainEnds
    {T : TypeTable} (hbound : ∀ u b, T.base? u = some b → b < T.size)
    {t : TypeId} (ht : t < T.size) : T.CheckedWalk [] t (T.chainEnds T.size t) := by
  cases hends : T.chainEnds T.size t with
  | true => exact (isBaseChain_chainFrom hends).checkedWalk fun c _ => List.not_mem_nil
  | false =>
      exact checkedWalk_of_hasEndlessBases ((chainEnds_size_eq_false_iff hbound ht).mp hends)
        List.nodup_nil (List.forall_mem_nil _) (Nat.le_add_left _ _)

/-! ## Lookups -/

section Lookups

variable {α : Type} {T : TypeTable} {f : TypeId → Option α} {t : TypeId}

theorem IsBaseChain.exists_walk
    {chain : List TypeId} (h : T.IsBaseChain t chain) :
    ∃ met, met <+: chain ∧ T.Walk f t met (chain.findSome? f) := by
  induction h with
  | @last t base =>
      refine ⟨[t], List.prefix_refl _, ?_⟩
      cases hanswer : f t with
      | some a => simpa [hanswer] using Walk.found hanswer
      | none => simpa [hanswer] using Walk.ended hanswer base
  | @step t b chain base _ ih =>
      cases hanswer : f t with
      | some a =>
          refine ⟨[t], (List.prefix_cons_inj t).mpr List.nil_prefix, ?_⟩
          simpa [hanswer] using Walk.found hanswer
      | none =>
          obtain ⟨met, hprefix, hwalk⟩ := ih
          refine ⟨t :: met, (List.prefix_cons_inj t).mpr hprefix, ?_⟩
          simpa [hanswer] using Walk.further hanswer base hwalk

theorem Walk.unique
    {met met' : List TypeId} {result result' : Option α} (h : T.Walk f t met result)
    (h' : T.Walk f t met' result') : result' = result := by
  induction h generalizing met' with
  | found answer =>
      cases h' with
      | found answer' => exact answer'.symm.trans answer
      | ended nothing => simp [answer] at nothing
      | further nothing => simp [answer] at nothing
  | ended nothing base =>
      cases h' with
      | found answer => simp [nothing] at answer
      | ended => rfl
      | further _ base' => simp [base] at base'
  | further nothing base _ ih =>
      cases h' with
      | found answer => simp [nothing] at answer
      | ended _ base' => simp [base] at base'
      | further _ base' rest =>
          obtain rfl := Option.some.inj (base.symm.trans base')
          exact ih rest

theorem walkTerminates
    (hends : T.chainEnds T.size t = true) :
    T.WalkTerminates f t ((T.baseChain t).findSome? f) := by
  obtain ⟨met, hprefix, hwalk⟩ := (isBaseChain_chainFrom hends).exists_walk
  exact ⟨⟨met, hprefix, hwalk⟩, fun met' other hother => hwalk.unique hother⟩

/-- The nearest type with an answer gives the answer. -/
theorem IsBaseChain.findSome?_of_nearest
    {c : TypeId} {chain : List TypeId} (hchain : T.IsBaseChain t chain)
    (h : T.Nearest (fun u => (f u).isSome = true) t c) : chain.findSome? f = f c := by
  induction h generalizing chain with
  | here holds =>
      cases hchain with
      | last _ => exact List.findSome?_cons_of_isSome holds
      | step _ _ => exact List.findSome?_cons_of_isSome holds
  | further fails base _ ih =>
      cases hchain with
      | last base' => exact absurd (base.symm.trans base') (Option.some_ne_none _)
      | step base' rest =>
          obtain rfl := Option.some.inj (base.symm.trans base')
          rw [List.findSome?_cons, Option.not_isSome_iff_eq_none.mp fails]
          exact ih rest

end Lookups

end TypeTable

/-! ## Properties -/

/-- The properties of the declared type called `owner`, in the order of writing. -/
def Snapshot.propertiesOf (s : Snapshot) (owner : String) : List (Property String) :=
  ((s.declaredTypes.find? (·.shape.name == owner)).map (·.shape.properties)).getD []

/-- The type called `owner` declares a property called `name`. -/
def Snapshot.DeclaresProperty (s : Snapshot) (name owner : String) : Prop :=
  ∃ p ∈ s.propertiesOf owner, p.name = name

/-- The property that a snapshot provides under a name on a value of type `t`: the first
one on the nearest type that declares it. -/
structure Snapshot.ProvidesProperty
    (s : Snapshot) (T : TypeTable) (t : TypeId) (name : String)
    (found : Option (Option TypeId)) : Prop where
  some_iff : ∀ type, found = some type ↔
    ∃ c p, T.Nearest (fun u => s.DeclaresProperty name (T.name u)) t c ∧
      IsFirst (·.name = name) (s.propertiesOf (T.name c)) p ∧ T.Denotes p.type type
  none_iff : found = none ↔ ∀ c, T.Inherits t c → ¬ s.DeclaresProperty name (T.name c)
  hides : ∀ c p, T.Nearest (fun u => s.DeclaresProperty name (T.name u)) t c →
    IsFirst (·.name = name) (s.propertiesOf (T.name c)) p → p.type = none →
    found = some none

/-- A property with its type resolved. -/
structure Property.ResolvesTo
    (T : TypeTable) (p : Property String) (r : Property TypeId) : Prop where
  name_eq : r.name = p.name
  type : T.Denotes p.type r.type

theorem IsFirst.unique
    {α : Type} {p : α → Prop} {items : List α} {a b : α} (ha : IsFirst p items a)
    (hb : IsFirst p items b) : a = b := by
  classical
  have hfind : ∀ c, IsFirst p items c → items.find? (fun c => decide (p c)) = some c := by
    rintro c ⟨before, after, hsplit, hc, hbefore⟩
    exact List.find?_eq_some_iff_append.mpr
      ⟨decide_eq_true hc, before, after, hsplit, by simpa using hbefore⟩
  exact Option.some.inj ((hfind a ha).symm.trans (hfind b hb))

namespace TypeTable

theorem Denotes.unique
    {T : TypeTable} {name : Option String} {a b : Option TypeId} (ha : T.Denotes name a)
    (hb : T.Denotes name b) : a = b := by
  cases ha with
  | none =>
      cases hb
      rfl
  | some hfind =>
      cases hb with
      | some hfind' => exact hfind.symm.trans hfind'

theorem properties_of_resolve
    {require : String → Except LoadError TypeId}
    {s : TypeShape String} {r : TypeShape TypeId} (h : s.resolve require = .ok r) :
    s.properties.mapM (fun p => do return Property.mk p.name (← p.type.mapM require)) =
      .ok r.properties := by
  simp only [TypeShape.resolve, bind_eq_ok_iff] at h
  obtain ⟨_, _, _, _, _, _, properties, hproperties, _, _, hr⟩ := h
  rw [← Except.ok.inj hr]
  exact hproperties

/-- The table has the properties that the type declares, with their types resolved. -/
theorem Represents.forall₂_properties
    {T : TypeTable} {s : Snapshot} (hT : T.Represents s.types) {c : TypeId}
    (hc : c < T.size) :
    List.Forall₂ (Property.ResolvesTo T) (s.propertiesOf (T.name c))
      (T.entry c).properties := by
  rw [Snapshot.propertiesOf]
  rcases hT.declared_cases hc with ⟨hbuiltin, hnone⟩ | ⟨d, hd, hholds⟩
  · have hbare : ∀ e ∈ builtinTypes, e.properties = [] := by decide
    rw [hnone, hbare _ (List.mem_of_getElem? (hT.getElem?_builtinTypes hbuiltin))]
    exact .nil
  · rw [hd]
    refine (forall₂_of_mapM_eq_ok (properties_of_resolve hholds.shape)).imp ?_
    intro p r hresolve
    obtain ⟨type, htype, hr⟩ := bind_eq_ok_iff.mp hresolve
    rw [← Except.ok.inj hr]
    exact ⟨rfl, denotes_of_mapM_eq_ok _ _ htype⟩

section Properties

variable {T : TypeTable} {s : Snapshot} (hload : load s.types = .ok T) (name : String)

theorem name_eq_iff_of_resolvesTo
    (p : Property String) (r : Property TypeId) (h : p.ResolvesTo T r) :
    p.name = name ↔ (r.name == name) = true := by
  rw [h.name_eq, beq_iff_eq]

include hload

theorem isSome_propertyIn?_iff {c : TypeId} (hc : c < T.size) :
    (T.propertyIn? name c).isSome = true ↔ s.DeclaresProperty name (T.name c) := by
  have hdeclared := (represents_of_load hload).forall₂_properties hc
  rw [propertyIn?, Option.isSome_map, ← not_iff_not, Option.not_isSome_iff_eq_none,
    find?_eq_none_iff_of_forall₂ hdeclared (name_eq_iff_of_resolvesTo name),
    Snapshot.DeclaresProperty]
  simp

theorem propertyIn?_eq_some_iff {c : TypeId} (hc : c < T.size) {type : Option TypeId} :
    T.propertyIn? name c = some type ↔
      ∃ p, IsFirst (·.name = name) (s.propertiesOf (T.name c)) p ∧ T.Denotes p.type type := by
  have hdeclared := (represents_of_load hload).forall₂_properties hc
  have hfirst : ∀ type, T.propertyIn? name c = some type →
      ∃ p, IsFirst (·.name = name) (s.propertiesOf (T.name c)) p ∧ T.Denotes p.type type := by
    intro type hfound
    obtain ⟨r, hr, rfl⟩ := Option.map_eq_some_iff.mp hfound
    obtain ⟨p, hfirst, hresolves⟩ :=
      exists_isFirst_of_find? hdeclared (name_eq_iff_of_resolvesTo name) hr
    exact ⟨p, hfirst, hresolves.type⟩
  refine ⟨hfirst type, ?_⟩
  rintro ⟨p, hp, htype⟩
  -- Something is found, and there is only one first property that it can come from.
  have hdeclares : s.DeclaresProperty name (T.name c) := by
    obtain ⟨before, after, hsplit, hname, -⟩ := hp
    exact ⟨p, hsplit ▸ List.mem_append_right before List.mem_cons_self, hname⟩
  obtain ⟨found, hfound⟩ :=
    Option.isSome_iff_exists.mp ((isSome_propertyIn?_iff hload name hc).mpr hdeclares)
  obtain ⟨q, hq, htype'⟩ := hfirst found hfound
  obtain rfl := hp.unique hq
  rw [hfound, htype.unique htype']

variable {t : TypeId} (ht : t < T.size)

include ht

/-- The nearest type that has an entry for the name is the nearest that declares it. -/
theorem nearest_propertyIn?_iff {c : TypeId} :
    T.Nearest (fun u => (T.propertyIn? name u).isSome = true) t c ↔
      T.Nearest (fun u => s.DeclaresProperty name (T.name u)) t c := by
  have hT := represents_of_load hload
  have hiff : ∀ u, T.Inherits t u →
      ((T.propertyIn? name u).isSome = true ↔ s.DeclaresProperty name (T.name u)) :=
    fun u hu => isSome_propertyIn?_iff hload name (hT.lt_size_of_inherits ht hu)
  constructor
  · intro h
    exact h.congr hiff
  · intro h
    exact h.congr fun u hu => (hiff u hu).symm

theorem findProperty?_eq_none_iff :
    T.findProperty? t name = none ↔
      ∀ c, T.Inherits t c → ¬ s.DeclaresProperty name (T.name c) := by
  have hT := represents_of_load hload
  change (T.baseChain t).findSome? (T.propertyIn? name) = none ↔ _
  rw [List.findSome?_eq_none_iff]
  refine forall_congr' fun c => ?_
  rw [mem_baseChain_iff hload ht]
  refine imp_congr_right fun hc => ?_
  rw [← isSome_propertyIn?_iff hload name (hT.lt_size_of_inherits ht hc),
    Option.not_isSome_iff_eq_none]

theorem findProperty?_eq_some_iff {type : Option TypeId} :
    T.findProperty? t name = some type ↔
      ∃ c p, T.Nearest (fun u => s.DeclaresProperty name (T.name u)) t c ∧
        IsFirst (·.name = name) (s.propertiesOf (T.name c)) p ∧ T.Denotes p.type type := by
  have hT := represents_of_load hload
  constructor
  · intro hfound
    obtain ⟨c, hnearest, hc⟩ := exists_nearest_of_findSome? hfound
    have hlt := hT.lt_size_of_inherits ht hnearest.inherits
    obtain ⟨p, hfirst, htype⟩ := (propertyIn?_eq_some_iff hload name hlt).mp hc
    exact ⟨c, p, (nearest_propertyIn?_iff hload name ht).mp hnearest, hfirst, htype⟩
  · rintro ⟨c, p, hnearest, hfirst, htype⟩
    have hlisted := (nearest_propertyIn?_iff hload name ht).mpr hnearest
    have hlt := hT.lt_size_of_inherits ht hnearest.inherits
    have hchain := isBaseChain_chainFrom (chainEnds_of_load hload ht)
    exact (hchain.findSome?_of_nearest hlisted).trans
      ((propertyIn?_eq_some_iff hload name hlt).mpr ⟨p, hfirst, htype⟩)

theorem providesProperty_findProperty? :
    s.ProvidesProperty T t name (T.findProperty? t name) where
  some_iff _ := findProperty?_eq_some_iff hload name ht
  none_iff := findProperty?_eq_none_iff hload name ht
  hides c p hnearest hfirst hunnamed := by
    refine (findProperty?_eq_some_iff hload name ht).mpr ⟨c, p, hnearest, hfirst, ?_⟩
    rw [hunnamed]
    exact .none

end Properties

end TypeTable

/-- In a loaded program the base types of every type come to an end: its chain lists all of
them, once each, and lookups along it terminate.  A property is the first one of its name on
the nearest type that declares it. -/
theorem base_chains_are_finite
    {s : Snapshot} {P : Program} (hP : P.IsLoadedFrom s) {t : TypeId} (ht : t < P.types.size) :
    P.types.ListsBases t (P.types.baseChain t) ∧
    P.types.CheckedWalk [] t true ∧
    (∀ name, P.types.WalkTerminates (P.types.propertyIn? name) t
      (P.types.findProperty? t name)) ∧
    (∀ arity, P.types.WalkTerminates (P.types.deconstructorIn? arity) t
      (P.types.findDeconstructor? t arity)) ∧
    (∀ e ∈ P.scope.extensions, P.types.SearchTerminates t e.receiver) ∧
    (∀ name, s.ProvidesProperty P.types t name (P.types.findProperty? t name)) := by
  have hload := hP.represents.types_eq
  have hends := TypeTable.chainEnds_of_load hload ht
  refine ⟨TypeTable.listsBases_baseChain hload ht, ?_, ?_, ?_, ?_, ?_⟩
  · have hbound : ∀ u b, P.types.base? u = some b → b < P.types.size :=
      fun u => (hP.represents.types.entry_within u).base
    exact hends ▸ TypeTable.checkedWalk_chainEnds hbound ht
  · intro name
    exact TypeTable.walkTerminates hends
  · intro arity
    exact TypeTable.walkTerminates hends
  · intro e _
    exact P.types.searchTerminates t e.receiver
  · intro name
    exact TypeTable.providesProperty_findProperty? hload name ht

/-- Interfaces that list each other, and a property that hides the one of a base type with
one whose type has no name. -/
def shadowingSnapshot : Snapshot where
  types :=
    [⟨{ name := "Circle", base := some "Figure" }, []⟩,
     ⟨{ name := "Figure", base := some "Shape",
        properties := [⟨"Size", none⟩, ⟨"Size", some "int"⟩] }, []⟩,
     ⟨{ name := "Shape", interfaces := ["Drawable"],
        properties := [⟨"Size", some "int"⟩] }, []⟩,
     ⟨{ name := "Drawable", interfaces := ["Shape"] }, []⟩]

/-- Its types have the numbers 4 (`Circle`), 5 (`Figure`), 6 (`Shape`) and 7
(`Drawable`). -/
def shadowingProgram : Program := .ofSnapshot shadowingSnapshot

/-- A circle converts to what is drawable, which is not in its chain. -/
theorem shadowingProgram_base_chain :
    shadowingProgram.IsLoadedFrom shadowingSnapshot ∧ 4 < shadowingProgram.types.size ∧
      (shadowingProgram.types.baseChain 4).Nodup ∧
      shadowingProgram.types.Inherits 4 6 ∧
      shadowingProgram.types.converts 4 7 = true ∧
      ¬ shadowingProgram.types.Inherits 4 7 ∧
      shadowingProgram.types.findProperty? 6 "Size" = some (some 2) ∧
      shadowingProgram.types.findProperty? 4 "Size" = some none := by
  have hload : shadowingProgram.IsLoadedFrom shadowingSnapshot :=
    Program.isLoadedFrom_ofSnapshot rfl
  have ht : 4 < shadowingProgram.types.size := by decide
  obtain ⟨hlists, -, -, -, -, hprovides⟩ := base_chains_are_finite hload ht
  refine ⟨hload, ht, hlists.nodup, (hlists.mem_iff 6).mp (by decide), by decide, ?_,
    by decide, ?_⟩
  · intro h
    exact absurd ((hlists.mem_iff 7).mpr h) (by decide)
  · refine (hprovides "Size").hides 5 ⟨"Size", none⟩ (.further ?_ rfl (.here ?_)) ?_ rfl
    · rintro ⟨p, hp, -⟩
      exact absurd hp List.not_mem_nil
    · exact ⟨_, List.mem_cons_self, rfl⟩
    · exact ⟨[], _, rfl, rfl, List.forall_mem_nil _⟩

end ClosedSwitch
