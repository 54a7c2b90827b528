import ClosedSwitch.Proofs.Load.Failure
import ClosedSwitch.Proofs.TypeTable.Lookup

/-!
# Which deconstructor is called

The deconstructor for a number of elements is the first one with as many out-parameters
that the nearest type declares.  Only if neither the type nor a base type has one, the
first extension is taken whose receiver the type converts to.  Either way the elements get
the types of the declared out-parameters in their order.
-/

namespace ClosedSwitch

/-! ## Declared deconstructors -/

/-- The deconstructors of the declared type called `name`, in the order of writing. -/
def Snapshot.deconstructorsOf (s : Snapshot) (name : String) : List (List (Option String)) :=
  ((s.declaredTypes.find? (·.shape.name == name)).map (·.shape.deconstructors)).getD []

/-- The type called `name` declares a deconstructor with `arity` out-parameters. -/
def Snapshot.Deconstructs (s : Snapshot) (name : String) (arity : Nat) : Prop :=
  ∃ parameters ∈ s.deconstructorsOf name, parameters.length = arity

/-- The extension has `arity` out-parameters, and `t` converts to its receiver. -/
def Extension.Fits (T : TypeTable) (t : TypeId) (arity : Nat) (e : Extension String) : Prop :=
  e.parameters.length = arity ∧
    ∃ u, T.find? e.receiver = some u ∧ T.converts t u = true

/-- The elements have the types of the out-parameters, where a type is named, and there are
no further ones. -/
structure DeconstructMethod.Supplies
    (T : TypeTable) (m : DeconstructMethod) (parameters : List (Option String)) : Prop where
  length_eq : m.parameters.length = parameters.length + m.isExtension.toNat
  named : ∀ index name, parameters[index]? = some (some name) →
    ∃ t, T.find? name = some t ∧ m.elementType index = some t
  unnamed : ∀ index, parameters[index]? = some none → m.elementType index = none
  beyond : ∀ index, parameters.length ≤ index → m.elementType index = none

/-- The deconstructor that a snapshot provides for `arity` elements of a value of type `t`. -/
structure Snapshot.ProvidesDeconstructor
    (s : Snapshot) (T : TypeTable) (t : TypeId) (arity : Nat)
    (found : Option DeconstructMethod) : Prop where
  isInstance_iff : (∃ m, found = some m ∧ m.isExtension = false) ↔
    ∃ c, T.Inherits t c ∧ s.Deconstructs (T.name c) arity
  instance_first : ∀ m, found = some m → m.isExtension = false →
    ∃ c parameters, T.Nearest (fun u => s.Deconstructs (T.name u) arity) t c ∧
      IsFirst (·.length = arity) (s.deconstructorsOf (T.name c)) parameters ∧
      m.Supplies T parameters
  extension_first : ∀ m, found = some m → m.isExtension = true →
    ∃ e, IsFirst (Extension.Fits T t arity) s.extensions e ∧ m.Supplies T e.parameters
  none_iff : found = none ↔
    (¬ ∃ c, T.Inherits t c ∧ s.Deconstructs (T.name c) arity) ∧
      ∀ e ∈ s.extensions, ¬ e.Fits T t arity

/-! ## Declared and resolved parameters -/

/-- The type that a declaration names, and nothing where it names none. -/
def TypeTable.Denotes (T : TypeTable) : Option String → Option TypeId → Prop :=
  Option.Rel fun name t => T.find? name = some t

namespace TypeTable

theorem denotes_of_mapM_eq_ok
    {T : TypeTable} {owner : String} (name : Option String) (reference : Option TypeId)
    (h : name.mapM (requireType T.find? owner) = .ok reference) :
    T.Denotes name reference := by
  cases name with
  | none =>
      have hnone : none = reference := Except.ok.inj h
      exact hnone ▸ .none
  | some name =>
      obtain ⟨u, hu, hsome⟩ := bind_eq_ok_iff.mp h
      have hreference : some u = reference := Except.ok.inj hsome
      exact hreference ▸ .some (find?_of_requireType hu)

theorem forall₂_denotes_of_mapM_eq_ok
    {T : TypeTable} {owner : String} (names : List (Option String))
    (references : List (Option TypeId))
    (h : names.mapM (·.mapM (requireType T.find? owner)) = .ok references) :
    List.Forall₂ T.Denotes names references :=
  (forall₂_of_mapM_eq_ok h).imp denotes_of_mapM_eq_ok

end TypeTable

theorem TypeShape.deconstructors_of_resolve
    {require : String → Except LoadError TypeId}
    {s : TypeShape String} {r : TypeShape TypeId} (h : s.resolve require = .ok r) :
    s.deconstructors.mapM (·.mapM (·.mapM require)) = .ok r.deconstructors := by
  simp only [resolve, bind_eq_ok_iff] at h
  obtain ⟨_, _, _, _, _, _, _, _, deconstructors, hdeconstructors, hr⟩ := h
  rw [← Except.ok.inj hr]
  exact hdeconstructors

/-- An extension with its names resolved. -/
structure Extension.ResolvesTo
    (T : TypeTable) (e : Extension String) (r : Extension TypeId) : Prop where
  receiver : T.find? e.receiver = some r.receiver
  parameters : List.Forall₂ T.Denotes e.parameters r.parameters

theorem Extension.resolvesTo_of_resolve
    {T : TypeTable} (e : Extension String) (r : Extension TypeId)
    (h : e.resolve T.find? = .ok r) : e.ResolvesTo T r := by
  obtain ⟨receiver, hreceiver, h⟩ := bind_eq_ok_iff.mp h
  obtain ⟨parameters, hparameters, h⟩ := bind_eq_ok_iff.mp h
  rw [← Except.ok.inj h]
  exact ⟨find?_of_requireType hreceiver,
    TypeTable.forall₂_denotes_of_mapM_eq_ok _ _ hparameters⟩

/-- A method supplies what is declared if its elements are the resolved parameters. -/
theorem DeconstructMethod.supplies_of_forall₂
    {T : TypeTable} {m : DeconstructMethod} {names : List (Option String)}
    {references : List (Option TypeId)} (h : List.Forall₂ T.Denotes names references)
    (hlength : m.parameters.length = references.length + m.isExtension.toNat)
    (helement : ∀ index, m.elementType index = (references[index]?).join) :
    m.Supplies T names := by
  refine ⟨by rw [hlength, h.length_eq], ?_, ?_, ?_⟩
  · intro index name hname
    obtain ⟨reference, hreference, hdenotes⟩ := exists_right_of_forall₂ h hname
    cases hdenotes with
    | some hfind => exact ⟨_, hfind, by rw [helement, hreference]; rfl⟩
  · intro index hname
    obtain ⟨reference, hreference, hdenotes⟩ := exists_right_of_forall₂ h hname
    cases hdenotes
    rw [helement, hreference]
    rfl
  · intro index hle
    rw [helement, List.getElem?_eq_none (h.length_eq ▸ hle)]
    rfl

/-! ## Searching resolved lists -/

theorem exists_isFirst_of_find?
    {α β : Type} {R : α → β → Prop} {p : α → Prop} {q : β → Bool}
    {as : List α} {bs : List β}
    (h : List.Forall₂ R as bs) (hiff : ∀ a b, R a b → (p a ↔ q b = true))
    {b : β} (hfind : bs.find? q = some b) : ∃ a, IsFirst p as a ∧ R a b := by
  induction h with
  | nil => simp at hfind
  | @cons a c as bs hac hrest ih =>
      by_cases hq : q c = true
      · rw [List.find?_cons_of_pos hq, Option.some.injEq] at hfind
        subst hfind
        refine ⟨a, ⟨[], as, rfl, (hiff a c hac).mpr hq, ?_⟩, hac⟩
        simp
      · rw [List.find?_cons_of_neg hq] at hfind
        obtain ⟨first, ⟨before, after, rfl, hp, hbefore⟩, hR⟩ := ih hfind
        refine ⟨first, ⟨a :: before, after, rfl, hp, ?_⟩, hR⟩
        intro x hx
        rcases List.mem_cons.mp hx with rfl | hx
        · exact fun hpx => hq ((hiff x c hac).mp hpx)
        · exact hbefore x hx

/-! ## Deconstructors of the type and of its base types -/

namespace TypeTable

/-- The table has what the type declares, with the names resolved. -/
theorem Represents.forall₂_deconstructors
    {T : TypeTable} {s : Snapshot} (hT : T.Represents s.types) {c : TypeId}
    (hc : c < T.size) :
    List.Forall₂ (List.Forall₂ T.Denotes) (s.deconstructorsOf (T.name c))
      (T.entry c).deconstructors := by
  rw [Snapshot.deconstructorsOf]
  rcases hT.declared_cases hc with ⟨hbuiltin, hnone⟩ | ⟨d, hd, hholds⟩
  · have hbare : ∀ e ∈ builtinTypes, e.deconstructors = [] := by decide
    rw [hnone, hbare _ (List.mem_of_getElem? (hT.getElem?_builtinTypes hbuiltin))]
    exact .nil
  · rw [hd]
    have hresolve := TypeShape.deconstructors_of_resolve hholds.shape
    exact (forall₂_of_mapM_eq_ok hresolve).imp forall₂_denotes_of_mapM_eq_ok

theorem length_eq_iff_of_denotes
    {T : TypeTable} {arity : Nat} (names : List (Option String))
    (references : List (Option TypeId)) (h : List.Forall₂ T.Denotes names references) :
    names.length = arity ↔ (references.length == arity) = true := by
  rw [h.length_eq, beq_iff_eq]

section Instance

variable {T : TypeTable} {s : Snapshot} (hload : load s.types = .ok T) {t : TypeId}
  (ht : t < T.size) (arity : Nat)

include hload

theorem find?_deconstructors_eq_none_iff {c : TypeId} (hc : c < T.size) :
    (T.entry c).deconstructors.find? (·.length == arity) = none ↔
      ¬ s.Deconstructs (T.name c) arity := by
  have hdeclared := (represents_of_load hload).forall₂_deconstructors hc
  rw [find?_eq_none_iff_of_forall₂ hdeclared length_eq_iff_of_denotes, Snapshot.Deconstructs]
  simp

include ht

theorem findDeconstructor?_eq_none_iff :
    T.findDeconstructor? t arity = none ↔
      ¬ ∃ c, T.Inherits t c ∧ s.Deconstructs (T.name c) arity := by
  have hT := represents_of_load hload
  rw [findDeconstructor?, List.findSome?_eq_none_iff, not_exists]
  refine forall_congr' fun c => ?_
  rw [mem_baseChain_iff hload ht, not_and]
  refine imp_congr_right fun hc => ?_
  exact find?_deconstructors_eq_none_iff hload arity (hT.lt_size_of_inherits ht hc)

/-- What is found is the first declared on the nearest type that declares one. -/
theorem exists_first_of_findDeconstructor?
    {references : List (Option TypeId)}
    (h : T.findDeconstructor? t arity = some references) :
    ∃ c parameters, T.Nearest (fun u => s.Deconstructs (T.name u) arity) t c ∧
      IsFirst (·.length = arity) (s.deconstructorsOf (T.name c)) parameters ∧
      List.Forall₂ T.Denotes parameters references := by
  have hT := represents_of_load hload
  obtain ⟨c, hnearest, hc⟩ := exists_nearest_of_findSome? h
  have hlt : c < T.size := hT.lt_size_of_inherits ht hnearest.inherits
  obtain ⟨parameters, hfirst, hdenotes⟩ :=
    exists_isFirst_of_find? (hT.forall₂_deconstructors hlt) length_eq_iff_of_denotes hc
  refine ⟨c, parameters, hnearest.congr ?_, hfirst, hdenotes⟩
  intro u hu
  have hnone :=
    find?_deconstructors_eq_none_iff hload arity (hT.lt_size_of_inherits ht hu)
  rw [← not_iff_not, ← hnone, Option.not_isSome_iff_eq_none]

end Instance

end TypeTable

/-! ## Extensions, and the choice between the two -/

namespace Scope

theorem findMethod?_eq_some_iff
    {S : Scope} {t : TypeId} {arity : Nat} {m : DeconstructMethod} :
    S.findMethod? t arity = some m ↔
      (∃ references, S.types.findDeconstructor? t arity = some references ∧
        m = ⟨false, references⟩) ∨
      S.types.findDeconstructor? t arity = none ∧ ∃ e, m = e.method ∧
        S.extensions.find? (fun e =>
          e.parameters.length == arity && S.types.converts t e.receiver) = some e := by
  rw [findMethod?]
  cases S.types.findDeconstructor? t arity with
  | some references => simp [eq_comm]
  | none => simp [and_comm, eq_comm]

theorem findMethod?_eq_none_iff {S : Scope} {t : TypeId} {arity : Nat} :
    S.findMethod? t arity = none ↔
      S.types.findDeconstructor? t arity = none ∧
        S.extensions.find? (fun e =>
          e.parameters.length == arity && S.types.converts t e.receiver) = none := by
  rw [findMethod?]
  cases S.types.findDeconstructor? t arity with
  | some references => simp
  | none => simp only [Option.map_eq_none_iff, true_and]

end Scope

theorem Extension.fits_iff_of_resolvesTo
    (T : TypeTable) (t : TypeId) (arity : Nat) (e : Extension String) (r : Extension TypeId)
    (h : e.ResolvesTo T r) :
    e.Fits T t arity ↔ (r.parameters.length == arity && T.converts t r.receiver) = true := by
  rw [Fits, h.receiver, h.parameters.length_eq]
  simp

namespace Program

theorem IsLoadedFrom.forall₂_extensions
    {P : Program} {s : Snapshot} (hP : P.IsLoadedFrom s) :
    List.Forall₂ (Extension.ResolvesTo P.types) s.extensions P.scope.extensions := by
  obtain ⟨loaded, config, hload, rfl⟩ := hP
  exact (forall₂_of_mapM_eq_ok (parts_of_load hload).1).imp Extension.resolvesTo_of_resolve

/-- The deconstructor that is found is the one that the snapshot provides. -/
theorem IsLoadedFrom.deconstructor
    {P : Program} {s : Snapshot} (hP : P.IsLoadedFrom s) {t : TypeId}
    (ht : t < P.types.size) (arity : Nat) :
    s.ProvidesDeconstructor P.types t arity (P.scope.findMethod? t arity) := by
  have hload := hP.represents.types_eq
  have hextensions := hP.forall₂_extensions
  have hown := TypeTable.findDeconstructor?_eq_none_iff hload ht arity
  have hfits := Extension.fits_iff_of_resolvesTo P.types t arity
  refine ⟨⟨?_, ?_⟩, ?_, ?_, ?_⟩
  · rintro ⟨m, hm, hinstance⟩
    obtain ⟨references, hreferences, -⟩ | ⟨-, e, rfl, -⟩ := Scope.findMethod?_eq_some_iff.mp hm
    · by_contra hnone
      exact absurd ((hown.mpr hnone).symm.trans hreferences) (Option.some_ne_none _).symm
    · exact absurd hinstance.symm Bool.false_ne_true
  · intro hexists
    have hsome : P.types.findDeconstructor? t arity ≠ none :=
      fun hnone => hown.mp hnone hexists
    obtain ⟨references, hreferences⟩ := Option.ne_none_iff_exists'.mp hsome
    exact ⟨_, Scope.findMethod?_eq_some_iff.mpr (.inl ⟨references, hreferences, rfl⟩), rfl⟩
  · intro m hm hinstance
    obtain ⟨references, hreferences, rfl⟩ | ⟨-, e, rfl, -⟩ :=
      Scope.findMethod?_eq_some_iff.mp hm
    · obtain ⟨c, parameters, hnearest, hfirst, hdenotes⟩ :=
        TypeTable.exists_first_of_findDeconstructor? hload ht arity hreferences
      exact ⟨c, parameters, hnearest, hfirst,
        DeconstructMethod.supplies_of_forall₂ hdenotes rfl fun _ => rfl⟩
    · exact absurd hinstance.symm Bool.false_ne_true
  · intro m hm hextension
    obtain ⟨references, -, rfl⟩ | ⟨-, r, rfl, hr⟩ := Scope.findMethod?_eq_some_iff.mp hm
    · exact absurd hextension Bool.false_ne_true
    · obtain ⟨e, hfirst, hresolves⟩ := exists_isFirst_of_find? hextensions hfits hr
      exact ⟨e, hfirst,
        DeconstructMethod.supplies_of_forall₂ hresolves.parameters rfl fun _ => rfl⟩
  · rw [← hown, ← find?_eq_none_iff_of_forall₂ hextensions hfits]
    exact Scope.findMethod?_eq_none_iff

end Program

end ClosedSwitch
