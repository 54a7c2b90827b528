import ClosedSwitch.Proofs.Binding
import ClosedSwitch.Proofs.TypeTable.Declarations

/-!
# References stay within the table

Every number by which a loaded program refers to a type is the number of a type of
its table.  The references of types and extensions come from names, and looking a
name up never leads beyond the table.  The symbols of nodes come from names as well,
or from what types and extensions declare about their members.
-/

namespace ClosedSwitch

/-! ## References below a bound -/

/-- Where the reference is to a named type, the type is one of the first `n`. -/
def RefersWithin (n : Nat) (reference : Option TypeId) : Prop := ∀ t ∈ reference, t < n

/-- Every reference in what a type declares is to one of the first `n` types. -/
structure TypeShape.Within (n : Nat) (s : TypeShape TypeId) : Prop where
  base : RefersWithin n s.base
  interfaces : ∀ t ∈ s.interfaces, t < n
  constructors : ∀ c ∈ s.constructors, ∀ p ∈ c.parameters, RefersWithin n p
  properties : ∀ p ∈ s.properties, RefersWithin n p.type
  deconstructors : ∀ ps ∈ s.deconstructors, ∀ p ∈ ps, RefersWithin n p

structure Extension.Within (n : Nat) (e : Extension TypeId) : Prop where
  receiver : e.receiver < n
  parameters : ∀ p ∈ e.parameters, RefersWithin n p

def DeconstructMethod.Within (n : Nat) (m : DeconstructMethod) : Prop :=
  ∀ p ∈ m.parameters, RefersWithin n p

def Symbol.Within (n : Nat) : Symbol → Prop
  | .type t => t < n
  | .property t => RefersWithin n t
  | .deconstruct method => method.Within n
  | .value _ => True

/-- The type of a governing expression, or what a name refers to, is within the first
`n` types. -/
def NodeFact.Within (n : Nat) : NodeFact → Prop
  | .governing info _ => RefersWithin n info.type
  | .reference symbol => ∀ x ∈ symbol, x.Within n

theorem refersWithin_none (n : Nat) : RefersWithin n none := by
  intro t ht
  exact absurd ht (Option.not_mem_none t)

/-! ## References that are resolved -/

theorem refersWithin_of_mapM_eq_ok
    {n : Nat} {require : String → Except LoadError TypeId}
    (hrequire : ∀ name t, require name = .ok t → t < n)
    {name : Option String} {reference : Option TypeId}
    (h : name.mapM require = .ok reference) : RefersWithin n reference := by
  cases name with
  | none =>
      have hnone : none = reference := Except.ok.inj h
      exact hnone ▸ refersWithin_none n
  | some name =>
      obtain ⟨u, hu, hsome⟩ := bind_eq_ok_iff.mp h
      have hreference : some u = reference := Except.ok.inj hsome
      intro t ht
      rw [← hreference, Option.mem_some_iff] at ht
      exact ht ▸ hrequire name u hu

theorem TypeShape.within_of_resolve
    {n : Nat} {require : String → Except LoadError TypeId}
    (hrequire : ∀ name t, require name = .ok t → t < n)
    {s : TypeShape String} {r : TypeShape TypeId} (h : s.resolve require = .ok r) :
    r.Within n := by
  have hoption : ∀ (name : Option String) (reference : Option TypeId),
      name.mapM require = .ok reference → RefersWithin n reference :=
    fun _ _ => refersWithin_of_mapM_eq_ok hrequire
  simp only [resolve, bind_eq_ok_iff] at h
  obtain ⟨base, hbase, interfaces, hinterfaces, constructors, hconstructors, properties,
    hproperties, deconstructors, hdeconstructors, hr⟩ := h
  rw [← Except.ok.inj hr]
  refine ⟨hoption _ _ hbase, forall_mem_of_mapM_eq_ok hrequire hinterfaces, ?_, ?_, ?_⟩
  · refine forall_mem_of_mapM_eq_ok ?_ hconstructors
    intro c c' hc
    obtain ⟨parameters, hparameters, hc⟩ := bind_eq_ok_iff.mp hc
    rw [← Except.ok.inj hc]
    exact forall_mem_of_mapM_eq_ok hoption hparameters
  · refine forall_mem_of_mapM_eq_ok ?_ hproperties
    intro p p' hp
    obtain ⟨type, htype, hp⟩ := bind_eq_ok_iff.mp hp
    rw [← Except.ok.inj hp]
    exact hoption _ _ htype
  · exact forall_mem_of_mapM_eq_ok (fun _ _ => forall_mem_of_mapM_eq_ok hoption)
      hdeconstructors

theorem Extension.within_of_resolve
    {n : Nat} {find? : String → Option TypeId}
    (hfind : ∀ name t, find? name = some t → t < n)
    {e : Extension String} {r : Extension TypeId} (h : e.resolve find? = .ok r) :
    r.Within n := by
  have hrequire : ∀ owner name t, requireType find? owner name = .ok t → t < n :=
    fun _ name t ht => hfind name t (find?_of_requireType ht)
  obtain ⟨receiver, hreceiver, h⟩ := bind_eq_ok_iff.mp h
  obtain ⟨parameters, hparameters, h⟩ := bind_eq_ok_iff.mp h
  rw [← Except.ok.inj h]
  refine ⟨hrequire _ _ _ hreceiver, ?_⟩
  exact forall_mem_of_mapM_eq_ok
    (fun _ _ => refersWithin_of_mapM_eq_ok (hrequire e.receiver)) hparameters

namespace TypeTable

theorem Represents.lt_size_of_find?
    {T : TypeTable} {decls : List TypeDecl} (hT : T.Represents decls)
    (name : String) (t : TypeId) (h : T.find? name = some t) : t < T.size :=
  (hT.find?_eq_some_iff.mp h).1

/-- A type that declares nothing refers to nothing. -/
theorem within_of_builtin
    {e : TypeEntry} (h : e ∈ default :: builtinTypes) (n : Nat) : e.toTypeShape.Within n := by
  have hbare : ∀ e ∈ default :: builtinTypes, e.base = none ∧ e.interfaces = [] ∧
      e.constructors = [] ∧ e.properties = [] ∧ e.deconstructors = [] := by decide
  obtain ⟨hbase, hinterfaces, hconstructors, hproperties, hdeconstructors⟩ := hbare e h
  refine ⟨hbase ▸ refersWithin_none n, ?_, ?_, ?_, ?_⟩
  · simp [hinterfaces]
  · simp [hconstructors]
  · simp [hproperties]
  · simp [hdeconstructors]

theorem Represents.entry_within
    {T : TypeTable} {s : Snapshot} (hT : T.Represents s.types) (t : TypeId) :
    (T.entry t).toTypeShape.Within T.size := by
  by_cases ht : t < T.size
  · by_cases hbuiltin : t < builtinTypes.length
    · have hmem := List.mem_of_getElem? (hT.getElem?_builtinTypes hbuiltin)
      exact within_of_builtin (List.mem_cons_of_mem _ hmem) T.size
    · obtain ⟨d, -, hholds⟩ := hT.exists_holds (Nat.le_of_not_lt hbuiltin) ht
      refine TypeShape.within_of_resolve ?_ hholds.shape
      intro name u hu
      exact hT.lt_size_of_find? name u (find?_of_requireType hu)
  · rw [entry_of_size_le (Nat.le_of_not_lt ht)]
    exact within_of_builtin List.mem_cons_self T.size

end TypeTable

/-! ## Symbols -/

namespace Scope

/-- Looking up a name, a member or an extension never leads beyond the table. -/
structure Within (n : Nat) (S : Scope) : Prop where
  names : ∀ name t, S.types.find? name = some t → t < n
  entries : ∀ t, (S.types.entry t).toTypeShape.Within n
  extensions : ∀ e ∈ S.extensions, e.Within n

section Within

variable {n : Nat} {S : Scope} (h : S.Within n)

include h

theorem Within.typeSymbol?_within (name : String) :
    ∀ x ∈ S.typeSymbol? name, x.Within n := by
  intro x hx
  obtain ⟨t, ht, rfl⟩ := Option.map_eq_some_iff.mp hx
  exact h.names name t ht

theorem Within.findProperty?_within
    {t : TypeId} {name : String} {type : Option TypeId}
    (hfound : S.types.findProperty? t name = some type) : RefersWithin n type := by
  obtain ⟨u, -, hu⟩ := List.exists_of_findSome?_eq_some hfound
  obtain ⟨p, hp, rfl⟩ := Option.map_eq_some_iff.mp hu
  exact (h.entries u).properties p (List.mem_of_find?_eq_some hp)

theorem Within.findMethod?_within
    {t : TypeId} {arity : Nat} {method : DeconstructMethod}
    (hfound : S.findMethod? t arity = some method) : method.Within n := by
  rw [findMethod?] at hfound
  split at hfound
  next parameters hparameters =>
    obtain ⟨u, -, hu⟩ := List.exists_of_findSome?_eq_some hparameters
    rw [← Option.some.inj hfound]
    exact (h.entries u).deconstructors parameters (List.mem_of_find?_eq_some hu)
  · obtain ⟨e, he, rfl⟩ := Option.map_eq_some_iff.mp hfound
    have hwithin := h.extensions e (List.mem_of_find?_eq_some he)
    intro p hp
    rcases List.mem_cons.mp hp with rfl | hp
    · intro u hu
      rw [Option.mem_some_iff] at hu
      exact hu ▸ hwithin.receiver
    · exact hwithin.parameters p hp

end Within

end Scope

/-- The symbols that are known are within the first `n` types. -/
def SymbolsWithin (n : Nat) (symbols : List (Option Symbol)) : Prop :=
  ∀ symbol ∈ symbols, ∀ x ∈ symbol, x.Within n

theorem symbolsWithin_nil (n : Nat) : SymbolsWithin n [] := by
  intro symbol hsymbol
  exact absurd hsymbol List.not_mem_nil

theorem symbolsWithin_cons
    {n : Nat} {symbol : Option Symbol} {symbols : List (Option Symbol)}
    (hsymbol : ∀ x ∈ symbol, x.Within n) (hsymbols : SymbolsWithin n symbols) :
    SymbolsWithin n (symbol :: symbols) := by
  intro y hy
  rcases List.mem_cons.mp hy with rfl | hy
  · exact hsymbol
  · exact hsymbols y hy

theorem symbolsWithin_append
    {n : Nat} {front back : List (Option Symbol)}
    (hfront : SymbolsWithin n front) (hback : SymbolsWithin n back) :
    SymbolsWithin n (front ++ back) := by
  intro symbol hsymbol
  exact (List.mem_append.mp hsymbol).elim (hfront symbol) (hback symbol)

theorem symbolsWithin_typeSymbol?
    {n : Nat} {S : Scope} (h : S.Within n) (name : String) :
    SymbolsWithin n [S.typeSymbol? name] :=
  symbolsWithin_cons (h.typeSymbol?_within name) (symbolsWithin_nil n)

theorem symbolsWithin_constant
    {n : Nat} {S : Scope} (h : S.Within n) (c : DeclaredConstant) :
    SymbolsWithin n (c.symbols S) := by
  cases c with
  | name name => exact symbolsWithin_typeSymbol? h name
  | null => exact symbolsWithin_nil n
  | literal text => exact symbolsWithin_nil n

theorem symbolsWithin_nameSymbols
    {n : Nat} {S : Scope} (h : S.Within n) (name : Option String) :
    SymbolsWithin n (S.nameSymbols name) := by
  cases name with
  | none => exact symbolsWithin_nil n
  | some name => exact symbolsWithin_typeSymbol? h name

mutual

theorem symbolsWithin_pattern
    {n : Nat} {S : Scope} (h : S.Within n) (input : Option TypeId) (p : DeclaredPattern) :
    SymbolsWithin n (p.symbols S input) := by
  cases p with
  | constant value => exact symbolsWithin_constant h value
  | type name => exact symbolsWithin_typeSymbol? h name
  | declaration name designation => exact symbolsWithin_typeSymbol? h name
  | recursive name positional properties designation =>
      rw [Pattern.symbols]
      apply symbolsWithin_append
      · apply symbolsWithin_append (symbolsWithin_nameSymbols h name)
        exact symbolsWithin_positional h _ positional
      · exact symbolsWithin_properties h _ properties
  | discard => exact symbolsWithin_nil n
  | var designation => exact symbolsWithin_nil n
  | relational op value => exact symbolsWithin_constant h value
  | undescribed => exact symbolsWithin_nil n

theorem symbolsWithin_positional
    {n : Nat} {S : Scope} (h : S.Within n) (static : Option TypeId)
    (positional : Option (PositionalClause Unit DeclaredPattern)) :
    SymbolsWithin n (Pattern.positionalSymbols S static positional) := by
  rcases positional with _ | ⟨_, elements⟩
  · exact symbolsWithin_nil n
  · rw [Pattern.positionalSymbols]
    refine symbolsWithin_cons ?_ (symbolsWithin_elements h _ 0 elements)
    intro x hx
    obtain ⟨method, hmethod, rfl⟩ := Option.map_eq_some_iff.mp hx
    obtain ⟨t, -, ht⟩ := Option.bind_eq_some_iff.mp hmethod
    exact h.findMethod?_within ht

theorem symbolsWithin_properties
    {n : Nat} {S : Scope} (h : S.Within n) (static : Option TypeId)
    (properties : Option (List (MemberPattern String DeclaredPattern))) :
    SymbolsWithin n (Pattern.propertySymbols S static properties) := by
  rcases properties with _ | members
  · exact symbolsWithin_nil n
  · exact symbolsWithin_members h static members

theorem symbolsWithin_elements
    {n : Nat} {S : Scope} (h : S.Within n) (method : Option DeconstructMethod)
    (index : Nat) (ps : List DeclaredPattern) :
    SymbolsWithin n (Pattern.elementSymbols S method index ps) := by
  cases ps with
  | nil => exact symbolsWithin_nil n
  | cons p rest =>
      rw [Pattern.elementSymbols]
      exact symbolsWithin_append (symbolsWithin_pattern h _ p)
        (symbolsWithin_elements h method (index + 1) rest)

theorem symbolsWithin_members
    {n : Nat} {S : Scope} (h : S.Within n) (static : Option TypeId)
    (ps : List (MemberPattern String DeclaredPattern)) :
    SymbolsWithin n (Pattern.memberSymbols S static ps) := by
  rcases ps with _ | ⟨⟨name, p⟩, rest⟩
  · exact symbolsWithin_nil n
  · rw [Pattern.memberSymbols]
    refine symbolsWithin_cons ?_ (symbolsWithin_append (symbolsWithin_pattern h _ p)
      (symbolsWithin_members h static rest))
    intro x hx
    obtain ⟨type, htype, rfl⟩ := Option.map_eq_some_iff.mp hx
    obtain ⟨t, -, ht⟩ := Option.bind_eq_some_iff.mp htype
    exact h.findProperty?_within ht

end

theorem symbolsWithin_case
    {n : Nat} {S : Scope} (h : S.Within n) (input : Option TypeId) (c : DeclaredCase) :
    SymbolsWithin n (c.symbols S input) :=
  symbolsWithin_pattern h input c.pattern

theorem symbolsWithin_label
    {n : Nat} {S : Scope} (h : S.Within n) (input : Option TypeId) (l : DeclaredLabel) :
    SymbolsWithin n (l.symbols S input) := by
  cases l with
  | value constant span => exact symbolsWithin_constant h constant
  | case c => exact symbolsWithin_case h input c
  | otherwise span => exact symbolsWithin_nil n

theorem references_within
    {α : Type} {n : Nat} {symbols : α → List (Option Symbol)}
    (h : ∀ a, SymbolsWithin n (symbols a)) (parts : List α) :
    ∀ fact ∈ (parts.flatMap symbols).map NodeFact.reference, fact.Within n := by
  intro fact hfact
  obtain ⟨symbol, hsymbol, rfl⟩ := List.mem_map.mp hfact
  obtain ⟨a, -, ha⟩ := List.mem_flatMap.mp hsymbol
  exact h a symbol ha

/-- The type of a governing expression and the symbols of the cases are within the
table. -/
theorem SwitchDecl.facts_within
    {n : Nat} {S : Scope} (h : S.Within n) (d : SwitchDecl) :
    ∀ fact ∈ d.facts S, fact.Within n := by
  have hgoverning : RefersWithin n (d.governing.staticType S) := by
    intro t ht
    obtain ⟨name, -, hname⟩ := Option.bind_eq_some_iff.mp ht
    exact h.names name t hname
  intro fact hfact
  rcases List.mem_cons.mp hfact with rfl | hfact
  · exact hgoverning
  · cases d with
    | expression span g arms =>
        exact references_within (symbolsWithin_case h _) arms fact hfact
    | statement span g sections =>
        exact references_within (symbolsWithin_label h _) sections.flatten fact hfact

/-! ## Loaded programs -/

namespace Program

theorem IsLoadedFrom.scope_within
    {P : Program} {s : Snapshot} (hP : P.IsLoadedFrom s) : P.scope.Within P.types.size := by
  have hT := hP.represents.types
  refine ⟨hT.lt_size_of_find?, hT.entry_within, ?_⟩
  obtain ⟨loaded, config, hload, rfl⟩ := hP
  exact forall_mem_of_mapM_eq_ok
    (fun _ _ => Extension.within_of_resolve hT.lt_size_of_find?) (parts_of_load hload).1

/-- What is known about a node refers to types of the table only. -/
theorem IsLoadedFrom.node_within
    {P : Program} {s : Snapshot} (hP : P.IsLoadedFrom s)
    {node : NodeId} {fact : NodeFact} (hfact : P.nodes[node]? = some fact) :
    fact.Within P.types.size := by
  rw [hP.represents.nodes_eq, List.getElem?_toArray] at hfact
  obtain ⟨f, -, hf⟩ := List.mem_flatMap.mp (List.mem_of_getElem? hfact)
  obtain ⟨d, -, hd⟩ := List.mem_flatMap.mp hf
  exact d.facts_within hP.scope_within fact hd

end Program

end ClosedSwitch
