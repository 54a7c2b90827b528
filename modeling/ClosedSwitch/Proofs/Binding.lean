import ClosedSwitch.Program.Load
import ClosedSwitch.Proofs.TypeTable.Load

/-!
# Reading bound nodes back

Loading numbers the nodes of a snapshot and lists the facts about them in the
same order.  Since every part takes exactly as many numbers as it contributes
facts, the nodes of a part read back the facts of that part, whatever stands
before and after it.
-/

namespace ClosedSwitch

/-! ## Runs of nodes -/

/-- Reading the nodes from `next` on gives the listed values. -/
def ReadsFrom {β : Type} (read : NodeId → β) (next : NodeId) : List β → Prop
  | [] => True
  | value :: rest => read next = value ∧ ReadsFrom read (next + 1) rest

theorem readsFrom_append
    {β : Type} {read : NodeId → β} {next : NodeId} {front back : List β} :
    ReadsFrom read next (front ++ back) ↔
      ReadsFrom read next front ∧ ReadsFrom read (next + front.length) back := by
  induction front generalizing next with
  | nil => simp [ReadsFrom]
  | cons value front ih =>
      simp only [List.cons_append, ReadsFrom, ih, List.length_cons, and_assoc,
        Nat.add_assoc, Nat.add_comm 1 front.length]

theorem readsFrom_map
    {β γ : Type} {read : NodeId → β} (view : β → γ)
    {next : NodeId} {values : List β} (h : ReadsFrom read next values) :
    ReadsFrom (fun node => view (read node)) next (values.map view) := by
  induction values generalizing next with
  | nil => trivial
  | cons value rest ih => exact ⟨congrArg view h.1, ih h.2⟩

theorem readsFrom_toArray
    {β : Type} (front values : List β) :
    ReadsFrom (fun node => (front ++ values).toArray[node]?)
      front.length (values.map some) := by
  induction values generalizing front with
  | nil => trivial
  | cons value rest ih =>
      refine ⟨by simp, ?_⟩
      have hrest := ih (front ++ [value])
      simpa using hrest

/-- A list whose parts are numbered one after another is related part by part to
its declaration, if each part is whenever its own nodes are read. -/
theorem forall₂_numberEach
    {α β γ : Type} {R : α → γ → Prop} {read : NodeId → β}
    {values : α → List β} {count : α → Nat} {number : NodeId → α → γ}
    (hlength : ∀ a, (values a).length = count a)
    (hpart : ∀ a next, ReadsFrom read next (values a) → R a (number next a))
    {next : NodeId} {parts : List α}
    (h : ReadsFrom read next (parts.flatMap values)) :
    List.Forall₂ R parts (numberEach count number next parts) := by
  induction parts generalizing next with
  | nil => exact List.Forall₂.nil
  | cons a rest ih =>
      rw [List.flatMap_cons, readsFrom_append, hlength] at h
      exact List.Forall₂.cons (hpart a next h.1) (ih h.2)

theorem length_flatMap_eq_totalCount
    {α β : Type} {values : α → List β} {count : α → Nat}
    (hlength : ∀ a, (values a).length = count a) (parts : List α) :
    (parts.flatMap values).length = totalCount count parts := by
  induction parts with
  | nil => rfl
  | cons a rest ih =>
      rw [List.flatMap_cons, List.length_append, hlength, ih, totalCount]

/-! ## Every name and clause has one symbol -/

theorem Constant.length_symbols (S : Scope) (c : DeclaredConstant) :
    (c.symbols S).length = c.nodeCount := by
  cases c <;> rfl

theorem Scope.length_nameSymbols (S : Scope) (name : Option String) :
    (S.nameSymbols name).length = nameNodeCount name := by
  cases name <;> rfl

namespace Pattern

mutual

theorem length_symbols
    (S : Scope) (input : Option TypeId) (p : DeclaredPattern) :
    (p.symbols S input).length = p.nodeCount := by
  cases p with
  | constant value => exact value.length_symbols S
  | type name => rfl
  | declaration name designation => rfl
  | recursive name positional properties designation =>
      rw [symbols, nodeCount, List.length_append, List.length_append,
        S.length_nameSymbols name, length_positionalSymbols S _ positional,
        length_propertySymbols S _ properties]
  | discard => rfl
  | var designation => rfl
  | relational op value => exact value.length_symbols S
  | undescribed => rfl

theorem length_positionalSymbols
    (S : Scope) (static : Option TypeId)
    (positional : Option (PositionalClause Unit DeclaredPattern)) :
    (positionalSymbols S static positional).length =
      positionalNodeCount positional := by
  rcases positional with _ | ⟨_, elements⟩
  · rfl
  · rw [positionalSymbols, List.length_cons, length_elementSymbols S _ 0 elements,
      positionalNodeCount, Nat.add_comm]

theorem length_propertySymbols
    (S : Scope) (static : Option TypeId)
    (properties : Option (List (MemberPattern String DeclaredPattern))) :
    (propertySymbols S static properties).length = propertyNodeCount properties := by
  rcases properties with _ | members
  · rfl
  · exact length_memberSymbols S static members

theorem length_elementSymbols
    (S : Scope) (method : Option DeconstructMethod) (index : Nat)
    (ps : List DeclaredPattern) :
    (elementSymbols S method index ps).length = elementNodeCount ps := by
  cases ps with
  | nil => rfl
  | cons p rest =>
      rw [elementSymbols, List.length_append, length_symbols S _ p,
        length_elementSymbols S method (index + 1) rest, elementNodeCount]

theorem length_memberSymbols
    (S : Scope) (static : Option TypeId)
    (ps : List (MemberPattern String DeclaredPattern)) :
    (memberSymbols S static ps).length = memberNodeCount ps := by
  rcases ps with _ | ⟨⟨name, p⟩, rest⟩
  · rfl
  · rw [memberSymbols, List.length_cons, List.length_append,
      length_symbols S _ p, length_memberSymbols S static rest, memberNodeCount]
    omega

end

end Pattern

theorem Case.length_symbols
    (S : Scope) (input : Option TypeId) (c : DeclaredCase) :
    (c.symbols S input).length = c.nodeCount :=
  c.pattern.length_symbols S input

theorem Label.length_symbols
    (S : Scope) (input : Option TypeId) (l : DeclaredLabel) :
    (l.symbols S input).length = l.nodeCount := by
  cases l with
  | value constant span => exact constant.length_symbols S
  | case c => exact c.length_symbols S input
  | otherwise span => rfl

theorem SwitchDecl.length_facts (S : Scope) (d : SwitchDecl) :
    (d.facts S).length = d.nodeCount := by
  cases d with
  | expression span g arms =>
      simp only [facts, nodeCount, List.length_cons, List.length_map]
      rw [length_flatMap_eq_totalCount (Case.length_symbols S _) arms, Nat.add_comm]
  | statement span g sections =>
      simp only [facts, nodeCount, List.length_cons, List.length_map, flatMap_flatten]
      rw [length_flatMap_eq_totalCount
        (length_flatMap_eq_totalCount (Label.length_symbols S _)) sections, Nat.add_comm]

theorem FileDecl.length_facts (S : Scope) (f : FileDecl) :
    (f.facts S).length = f.nodeCount :=
  length_flatMap_eq_totalCount (SwitchDecl.length_facts S) f.switches

/-! ## Loaded programs -/

namespace Program

/-- A snapshot loads as a program, which is then looked at under some
configuration. -/
def IsLoadedFrom (P : Program) (s : Snapshot) : Prop :=
  ∃ loaded config, load s = .ok loaded ∧ P = loaded.withConfig config

/-- The program that a snapshot loads as, or else one without types and files. -/
def ofSnapshot (s : Snapshot) : Program :=
  match load s with
  | .ok P => P
  | .error _ => ⟨⟨⟨#[]⟩, []⟩, [], #[], [], {}⟩

theorem isLoadedFrom_ofSnapshot
    {s : Snapshot} (h : (load s).isOk = true) : (ofSnapshot s).IsLoadedFrom s := by
  cases hload : load s with
  | error e =>
      rw [hload] at h
      exact absurd h Bool.false_ne_true
  | ok P =>
      refine ⟨P, P.config, hload, ?_⟩
      rw [ofSnapshot, hload]
      rfl

/-- A program with the types of a snapshot, its files with their nodes numbered
from zero on, and the fact about each node at its number. -/
structure Represents (P : Program) (s : Snapshot) : Prop where
  types_eq : TypeTable.load s.types = .ok P.types
  files_eq : P.files = numberEach FileDecl.nodeCount FileDecl.number 0 s.files
  nodes_eq : P.nodes = (s.files.flatMap (FileDecl.facts P.scope)).toArray

theorem represents_of_load
    {s : Snapshot} {P : Program} (h : load s = .ok P) : P.Represents s := by
  obtain ⟨types, htypes, h⟩ := bind_eq_ok_iff.mp h
  obtain ⟨extensions, _, h⟩ := bind_eq_ok_iff.mp h
  split at h
  · simp at h
  · obtain ⟨diagnostics, _, h⟩ := bind_eq_ok_iff.mp h
    simp only [pure, Except.pure, Except.ok.injEq] at h
    subst h
    exact ⟨htypes, rfl, rfl⟩

/-- Extensions and diagnostics are resolved one by one. -/
theorem parts_of_load
    {s : Snapshot} {P : Program} (h : load s = .ok P) :
    s.extensions.mapM (Extension.resolve P.types.find?) = .ok P.scope.extensions ∧
      s.diagnostics.mapM (DiagnosticDecl.resolve (s.files.map (·.path))) = .ok P.diagnostics := by
  obtain ⟨types, htypes, h⟩ := bind_eq_ok_iff.mp h
  obtain ⟨extensions, hextensions, h⟩ := bind_eq_ok_iff.mp h
  split at h
  · simp at h
  · obtain ⟨diagnostics, hdiagnostics, h⟩ := bind_eq_ok_iff.mp h
    rw [← Except.ok.inj h]
    exact ⟨hextensions, hdiagnostics⟩

theorem Represents.types
    {P : Program} {s : Snapshot} (h : P.Represents s) :
    P.types.Represents s.types :=
  TypeTable.represents_of_load h.types_eq

theorem IsLoadedFrom.represents
    {P : Program} {s : Snapshot} (h : P.IsLoadedFrom s) : P.Represents s := by
  obtain ⟨loaded, config, hload, rfl⟩ := h
  obtain ⟨htypes, hfiles, hnodes⟩ := represents_of_load hload
  exact ⟨htypes, hfiles, hnodes⟩

theorem represents_withConfig
    {P : Program} {s : Snapshot} (h : load s = .ok P) (config : Config) :
    (P.withConfig config).Represents s :=
  IsLoadedFrom.represents ⟨P, config, h, rfl⟩

/-- Types and extensions are all that a scope is made from. -/
theorem IsLoadedFrom.scope_eq
    {P P' : Program} {s s' : Snapshot} (hP : P.IsLoadedFrom s) (hP' : P'.IsLoadedFrom s')
    (htypes : s'.types = s.types) (hextensions : s'.extensions = s.extensions) :
    P'.scope = P.scope := by
  obtain ⟨loaded, config, hload, rfl⟩ := hP
  obtain ⟨loaded', config', hload', rfl⟩ := hP'
  have hsame := (represents_of_load hload').types_eq
  rw [htypes, (represents_of_load hload).types_eq, Except.ok.injEq] at hsame
  have hsame' := (parts_of_load hload').1
  rw [hextensions, ← hsame, (parts_of_load hload).1, Except.ok.injEq] at hsame'
  change Scope.mk loaded'.types loaded'.scope.extensions = _
  rw [← hsame, ← hsame']
  rfl

/-- What is known about a node, if there is one with that number. -/
def fact? (P : Program) (node : NodeId) : Option NodeFact := P.nodes[node]?

theorem Represents.readsFrom
    {P : Program} {s : Snapshot} (h : P.Represents s) :
    ReadsFrom P.fact? 0
      (s.files.flatMap fun f => (f.facts P.scope).map some) := by
  have hread := readsFrom_toArray [] (s.files.flatMap (FileDecl.facts P.scope))
  rw [List.nil_append, List.map_flatMap, ← h.nodes_eq] at hread
  exact hread

/-- A relation between declared and bound files holds throughout a program if it
holds of every file whose nodes read back its own facts. -/
theorem Represents.forall₂_files
    {P : Program} {s : Snapshot} (h : P.Represents s)
    {R : FileDecl → SourceFile → Prop}
    (hfile : ∀ f next,
      ReadsFrom P.fact? next ((f.facts P.scope).map some) → R f (f.number next)) :
    List.Forall₂ R s.files P.files := by
  rw [h.files_eq]
  refine forall₂_numberEach ?_ hfile h.readsFrom
  intro f
  rw [List.length_map, f.length_facts]

/-- A relation between declared and bound switches holds throughout a file if it
holds of every switch whose nodes read back its own facts. -/
theorem forall₂_switches_number
    {P : Program} {R : SwitchDecl → Switch → Prop}
    (hswitch : ∀ d next,
      ReadsFrom P.fact? next ((d.facts P.scope).map some) → R d (d.number next))
    {f : FileDecl} {next : NodeId}
    (h : ReadsFrom P.fact? next ((f.facts P.scope).map some)) :
    List.Forall₂ R f.switches (f.number next).switches := by
  rw [FileDecl.facts, List.map_flatMap] at h
  refine forall₂_numberEach ?_ hswitch h
  intro d
  rw [List.length_map, d.length_facts]

theorem Represents.forall₂_switches
    {P : Program} {s : Snapshot} (h : P.Represents s)
    {R : SwitchDecl → Switch → Prop}
    (hswitch : ∀ d next,
      ReadsFrom P.fact? next ((d.facts P.scope).map some) → R d (d.number next)) :
    List.Forall₂ (fun f file => List.Forall₂ R f.switches file.switches)
      s.files P.files :=
  h.forall₂_files fun _ _ hfile => forall₂_switches_number hswitch hfile

/-- The governing node of a switch carries what is declared about it, and the
other nodes carry the symbols of its cases. -/
theorem readsFrom_switch
    {P : Program} {d : SwitchDecl} {next : NodeId} {symbols : List (Option Symbol)}
    (hfacts : d.facts P.scope =
      .governing ⟨d.governing.staticType P.scope, d.governing.nullability⟩
        d.governing.symbol :: symbols.map .reference)
    (h : ReadsFrom P.fact? next ((d.facts P.scope).map some)) :
    P.typeInfo next =
        ⟨d.governing.staticType P.scope, d.governing.nullability⟩ ∧
      P.symbol? next = d.governing.symbol.map .value ∧
      ReadsFrom P.symbol? (next + 1) symbols := by
  rw [hfacts, List.map_cons, ReadsFrom] at h
  obtain ⟨hgoverning, hsymbols⟩ := h
  have hview := readsFrom_map (fun fact => fact.bind NodeFact.symbol?) hsymbols
  refine ⟨?_, ?_, ?_⟩
  · rw [typeInfo, ← fact?, hgoverning]
    rfl
  · rw [symbol?, ← fact?, hgoverning]
    rfl
  · have hmap : ((symbols.map NodeFact.reference).map some).map
        (fun fact => fact.bind NodeFact.symbol?) = symbols := by
      simp [Function.comp_def, NodeFact.symbol?]
    rw [hmap] at hview
    exact hview

end Program

end ClosedSwitch
