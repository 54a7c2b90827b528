import ClosedSwitch.Proofs.Binding

/-!
# Every node has one number

Written down switch by switch, the nodes of a loaded program are `0, 1, 2, …` up to the
number of nodes, so no two places share one.  Of these nodes the governing ones have a
recorded type and the others have none.
-/

namespace ClosedSwitch

/-! ## The nodes of bound syntax -/

def Constant.nodes : BoundConstant → List NodeId
  | .name node => [node]
  | _ => []

namespace Pattern

mutual

/-- The nodes of a pattern in the order of writing: the type name, the positional clause
with its elements, and each member followed by its pattern. -/
def nodes : BoundPattern → List NodeId
  | .constant value => value.nodes
  | .type node => [node]
  | .declaration node _ => [node]
  | .recursive name positional properties _ =>
    name.toList ++ positionalNodes positional ++ propertyNodes properties
  | .relational _ value => value.nodes
  | .discard => []
  | .var _ => []
  | .undescribed => []

def positionalNodes : Option (PositionalClause NodeId BoundPattern) → List NodeId
  | none => []
  | some ⟨node, elements⟩ => node :: elementNodes elements

def propertyNodes : Option (List (MemberPattern NodeId BoundPattern)) → List NodeId
  | none => []
  | some members => memberNodes members

def elementNodes : List BoundPattern → List NodeId
  | [] => []
  | p :: rest => nodes p ++ elementNodes rest

def memberNodes : List (MemberPattern NodeId BoundPattern) → List NodeId
  | [] => []
  | ⟨node, p⟩ :: rest => node :: (nodes p ++ memberNodes rest)

end

end Pattern

def Case.nodes (c : BoundCase) : List NodeId := c.pattern.nodes

def Label.nodes : BoundLabel → List NodeId
  | .value constant _ => constant.nodes
  | .case c => c.nodes
  | .otherwise _ => []

namespace Switch

def governingNode : Switch → NodeId
  | .expression e => e.governing.node
  | .statement s => s.governing.node

def caseNodes : Switch → List NodeId
  | .expression e => e.arms.flatMap Case.nodes
  | .statement s => s.sections.flatMap (·.flatMap Label.nodes)

/-- The governing node, then the nodes of the cases. -/
def nodes (switch : Switch) : List NodeId := switch.governingNode :: switch.caseNodes

end Switch

def SourceFile.nodes (f : SourceFile) : List NodeId := f.switches.flatMap Switch.nodes

namespace Program

/-- The nodes of all files in the order of writing. -/
def listedNodes (P : Program) : List NodeId := P.files.flatMap SourceFile.nodes

def governingNodes (P : Program) : List NodeId :=
  P.files.flatMap fun f => f.switches.map Switch.governingNode

/-- What is recorded about the type of a node, if anything is. -/
def typeInfo? (P : Program) (node : NodeId) : Option TypeInfo :=
  (P.fact? node).bind NodeFact.typeInfo?

end Program

/-! ## Nodes are numbered in the order of writing -/

theorem flatMap_numberEach
    {α γ : Type} {nodes : γ → List NodeId} {count : α → Nat} {number : NodeId → α → γ}
    (hpart : ∀ next a, nodes (number next a) = List.range' next (count a))
    (next : NodeId) (parts : List α) :
    (numberEach count number next parts).flatMap nodes =
      List.range' next (totalCount count parts) := by
  induction parts generalizing next with
  | nil => rfl
  | cons a rest ih =>
      rw [numberEach, List.flatMap_cons, hpart, ih, List.range'_append_1, totalCount]

theorem Constant.nodes_number (next : NodeId) (c : DeclaredConstant) :
    (c.number next).nodes = List.range' next c.nodeCount := by
  cases c <;> rfl

namespace Pattern

mutual

theorem nodes_number (next : NodeId) (p : DeclaredPattern) :
    (p.number next).nodes = List.range' next p.nodeCount := by
  cases p with
  | constant value => exact value.nodes_number next
  | type name => rfl
  | declaration name designation => rfl
  | recursive name positional properties designation =>
      have hname : (name.map fun _ => next).toList =
          List.range' next (nameNodeCount name) := by
        cases name <;> rfl
      rw [number, nodes, hname, positionalNodes_number, propertyNodes_number,
        List.range'_append_1, Nat.add_assoc, List.range'_append_1, nodeCount]
  | discard => rfl
  | var designation => rfl
  | relational op value => exact value.nodes_number next
  | undescribed => rfl

theorem positionalNodes_number
    (next : NodeId) (positional : Option (PositionalClause Unit DeclaredPattern)) :
    positionalNodes (numberPositional next positional) =
      List.range' next (positionalNodeCount positional) := by
  rcases positional with _ | ⟨_, elements⟩
  · rfl
  · rw [numberPositional, positionalNodes, elementNodes_number, positionalNodeCount,
      Nat.add_comm 1, List.range'_succ]

theorem propertyNodes_number
    (next : NodeId) (properties : Option (List (MemberPattern String DeclaredPattern))) :
    propertyNodes (numberProperties next properties) =
      List.range' next (propertyNodeCount properties) := by
  rcases properties with _ | members
  · rfl
  · exact memberNodes_number next members

theorem elementNodes_number (next : NodeId) (ps : List DeclaredPattern) :
    elementNodes (numberElements next ps) = List.range' next (elementNodeCount ps) := by
  rcases ps with _ | ⟨p, rest⟩
  · rfl
  · rw [numberElements, elementNodes, nodes_number, elementNodes_number,
      List.range'_append_1, elementNodeCount]

theorem memberNodes_number
    (next : NodeId) (ps : List (MemberPattern String DeclaredPattern)) :
    memberNodes (numberMembers next ps) = List.range' next (memberNodeCount ps) := by
  rcases ps with _ | ⟨⟨name, p⟩, rest⟩
  · rfl
  · rw [numberMembers, memberNodes, nodes_number, memberNodes_number,
      List.range'_append_1, memberNodeCount, Nat.add_assoc, Nat.add_comm 1,
      List.range'_succ]

end

end Pattern

theorem Label.nodes_number (next : NodeId) (l : DeclaredLabel) :
    (l.number next).nodes = List.range' next l.nodeCount := by
  cases l with
  | value constant span => exact constant.nodes_number next
  | case c => exact c.pattern.nodes_number next
  | otherwise span => rfl

theorem SwitchDecl.caseNodes_number (next : NodeId) (d : SwitchDecl) :
    (d.number next).caseNodes = List.range' (next + 1) (d.nodeCount - 1) := by
  cases d with
  | expression span g arms =>
      rw [nodeCount, Nat.add_sub_cancel_left]
      exact flatMap_numberEach (fun next c => c.pattern.nodes_number next) (next + 1) arms
  | statement span g sections =>
      rw [nodeCount, Nat.add_sub_cancel_left]
      exact flatMap_numberEach (flatMap_numberEach Label.nodes_number) (next + 1) sections

theorem SwitchDecl.governingNode_number (next : NodeId) (d : SwitchDecl) :
    (d.number next).governingNode = next := by
  cases d <;> rfl

theorem SwitchDecl.nodeCount_pos (d : SwitchDecl) : 0 < d.nodeCount := by
  cases d with
  | expression span g arms => exact Nat.lt_add_right _ Nat.zero_lt_one
  | statement span g sections => exact Nat.lt_add_right _ Nat.zero_lt_one

theorem SwitchDecl.nodes_number (next : NodeId) (d : SwitchDecl) :
    (d.number next).nodes = List.range' next d.nodeCount := by
  rw [Switch.nodes, d.governingNode_number, d.caseNodes_number, ← List.range'_succ,
    Nat.sub_add_cancel d.nodeCount_pos]

theorem FileDecl.nodes_number (next : NodeId) (f : FileDecl) :
    (f.number next).nodes = List.range' next f.nodeCount :=
  flatMap_numberEach SwitchDecl.nodes_number next f.switches

theorem Program.Represents.listedNodes_eq
    {P : Program} {s : Snapshot} (h : P.Represents s) :
    P.listedNodes = List.range P.nodes.size := by
  have hsize : P.nodes.size = totalCount FileDecl.nodeCount s.files := by
    rw [h.nodes_eq, List.size_toArray,
      length_flatMap_eq_totalCount (FileDecl.length_facts P.scope)]
  rw [listedNodes, h.files_eq, flatMap_numberEach FileDecl.nodes_number, hsize,
    List.range_eq_range']

/-! ## Only governing nodes have a type -/

theorem forall_range'_of_readsFrom
    {β : Type} {read : NodeId → β} {next : NodeId} {values : List β} {p : β → Prop}
    (h : ReadsFrom read next values) (hvalues : ∀ value ∈ values, p value) :
    ∀ node ∈ List.range' next values.length, p (read node) := by
  induction values generalizing next with
  | nil => simp
  | cons value rest ih =>
      obtain ⟨hhead, hrest⟩ := h
      rw [List.forall_mem_cons] at hvalues
      rw [List.length_cons, List.range'_succ, List.forall_mem_cons, hhead]
      exact ⟨hvalues.1, ih hrest hvalues.2⟩

namespace Program

/-- The governing node of a switch has a recorded type, and the nodes of the cases have
none. -/
structure GoverningHasType (P : Program) (switch : Switch) : Prop where
  governing : (P.typeInfo? switch.governingNode).isSome = true
  cases : ∀ node ∈ switch.caseNodes, P.typeInfo? node = none

theorem governingHasType_number
    {P : Program} {d : SwitchDecl} {next : NodeId}
    (h : ReadsFrom P.fact? next ((d.facts P.scope).map some)) :
    P.GoverningHasType (d.number next) := by
  obtain ⟨symbols, hfacts⟩ : ∃ symbols : List (Option Symbol), d.facts P.scope =
      .governing ⟨d.governing.staticType P.scope, d.governing.nullability⟩
        d.governing.symbol :: symbols.map .reference := ⟨_, rfl⟩
  have hcount : (((symbols.map NodeFact.reference).map some).length) = d.nodeCount - 1 := by
    rw [← d.length_facts P.scope, hfacts, List.length_cons, List.length_map,
      Nat.add_sub_cancel]
  rw [hfacts, List.map_cons, ReadsFrom] at h
  obtain ⟨hgoverning, hreferences⟩ := h
  constructor
  · rw [d.governingNode_number, typeInfo?, hgoverning]
    rfl
  · rw [d.caseNodes_number, ← hcount]
    apply forall_range'_of_readsFrom (p := fun fact => fact.bind NodeFact.typeInfo? = none)
      hreferences
    intro fact hfact
    obtain ⟨reference, hreference, rfl⟩ := List.mem_map.mp hfact
    obtain ⟨symbol, -, rfl⟩ := List.mem_map.mp hreference
    rfl

theorem Represents.governingHasType
    {P : Program} {s : Snapshot} (h : P.Represents s) {f : SourceFile} (hf : f ∈ P.files)
    {switch : Switch} (hswitch : switch ∈ f.switches) :
    P.GoverningHasType switch := by
  have hfiles := h.forall₂_switches (R := fun _ switch => P.GoverningHasType switch)
    fun d next => governingHasType_number
  obtain ⟨i, hi⟩ := List.getElem?_of_mem hf
  obtain ⟨j, hj⟩ := List.getElem?_of_mem hswitch
  obtain ⟨_, _, hswitches⟩ := exists_left_of_forall₂ hfiles hi
  obtain ⟨_, _, hgoverning⟩ := exists_left_of_forall₂ hswitches hj
  exact hgoverning

theorem lt_size_of_fact?_bind
    {P : Program} {node : NodeId} {α : Type} {view : NodeFact → Option α} {a : α}
    (h : (P.fact? node).bind view = some a) : node < P.nodes.size := by
  obtain ⟨fact, hfact, -⟩ := Option.bind_eq_some_iff.mp h
  exact (Array.getElem?_eq_some_iff.mp hfact).1

theorem Represents.isSome_typeInfo?_iff
    {P : Program} {s : Snapshot} (h : P.Represents s) (node : NodeId) :
    (P.typeInfo? node).isSome = true ↔ node ∈ P.governingNodes := by
  simp only [governingNodes, List.mem_flatMap, List.mem_map]
  constructor
  · intro hsome
    obtain ⟨info, hinfo⟩ := Option.isSome_iff_exists.mp hsome
    have hlisted : node ∈ P.listedNodes := by
      rw [h.listedNodes_eq, List.mem_range]
      exact lt_size_of_fact?_bind hinfo
    obtain ⟨f, hf, hnode⟩ := List.mem_flatMap.mp hlisted
    obtain ⟨switch, hswitch, hnode⟩ := List.mem_flatMap.mp hnode
    rcases List.mem_cons.mp hnode with rfl | hcase
    · exact ⟨f, hf, switch, hswitch, rfl⟩
    · rw [(h.governingHasType hf hswitch).cases node hcase] at hinfo
      simp at hinfo
  · rintro ⟨f, hf, switch, hswitch, rfl⟩
    exact (h.governingHasType hf hswitch).governing

theorem Represents.mem_listedNodes_of_symbol?
    {P : Program} {s : Snapshot} (h : P.Represents s) {node : NodeId} {x : Symbol}
    (hx : P.symbol? node = some x) : node ∈ P.listedNodes := by
  rw [h.listedNodes_eq, List.mem_range]
  exact lt_size_of_fact?_bind hx

end Program

end ClosedSwitch
