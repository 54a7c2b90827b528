import ClosedSwitch.Proofs.Coverage.Contexts
import ClosedSwitch.Proofs.Suppression.Declared
import ClosedSwitch.Proofs.TypeTable.Deconstructors

/-!
# Static types inside patterns

Names inside a pattern are bound on the static type of the value that the pattern around
them is applied to.  A sub-pattern is applied to an element or member of that value, so
static types follow from one another from the governing expression down.  The nodes of a
loaded program lead back to them: what the node of a clause says about its elements is the
static type on which each element was bound.
-/

namespace ClosedSwitch

/-! ## Static types at a place -/

/-- Where a sub-pattern stands in the clauses of a recursive pattern. -/
inductive Place where
  | element (index : Nat)
  | member (index : Nat)

variable {ν κ : Type}

def PatternFrame.place : PatternFrame ν κ → Place
  | .element _ _ before _ _ _ => .element before.length
  | .property _ _ before _ _ _ => .member before.length

/-- The way from the top of a pattern to the hole. -/
def PatternContext.path : PatternContext ν κ → List Place
  | .hole => []
  | .inside frame inner => frame.place :: inner.path

namespace Scope

/-- The static type of the element or member that the missing sub-pattern is applied to,
where the recursive pattern is applied to a value of static type `input`. -/
def frameInput (S : Scope) (input : Option TypeId) :
    PatternFrame String Unit → Option TypeId
  | .element name _ before after _ _ =>
    ((S.narrow name input).bind (S.findMethod? · (before.length + (after.length + 1)))).bind
      (·.elementType before.length)
  | .property name _ _ member _ _ =>
    ((S.narrow name input).bind (S.types.findProperty? · member)).join

/-- The static type of the value that the sub-pattern in the hole is applied to. -/
def contextInput (S : Scope) (input : Option TypeId) :
    PatternContext String Unit → Option TypeId
  | .hole => input
  | .inside frame inner => S.contextInput (S.frameInput input frame) inner

end Scope

/-! ## Binding inside a frame -/

namespace Program

/-- `p'` is `p` with numbered nodes, which have the symbols of `p` on a value of static type
`input`. -/
def BoundOn
    (P : Program) (input : Option TypeId) (p : DeclaredPattern) (p' : BoundPattern) : Prop :=
  ∃ next, p' = p.number next ∧ ReadsFrom P.symbol? next (p.symbols P.scope input)

/-- An element is bound on what the deconstructor supplies at its index. -/
theorem exists_boundOn_of_elements
    {P : Program} {method : Option DeconstructMethod} {next index : Nat}
    {ps : List DeclaredPattern} {before' after' : List BoundPattern} {q' : BoundPattern}
    (h : ReadsFrom P.symbol? next (Pattern.elementSymbols P.scope method index ps))
    (hps : Pattern.numberElements next ps = before' ++ q' :: after') :
    ∃ before q after, ps = before ++ q :: after ∧ before.length = before'.length ∧
      P.BoundOn (method.bind (·.elementType (index + before.length))) q q' := by
  induction before' generalizing next index ps with
  | nil =>
      rcases ps with _ | ⟨p, rest⟩
      · simp [Pattern.numberElements] at hps
      · rw [Pattern.numberElements, List.nil_append, List.cons.injEq] at hps
        rw [Pattern.elementSymbols, readsFrom_append] at h
        exact ⟨[], p, rest, rfl, rfl, next, hps.1.symm, h.1⟩
  | cons b before' ih =>
      rcases ps with _ | ⟨p, rest⟩
      · simp [Pattern.numberElements] at hps
      · rw [Pattern.numberElements, List.cons_append, List.cons.injEq] at hps
        rw [Pattern.elementSymbols, readsFrom_append, Pattern.length_symbols] at h
        obtain ⟨before, q, after, rfl, hlength, hbound⟩ := ih h.2 hps.2
        refine ⟨p :: before, q, after, rfl, congrArg (· + 1) hlength, ?_⟩
        rwa [Nat.add_assoc, Nat.add_comm 1] at hbound

/-- The pattern of a member is bound on the type of the property that its node carries. -/
theorem exists_boundOn_of_members
    {P : Program} {static : Option TypeId} {next node : NodeId}
    {ps : List (MemberPattern String DeclaredPattern)}
    {before' after' : List (MemberPattern NodeId BoundPattern)} {q' : BoundPattern}
    (h : ReadsFrom P.symbol? next (Pattern.memberSymbols P.scope static ps))
    (hps : Pattern.numberMembers next ps = before' ++ ⟨node, q'⟩ :: after') :
    ∃ before name q after, ps = before ++ ⟨name, q⟩ :: after ∧
      before.length = before'.length ∧
      P.memberType? node = (static.bind (P.types.findProperty? · name)).join ∧
      P.BoundOn (static.bind (P.types.findProperty? · name)).join q q' := by
  induction before' generalizing next ps with
  | nil =>
      rcases ps with _ | ⟨⟨name, p⟩, rest⟩
      · simp [Pattern.numberMembers] at hps
      · rw [Pattern.numberMembers, List.nil_append, List.cons.injEq,
          MemberPattern.mk.injEq] at hps
        obtain ⟨⟨rfl, rfl⟩, -⟩ := hps
        rw [Pattern.memberSymbols, ReadsFrom, readsFrom_append] at h
        exact ⟨[], name, p, rest, rfl, rfl, memberType?_of_symbol h.1, next + 1, rfl, h.2.1⟩
  | cons b before' ih =>
      rcases ps with _ | ⟨⟨name, p⟩, rest⟩
      · simp [Pattern.numberMembers] at hps
      · rw [Pattern.numberMembers, List.cons_append, List.cons.injEq] at hps
        rw [Pattern.memberSymbols, ReadsFrom, readsFrom_append, Pattern.length_symbols] at h
        obtain ⟨before, name', q, after, rfl, hlength, hbound⟩ := ih h.2.2 hps.2
        exact ⟨⟨name, p⟩ :: before, name', q, after, rfl, congrArg (· + 1) hlength, hbound⟩

/-- A recursive pattern comes from a recursive pattern, whose clauses were bound on the
static type inside it. -/
theorem BoundOn.exists_clauses
    {P : Program} {input : Option TypeId} {p : DeclaredPattern} {node : Option NodeId}
    {positional' : Option (PositionalClause NodeId BoundPattern)}
    {properties' : Option (List (MemberPattern NodeId BoundPattern))}
    {designation : Option String}
    (h : P.BoundOn input p (.recursive node positional' properties' designation)) :
    ∃ name positional properties clause rest,
      p = .recursive name positional properties designation ∧
      Pattern.numberPositional clause positional = positional' ∧
      Pattern.numberProperties rest properties = properties' ∧
      ReadsFrom P.symbol? clause
        (Pattern.positionalSymbols P.scope (P.scope.narrow name input) positional) ∧
      ReadsFrom P.symbol? rest
        (Pattern.propertySymbols P.scope (P.scope.narrow name input) properties) := by
  obtain ⟨next, heq, hreads⟩ := h
  cases p with
  | recursive name positional properties =>
      rw [Pattern.number, Pattern.recursive.injEq] at heq
      obtain ⟨-, hpositional, hproperties, rfl⟩ := heq
      rw [Pattern.symbols, readsFrom_append, readsFrom_append, List.length_append,
        Scope.length_nameSymbols, Pattern.length_positionalSymbols, ← Nat.add_assoc] at hreads
      exact ⟨name, positional, properties, _, _, rfl, hpositional.symm, hproperties.symm,
        hreads.1.2, hreads.2⟩
  | _ => simp [Pattern.number] at heq

/-- The sub-pattern in a frame was bound on the static type that the frame reads back. -/
theorem BoundOn.exists_frame
    {P : Program} {input : Option TypeId} {p : DeclaredPattern} {f' : Frame}
    {q' : BoundPattern} (h : P.BoundOn input p (f'.fill q')) :
    ∃ f q, p = f.fill q ∧ f.place = f'.place ∧
      P.inputType? f' = P.scope.frameInput input f ∧
      P.BoundOn (P.scope.frameInput input f) q q' := by
  cases f' with
  | element node label before' after' properties' designation =>
      obtain ⟨name, positional, properties, clause, rest, rfl, hpositional, -, hreads, -⟩ :=
        BoundOn.exists_clauses h
      rcases positional with _ | ⟨_, elements⟩
      · simp [Pattern.numberPositional] at hpositional
      · simp only [Pattern.numberPositional, Option.some.injEq,
          PositionalClause.mk.injEq] at hpositional
        obtain ⟨rfl, helements⟩ := hpositional
        obtain ⟨hmethod, helementSymbols⟩ := hreads
        obtain ⟨before, q, after, rfl, hlength, hbound⟩ :=
          exists_boundOn_of_elements helementSymbols helements
        rw [List.length_append, List.length_cons] at hmethod hbound
        rw [Nat.zero_add] at hbound
        refine ⟨.element name () before after properties designation, q, rfl, ?_, ?_, hbound⟩
        · rw [PatternFrame.place, PatternFrame.place, hlength]
        · rw [inputType?, method?_of_symbol hmethod, Scope.frameInput, hlength]
  | property node positional' before' member after' designation =>
      obtain ⟨name, positional, properties, clause, rest, rfl, -, hproperties, -, hreads⟩ :=
        BoundOn.exists_clauses h
      rcases properties with _ | members
      · simp [Pattern.numberProperties] at hproperties
      · rw [Pattern.numberProperties, Option.some.injEq] at hproperties
        obtain ⟨before, member', q, after, rfl, hlength, hmember, hbound⟩ :=
          exists_boundOn_of_members hreads hproperties
        refine ⟨.property name positional before member' after designation, q, rfl, ?_,
          hmember, hbound⟩
        rw [PatternFrame.place, PatternFrame.place, hlength]

theorem BoundOn.exists_context
    {P : Program} {input : Option TypeId} {p : DeclaredPattern} {C' : Context}
    {q' : BoundPattern} (h : P.BoundOn input p (C'.fill q')) :
    ∃ C q, p = C.fill q ∧ C.path = C'.path ∧
      P.BoundOn (P.scope.contextInput input C) q q' := by
  induction C' generalizing input p with
  | hole => exact ⟨.hole, p, rfl, rfl, h⟩
  | inside f' inner ih =>
      obtain ⟨f, q, rfl, hplace, -, hbound⟩ := BoundOn.exists_frame h
      obtain ⟨C, r, rfl, hpath, hbound⟩ := ih hbound
      refine ⟨.inside f C, r, rfl, ?_, hbound⟩
      rw [PatternContext.path, PatternContext.path, hplace, hpath]

/-- Whatever sub-pattern of `p'` is looked at, the static type that is read back for it is
the one on which it was bound. -/
def ReadsBack
    (P : Program) (input : Option TypeId) (p : DeclaredPattern) (p' : BoundPattern) : Prop :=
  ∀ (C' : Context) (f' : Frame) (q' : BoundPattern), p' = C'.fill (f'.fill q') →
    ∃ C f q, p = C.fill (f.fill q) ∧ C.path = C'.path ∧ f.place = f'.place ∧
      P.BoundOn (P.scope.contextInput input C) (f.fill q) (f'.fill q') ∧
      P.inputType? f' = P.scope.frameInput (P.scope.contextInput input C) f ∧
      P.BoundOn (P.inputType? f') q q'

theorem BoundOn.readsBack
    {P : Program} {input : Option TypeId} {p : DeclaredPattern} {p' : BoundPattern}
    (h : P.BoundOn input p p') : P.ReadsBack input p p' := by
  rintro C' f' q' rfl
  obtain ⟨C, r, rfl, hpath, hframe⟩ := BoundOn.exists_context h
  obtain ⟨f, q, rfl, hplace, hinput, hbound⟩ := BoundOn.exists_frame hframe
  exact ⟨C, f, q, rfl, hpath, hplace, hframe, hinput, hinput ▸ hbound⟩

end Program

/-! ## Loaded programs -/

/-- The cases of a bound switch, for a statement over all of its sections. -/
def Switch.cases : Switch → List BoundCase
  | .expression switch => switch.arms
  | .statement switch => switch.sections.flatten.filterMap Label.case?

namespace Program

/-- The static types inside the patterns of a switch are read back, from the one of the
governing expression on. -/
def SwitchReadsBack (P : Program) (d : SwitchDecl) (b : Switch) : Prop :=
  List.Forall₂
    (fun c c' => P.ReadsBack (d.governing.staticType P.scope) c.pattern c'.pattern)
    d.cases b.cases

/-- The two labels stand for cases alike, if they do for any. -/
def LabelReadsBack
    (P : Program) (input : Option TypeId) (l : DeclaredLabel) (l' : BoundLabel) : Prop :=
  Option.Rel (fun c c' => P.ReadsBack input c.pattern c'.pattern) l.case? l'.case?

theorem labelReadsBack_number
    {P : Program} {input : Option TypeId} (l : DeclaredLabel) (next : NodeId)
    (h : ReadsFrom P.symbol? next (l.symbols P.scope input)) :
    P.LabelReadsBack input l (l.number next) := by
  cases l with
  | value constant span =>
      have hbound : P.BoundOn input (.constant constant) (.constant (constant.number next)) :=
        ⟨next, rfl, h⟩
      exact .some hbound.readsBack
  | case c =>
      have hbound : P.BoundOn input c.pattern (c.pattern.number next) := ⟨next, rfl, h⟩
      exact .some hbound.readsBack
  | otherwise span => exact .none

theorem switchReadsBack_number
    {P : Program} (d : SwitchDecl) (next : NodeId)
    (h : ReadsFrom P.fact? next ((d.facts P.scope).map some)) :
    P.SwitchReadsBack d (d.number next) := by
  cases d with
  | expression span g arms =>
      obtain ⟨-, -, hsymbols⟩ := readsFrom_switch rfl h
      refine forall₂_numberEach (Case.length_symbols P.scope _) ?_ hsymbols
      intro c next hc
      have hbound : P.BoundOn (g.staticType P.scope) c.pattern (c.pattern.number next) :=
        ⟨next, rfl, hc⟩
      exact hbound.readsBack
  | statement span g sections =>
      obtain ⟨-, -, hsymbols⟩ := readsFrom_switch rfl h
      have hsections : ReadsFrom P.symbol? (next + 1) (sections.flatMap fun labels =>
          labels.flatMap (Label.symbols P.scope (g.staticType P.scope))) :=
        flatMap_flatten _ sections ▸ hsymbols
      have hlabels : List.Forall₂
          (List.Forall₂ (P.LabelReadsBack (g.staticType P.scope))) sections
          (numberEach (totalCount Label.nodeCount)
            (numberEach Label.nodeCount Label.number) (next + 1) sections) := by
        refine forall₂_numberEach
          (length_flatMap_eq_totalCount (Label.length_symbols P.scope _)) ?_ hsections
        intro labels next hlabels
        exact forall₂_numberEach (Label.length_symbols P.scope _) labelReadsBack_number hlabels
      exact List.rel_filterMap (fun _ _ h => h) (List.rel_flatten hlabels)

end Program

/-- A type deconstructs into the first deconstructor with the right number of elements on
the nearest type that has one, or else into the first extension that fits, and the elements
have the types of the declared out-parameters.  The clauses of a loaded program read back
the types on which their elements were bound. -/
theorem deconstructors_provided_and_read_back
    {s : Snapshot} {P : Program} (hP : P.IsLoadedFrom s) :
    (∀ t < P.types.size, ∀ arity,
      s.ProvidesDeconstructor P.types t arity (P.scope.findMethod? t arity)) ∧
    List.Forall₂ (fun f file => List.Forall₂ P.SwitchReadsBack f.switches file.switches)
      s.files P.files :=
  ⟨fun _ ht arity => hP.deconstructor ht arity,
    hP.represents.forall₂_switches Program.switchReadsBack_number⟩

/-- A segment deconstructs into one element as it declares itself, into two as its base type
declares, and into three by an extension on the interface of its base type. -/
def segmentSnapshot : Snapshot where
  types :=
    [⟨{ name := "Shape" }, []⟩,
     ⟨{ name := "Line", interfaces := ["Shape"],
        deconstructors :=
          [[some "int"], [none, some "string"], [some "object", some "int"]] }, []⟩,
     ⟨{ name := "Segment", base := some "Line", deconstructors := [[some "string"]] }, []⟩]
  extensions :=
    [⟨"Segment", [some "int"]⟩, ⟨"string", [none, none, none]⟩,
     ⟨"Shape", [some "bool", none, some "Line"]⟩, ⟨"object", [none, none, none]⟩]
  files := [{
    path := "Test.cs"
    switches := [.expression ⟨0, 100⟩ { type := some "Segment" }
      [⟨.recursive none (some ⟨(), [.declaration "bool" none, .discard,
          .recursive none (some ⟨(), [.declaration "int" none]⟩) none none]⟩) none none,
        false, ⟨0, 0⟩⟩]] }]

/-- Its types have the numbers 4 (`Shape`), 5 (`Line`) and 6 (`Segment`). -/
def segmentProgram : Program := .ofSnapshot segmentSnapshot

theorem segmentProgram_deconstructors :
    segmentProgram.IsLoadedFrom segmentSnapshot ∧ 6 < segmentProgram.types.size ∧
      segmentProgram.scope.findMethod? 6 2 = some ⟨false, [none, some 1]⟩ ∧
      (∃ c, segmentProgram.types.Inherits 6 c ∧
        segmentSnapshot.Deconstructs (segmentProgram.types.name c) 2) ∧
      segmentProgram.scope.findMethod? 6 3 = some ⟨true, [some 4, some 3, none, some 5]⟩ ∧
      (∃ e, IsFirst (Extension.Fits segmentProgram.types 6 3) segmentSnapshot.extensions e) ∧
      segmentProgram.scope.findMethod? 6 4 = none ∧
      (∀ e ∈ segmentSnapshot.extensions, ¬ e.Fits segmentProgram.types 6 4) ∧
      List.Forall₂
        (fun f file => List.Forall₂ segmentProgram.SwitchReadsBack f.switches file.switches)
        segmentSnapshot.files segmentProgram.files := by
  have hload : segmentProgram.IsLoadedFrom segmentSnapshot :=
    Program.isLoadedFrom_ofSnapshot rfl
  have hsize : 6 < segmentProgram.types.size := by decide
  obtain ⟨hprovides, hreads⟩ := deconstructors_provided_and_read_back hload
  have htwo : segmentProgram.scope.findMethod? 6 2 = some ⟨false, [none, some 1]⟩ := by decide
  have hthree : segmentProgram.scope.findMethod? 6 3 =
      some ⟨true, [some 4, some 3, none, some 5]⟩ := by decide
  have hfour : segmentProgram.scope.findMethod? 6 4 = none := by decide
  have hinstance := (hprovides 6 hsize 2).isInstance_iff.mp ⟨_, htwo, rfl⟩
  obtain ⟨e, hfirst, -⟩ := (hprovides 6 hsize 3).extension_first _ hthree rfl
  have hnone := (hprovides 6 hsize 4).none_iff.mp hfour
  exact ⟨hload, hsize, htwo, hinstance, hthree, ⟨e, hfirst⟩, hfour, hnone.2, hreads⟩

end ClosedSwitch
