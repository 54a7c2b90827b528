import ClosedSwitch.Proofs.Binding.Nodes
import ClosedSwitch.Proofs.Suppression.Ancestors
import ClosedSwitch.Proofs.Suppression.Batch
import ClosedSwitch.Proofs.Suppression.Replacement
import ClosedSwitch.Proofs.TypeTable.Numbering

/-!
# Switching over a narrower type

The part of a closed hierarchy below a type in between is a closed hierarchy itself, whose
leaves stand together among those of the whole.  A switch that handles the whole hierarchy
handles the part too when the type in between is declared as its governing type: a pattern
that covers a leaf names a type, so its clauses are bound on that type and not on the
governing one.
-/

namespace ClosedSwitch

/-! ## The part of a hierarchy below a type in between -/

namespace TypeTable

/-- The leaves below a type that qualifies stand together among those below its base. -/
theorem Represents.exists_leavesBelow_of_mem_derived
    {T : TypeTable} {decls : List TypeDecl} (hT : T.Represents decls) {records : Bool}
    {t c : TypeId} {leaves : List TypeId}
    (hleaves : T.leavesBelow records T.size t = some leaves) (hc : c ∈ T.derived t)
    (hqualifies : T.qualifies records c = true) :
    ∃ part, T.leavesBelow records T.size c = some part ∧ part <:+: leaves := by
  rw [hT.leavesBelow_eq_contributions, Option.map_eq_some_iff] at hleaves
  obtain ⟨parts, hparts, rfl⟩ := hleaves
  obtain ⟨k, hk⟩ := List.getElem?_of_mem hc
  obtain ⟨part, hpart, hcontribution⟩ :=
    exists_right_of_forall₂ (forall₂_of_mapM_eq_some hparts) hk
  rw [contribution, if_pos hqualifies] at hcontribution
  exact ⟨part, hcontribution, List.infix_of_mem_flatten (List.mem_of_getElem? hpart)⟩

theorem Represents.exists_classify_of_derives
    {T : TypeTable} {decls : List TypeDecl} (hT : T.Represents decls) {records : Bool}
    {root t : TypeId} {h : ClosedHierarchy} (hclosed : T.classify records root = some h)
    (hderives : T.Derives records root t) (hqualifies : T.qualifies records t = true) :
    ∃ part, T.classify records t = some part ∧ part.leaves <:+: h.leaves := by
  induction hderives with
  | refl => exact ⟨h, hclosed, List.infix_refl _⟩
  | @tail b c _ hstep ih =>
      obtain ⟨whole, hwhole, hinfix⟩ := ih hstep.1
      obtain ⟨-, -, hleaves⟩ := classify_eq_some_iff.mp hwhole
      obtain ⟨leaves, hpart, hpartInfix⟩ :=
        hT.exists_leavesBelow_of_mem_derived hleaves hstep.2 hqualifies
      exact ⟨⟨c, leaves⟩, classify_eq_some_iff.mpr ⟨hqualifies, rfl, hpart⟩,
        hpartInfix.trans hinfix⟩

end TypeTable

/-! ## Patterns do not depend on the governing type -/

namespace Scope

/-- The clauses of a pattern that names a known type are bound on that type. -/
theorem clausesAccept_eq_of_testedType?
    {S : Scope} {p : DeclaredPattern} {t : TypeId} (h : S.testedType? p = some t)
    (input input' : Option TypeId) :
    S.clausesAccept input p = S.clausesAccept input' p := by
  cases p with
  | recursive name positional properties designation =>
      cases name with
      | none => exact absurd h (Option.some_ne_none t).symm
      | some name =>
          have hnarrow : ∀ input, S.narrow (some name) input = some t := by
            intro input
            rw [narrow, Option.bind_some, show S.types.find? name = some t from h,
              Option.some_or]
          rw [clausesAccept, clausesAccept, hnarrow, hnarrow]
  | constant | type | declaration | relational | discard | var | undescribed =>
      rw [clausesAccept, clausesAccept]

theorem patternCovers_of_input
    {S : Scope} {input : Option TypeId} {p : DeclaredPattern} {target : TypeId}
    (h : S.patternCovers input p target = true) (input' : Option TypeId) :
    S.patternCovers input' p target = true := by
  rw [patternCovers, Bool.and_eq_true] at h ⊢
  obtain ⟨t, ht, -⟩ := (Option.any_eq_true _ _).mp h.1
  rw [clausesAccept_eq_of_testedType? ht input' input]
  exact h

end Scope

/-! ## Declaring another governing type -/

namespace SwitchDecl

/-- The switch with the type called `name` as its governing type. -/
def withGoverningType (name : String) : SwitchDecl → SwitchDecl
  | .expression span g arms => .expression span { g with type := some name } arms
  | .statement span g sections => .statement span { g with type := some name } sections

theorem samePlace_withGoverningType (name : String) (d : SwitchDecl) :
    d.SamePlace (d.withGoverningType name) := by
  cases d with
  | expression span g arms => exact .expression rfl
  | statement span g sections => exact .statement rfl

theorem SamePlace.refl (d : SwitchDecl) : d.SamePlace d := by
  cases d with
  | expression span g arms => exact .expression rfl
  | statement span g sections => exact .statement rfl

theorem staticType_withGoverningType (S : Scope) (name : String) (d : SwitchDecl) :
    (d.withGoverningType name).governing.staticType S = S.types.find? name := by
  cases d <;> rfl

/-- A complete switch is complete for a hierarchy with fewer leaves. -/
theorem IsComplete.withGoverningType
    {S : Scope} {records : Bool} {d : SwitchDecl} {root t : TypeId}
    {h part : ClosedHierarchy} (hcomplete : d.IsComplete S records)
    (hroot : d.governing.staticType S = some root)
    (hclosed : S.types.classify records root = some h)
    {name : String} (hname : S.types.find? name = some t)
    (hpart : S.types.classify records t = some part) (hleaves : part.leaves ⊆ h.leaves) :
    (d.withGoverningType name).IsComplete S records := by
  obtain ⟨root', h', hroot', hclosed', hexhausts⟩ := hcomplete
  obtain rfl : root' = root := Option.some.inj (hroot'.symm.trans hroot)
  obtain rfl : h' = h := Option.some.inj (hclosed'.symm.trans hclosed)
  have hstatic := (d.staticType_withGoverningType S name).trans hname
  have hneeds : (d.withGoverningType name).needsNull = d.needsNull := by cases d <;> rfl
  have hpatterns : (d.withGoverningType name).unguardedPatterns = d.unguardedPatterns := by
    cases d <;> rfl
  refine ⟨t, part, hstatic, hpart, ?_, ?_⟩
  · rw [hneeds, hpatterns]
    exact hexhausts.null
  · intro leaf hleaf
    rw [hpatterns]
    obtain ⟨p, hp, hcovers⟩ := hexhausts.covers leaf (hleaves hleaf)
    exact ⟨p, hp, Scope.patternCovers_of_input hcovers _⟩

end SwitchDecl

theorem FileDecl.SamePlaces.refl (f : FileDecl) : f.SamePlaces f :=
  ⟨rfl, rfl, List.forall₂_same.mpr fun d _ => .refl d⟩

namespace Snapshot

/-- The snapshot with the type called `name` as the governing type of one switch. -/
def withGoverningType (s : Snapshot) (file index : Nat) (name : String) : Snapshot :=
  s.withFiles (s.files.modify file fun f =>
    { f with switches := f.switches.modify index (SwitchDecl.withGoverningType name) })

theorem forall₂_samePlaces_withGoverningType
    (s : Snapshot) (file index : Nat) (name : String) :
    List.Forall₂ FileDecl.SamePlaces s.files (s.withGoverningType file index name).files := by
  refine forall₂_modify .refl ?_ s.files file
  intro f
  exact ⟨rfl, rfl, forall₂_modify .refl (SwitchDecl.samePlace_withGoverningType name) _ _⟩

theorem switch?_withGoverningType
    {s : Snapshot} {file index : Nat} {d : SwitchDecl} (h : s.switch? file index = some d)
    (name : String) :
    (s.withGoverningType file index name).switch? file index =
      some (d.withGoverningType name) := by
  obtain ⟨f, hf, hd⟩ := Option.bind_eq_some_iff.mp h
  rw [switch?, withGoverningType, withFiles, List.getElem?_modify_eq, hf]
  exact (List.getElem?_modify_eq _ _ _).trans (congrArg _ hd)

end Snapshot

/-! ## The position of a switch -/

namespace Program

/-- A switch has one position in its file, because no two switches share a node. -/
theorem Represents.switch?_index_unique
    {P : Program} {s : Snapshot} (h : P.Represents s) {file index index' : Nat} {b : Switch}
    (hindex : P.switch? file index = some b) (hindex' : P.switch? file index' = some b) :
    index' = index := by
  obtain ⟨f, hf, hb⟩ := Option.bind_eq_some_iff.mp hindex
  rw [switch?, hf, Option.bind_some] at hindex'
  have hnodup : P.listedNodes.Nodup := by
    rw [h.listedNodes_eq]
    exact List.nodup_range
  have hnodes : f.nodes.Nodup :=
    (List.nodup_flatMap.mp hnodup).1 f (List.mem_of_getElem? hf)
  have hdisjoint := (List.nodup_flatMap.mp hnodes).2
  have hshared : ¬ List.Disjoint b.nodes b.nodes := by
    intro hempty
    exact hempty (List.mem_cons_self ..) (List.mem_cons_self ..)
  obtain ⟨hlt, rfl⟩ := List.getElem?_eq_some_iff.mp hb
  obtain ⟨hlt', heq⟩ := List.getElem?_eq_some_iff.mp hindex'
  rcases Nat.lt_trichotomy index' index with hless | hsame | hgreater
  · have hpair := List.pairwise_iff_getElem.mp hdisjoint index' index hlt' hlt hless
    rw [Function.onFun, heq] at hpair
    exact absurd hpair hshared
  · exact hsame
  · have hpair := List.pairwise_iff_getElem.mp hdisjoint index index' hlt hlt' hgreater
    rw [Function.onFun, heq] at hpair
    exact absurd hpair hshared

theorem IsLoadedFrom.exists_switchAgrees
    {P : Program} {s : Snapshot} (hP : P.IsLoadedFrom s) {file index : Nat} {b : Switch}
    (hb : P.switch? file index = some b) :
    ∃ d, s.switch? file index = some d ∧ P.SwitchAgrees d b := by
  obtain ⟨f, hf, hb⟩ := Option.bind_eq_some_iff.mp hb
  obtain ⟨f', hf', hswitches⟩ :=
    exists_left_of_forall₂ (hP.represents.forall₂_switches switchAgrees_number) hf
  obtain ⟨d, hd, hagrees⟩ := exists_left_of_forall₂ hswitches hb
  refine ⟨d, ?_, hagrees⟩
  rw [Snapshot.switch?, hf', Option.bind_some, hd]

theorem SwitchAgrees.type_governingNode
    {P : Program} {d : SwitchDecl} {b : Switch} (h : P.SwitchAgrees d b) :
    (P.typeInfo b.governingNode).type = d.governing.staticType P.scope := by
  cases b with
  | expression e => exact congrArg TypeInfo.type h.typeInfo_expression
  | statement e => exact congrArg TypeInfo.type h.typeInfo_statement

/-! ## Programs with another governing type -/

/-- `Q` is `P`, loaded from `s`, with `t` as the governing type of one switch. -/
structure Narrows (P : Program) (s : Snapshot) (file index : Nat) (t : TypeId) (Q : Program) :
    Prop where
  loaded : Q.IsLoadedFrom (s.withGoverningType file index (P.types.name t))
  config_eq : Q.config = P.config

section Narrows

variable {P : Program} {s : Snapshot} (hP : P.IsLoadedFrom s)

include hP

theorem IsLoadedFrom.exists_narrows (file index : Nat) (t : TypeId) :
    ∃ Q, P.Narrows s file index t Q := by
  obtain ⟨loaded, config, hload, rfl⟩ := hP
  obtain ⟨Q, hQ⟩ := Snapshot.exists_load_of_samePlaces
    (s.forall₂_samePlaces_withGoverningType file index (loaded.types.name t)) hload
  exact ⟨Q.withConfig config, ⟨Q, config, hQ, rfl⟩, rfl⟩

variable {file index : Nat} {t : TypeId} {Q : Program} (hQ : P.Narrows s file index t Q)

include hQ

theorem Narrows.scope_eq : Q.scope = P.scope :=
  hP.scope_eq hQ.loaded rfl rfl

theorem Narrows.forall₂_samePlaces : List.Forall₂ SourceFile.SamePlaces P.files Q.files :=
  hP.forall₂_samePlaces hQ.loaded (s.forall₂_samePlaces_withGoverningType _ _ _)

/-- The switch at the position is declared with the other governing type. -/
theorem Narrows.exists_switchAgrees
    {b b' : Switch} (hb : P.switch? file index = some b)
    (hb' : Q.switch? file index = some b') :
    ∃ d, P.SwitchAgrees d b ∧ Q.SwitchAgrees (d.withGoverningType (P.types.name t)) b' := by
  obtain ⟨d, hd, hagrees⟩ := hP.exists_switchAgrees hb
  obtain ⟨d', hd', hagrees'⟩ := hQ.loaded.exists_switchAgrees hb'
  rw [Snapshot.switch?_withGoverningType hd, Option.some.injEq] at hd'
  exact ⟨d, hagrees, hd' ▸ hagrees'⟩

end Narrows

end Program

/-! ## Both suppressors -/

/-- The suppressor answers at the switches that `locate` finds: it finds the same position
in programs with switches in the same places, and there it asks whether the declaration of
the switch is complete. -/
structure Suppressor.AnswersAt
    (x : Suppressor) (forceRecords : Bool) (locate : Program → Location → Option Switch) :
    Prop where
  standard : x.IsStandard
  found : ∀ {P : Program} {d : Diagnostic}, (x.suppress? P d).isSome = true →
    ∃ b, locate P d.location = some b
  moved : ∀ {P Q : Program} {l : Location} {b : Switch},
    List.Forall₂ SourceFile.SamePlaces P.files Q.files → locate P l = some b →
    ∃ b' index, locate Q l = some b' ∧ P.switch? l.file index = some b ∧
      Q.switch? l.file index = some b'
  complete : ∃ descriptors, ∀ {P : Program} {d : Diagnostic} {decl : SwitchDecl} {b : Switch},
    locate P d.location = some b → P.SwitchAgrees decl b →
    ((x.suppress? P d).isSome = true ↔ (findDescriptor? descriptors d.id).isSome = true ∧
      decl.IsComplete P.scope (forceRecords || P.recordHierarchiesAllowed d.location.file))

/-- The switch expression at a location, as a switch. -/
def Program.expressionSwitchAt? (P : Program) (l : Location) : Option Switch :=
  (P.expressionAt? l).map .expression

def Program.statementSwitchAt? (P : Program) (l : Location) : Option Switch :=
  (P.statementAt? l).map .statement

theorem Suppressor.expression_answersAt (forceRecords : Bool) :
    (expression forceRecords).AnswersAt forceRecords Program.expressionSwitchAt? where
  standard := ⟨forceRecords, .inl rfl⟩
  found h := by
    obtain ⟨-, e, -, hfound, -⟩ := Program.suppressExpression?_isSome_iff.mp h
    exact ⟨.expression e, congrArg (Option.map _) hfound⟩
  moved h hb := by
    obtain ⟨e, hfound, rfl⟩ := Option.map_eq_some_iff.mp hb
    obtain ⟨e', index, hfound', he, he'⟩ :=
      Program.exists_expressionAt?_of_samePlaces h hfound
    exact ⟨.expression e', index, congrArg (Option.map _) hfound', he, he'⟩
  complete := by
    refine ⟨expressionDescriptors, ?_⟩
    intro P d decl b hb hagrees
    obtain ⟨e, hfound, rfl⟩ := Option.map_eq_some_iff.mp hb
    exact Program.suppressExpression?_isSome_iff_isComplete hfound hagrees

theorem Suppressor.statement_answersAt (forceRecords : Bool) :
    (statement forceRecords).AnswersAt forceRecords Program.statementSwitchAt? where
  standard := ⟨forceRecords, .inr rfl⟩
  found h := by
    obtain ⟨-, e, -, hfound, -⟩ := Program.suppressStatement?_isSome_iff.mp h
    exact ⟨.statement e, congrArg (Option.map _) hfound⟩
  moved h hb := by
    obtain ⟨e, hfound, rfl⟩ := Option.map_eq_some_iff.mp hb
    obtain ⟨e', index, hfound', he, he'⟩ :=
      Program.exists_statementAt?_of_samePlaces h hfound
    exact ⟨.statement e', index, congrArg (Option.map _) hfound', he, he'⟩
  complete := by
    refine ⟨statementDescriptors, ?_⟩
    intro P d decl b hb hagrees
    obtain ⟨e, hfound, rfl⟩ := Option.map_eq_some_iff.mp hb
    exact Program.suppressStatement?_isSome_iff_isComplete hfound hagrees

/-! ## Answers survive -/

namespace Program

/-- The switch `b` that `locate` finds for a diagnostic is at a position, and its governing
type is the root of a closed hierarchy.  A type that the hierarchy goes on below is the root
of a part of it; as the governing type of the switch, it leaves the answer as it is. -/
structure SurvivesNarrowing
    (P : Program) (s : Snapshot) (x : Suppressor) (records : Bool)
    (locate : Program → Location → Option Switch) (d : Diagnostic) (answer : Suppression)
    (b : Switch) (index : Nat) (root : TypeId) (h : ClosedHierarchy) : Prop where
  found : locate P d.location = some b
  position : P.switch? d.location.file index = some b
  governing : (P.typeInfo b.governingNode).type = some root
  closed : P.types.classify records root = some h
  part : ∀ t, P.types.Derives records root t → P.types.qualifies records t = true →
    ∃ part, P.types.classify records t = some part ∧ part.leaves <:+: h.leaves
  loads : ∀ t, ∃ Q, P.Narrows s d.location.file index t Q
  answered : ∀ t Q, P.types.Derives records root t → P.types.qualifies records t = true →
    P.Narrows s d.location.file index t Q →
    ∃ b', locate Q d.location = some b' ∧
      (Q.typeInfo b'.governingNode).type = some t ∧ x.suppress? Q d = some answer

/-- The diagnostic is answered at the switch with the other governing type too. -/
theorem Narrows.exists_answer
    {P : Program} {s : Snapshot} (hP : P.IsLoadedFrom s) {x : Suppressor}
    {forceRecords : Bool} {locate : Program → Location → Option Switch}
    (hx : x.AnswersAt forceRecords locate) {d : Diagnostic} {answer : Suppression}
    (hanswer : x.suppress? P d = some answer) {b : Switch} {index : Nat} {root t : TypeId}
    {h part : ClosedHierarchy} (hfound : locate P d.location = some b)
    (hb : P.switch? d.location.file index = some b)
    (hroot : (P.typeInfo b.governingNode).type = some root)
    (hclosed : P.types.classify
      (forceRecords || P.recordHierarchiesAllowed d.location.file) root = some h)
    (hpart : P.types.classify
      (forceRecords || P.recordHierarchiesAllowed d.location.file) t = some part)
    (hleaves : part.leaves ⊆ h.leaves) {Q : Program}
    (hQ : P.Narrows s d.location.file index t Q) :
    ∃ b', locate Q d.location = some b' ∧
      (Q.typeInfo b'.governingNode).type = some t ∧ x.suppress? Q d = some answer := by
  have hplaces := hQ.forall₂_samePlaces hP
  obtain ⟨b', index', hfound', hindex', hb'⟩ := hx.moved hplaces hfound
  obtain rfl := hP.represents.switch?_index_unique hb hindex'
  obtain ⟨decl, hagrees, hagrees'⟩ := hQ.exists_switchAgrees hP hb hb'
  have hqualifies := TypeTable.qualifies_of_classify hpart
  have hname : P.scope.types.find? (P.types.name t) = some t :=
    hP.represents.types.find?_name (TypeTable.lt_size_of_qualifies hqualifies)
  rw [hagrees.type_governingNode] at hroot
  obtain ⟨descriptors, hcomplete⟩ := hx.complete
  have hbefore := (hcomplete hfound hagrees).mp (by rw [hanswer, Option.isSome_some])
  have hafter : (x.suppress? Q d).isSome = true := by
    rw [hcomplete hfound' hagrees', hQ.scope_eq hP,
      recordHierarchiesAllowed_of_samePlaces hplaces hQ.config_eq]
    exact ⟨hbefore.1, hbefore.2.withGoverningType hroot hclosed hname hpart hleaves⟩
  refine ⟨b', hfound', ?_, ?_⟩
  · rw [hagrees'.type_governingNode, hQ.scope_eq hP, SwitchDecl.staticType_withGoverningType,
      hname]
  · obtain ⟨answer', hanswer'⟩ := Option.isSome_iff_exists.mp hafter
    rw [hanswer', (answer_of_isStandard hx.standard hanswer').1,
      (answer_of_isStandard hx.standard hanswer).1]

theorem exists_survivesNarrowing
    {P : Program} {s : Snapshot} (hP : P.IsLoadedFrom s) {x : Suppressor}
    {forceRecords : Bool} {locate : Program → Location → Option Switch}
    (hx : x.AnswersAt forceRecords locate) {d : Diagnostic} {answer : Suppression}
    (hanswer : x.suppress? P d = some answer) :
    ∃ b index root h, P.SurvivesNarrowing s x
      (forceRecords || P.recordHierarchiesAllowed d.location.file) locate d answer
      b index root h := by
  have hsome : (x.suppress? P d).isSome = true := by rw [hanswer, Option.isSome_some]
  obtain ⟨b, hfound⟩ := hx.found hsome
  -- A program has its switches in the same places as itself.
  have hsame := hP.forall₂_samePlaces hP (List.forall₂_same.mpr fun f _ => .refl f)
  obtain ⟨-, index, -, hb, -⟩ := hx.moved hsame hfound
  obtain ⟨decl, -, hagrees⟩ := hP.exists_switchAgrees hb
  obtain ⟨descriptors, hcomplete⟩ := hx.complete
  obtain ⟨-, root, h, hroot, hclosed, -⟩ := (hcomplete hfound hagrees).mp hsome
  have hgoverning : (P.typeInfo b.governingNode).type = some root := by
    rw [hagrees.type_governingNode, hroot]
  have hpart := fun t => hP.represents.types.exists_classify_of_derives (t := t) hclosed
  refine ⟨b, index, root, h, hfound, hb, hgoverning, hclosed, hpart,
    hP.exists_narrows _ index, ?_⟩
  intro t Q hderives hqualifies hQ
  obtain ⟨part, hclassify, hinfix⟩ := hpart t hderives hqualifies
  exact hQ.exists_answer hP hx hanswer hfound hb hgoverning hclosed hclassify hinfix.subset

end Program

/-- A diagnostic that is suppressed at a switch over the root of a closed hierarchy stays
suppressed when a type that the hierarchy goes on below, at any depth, is declared as the
governing type instead; that type classifies, and its leaves stand together among those of
the root. -/
theorem suppressions_survive_narrowing
    {s : Snapshot} {P : Program} (hP : P.IsLoadedFrom s) (forceRecords : Bool)
    (d : Diagnostic) (answer : Suppression) :
    ((Suppressor.expression forceRecords).suppress? P d = some answer →
      ∃ b index root h, P.SurvivesNarrowing s (.expression forceRecords)
        (forceRecords || P.recordHierarchiesAllowed d.location.file)
        Program.expressionSwitchAt? d answer b index root h) ∧
    ((Suppressor.statement forceRecords).suppress? P d = some answer →
      ∃ b index root h, P.SurvivesNarrowing s (.statement forceRecords)
        (forceRecords || P.recordHierarchiesAllowed d.location.file)
        Program.statementSwitchAt? d answer b index root h) :=
  ⟨Program.exists_survivesNarrowing hP (Suppressor.expression_answersAt forceRecords),
    Program.exists_survivesNarrowing hP (Suppressor.statement_answersAt forceRecords)⟩

/-- A switch of each form over the root of a hierarchy of two levels.  Both name the type in
between and the leaf beside it. -/
def twoFormSnapshot : Snapshot := tieredSnapshot.withFiles [{
  path := "Test.cs"
  switches := [
    .expression ⟨0, 100⟩ { type := some "Root", nullability := ⟨.nonNull, .notNull⟩ }
      [⟨.recursive (some "Root.Mid") none (some []) none, false, ⟨0, 0⟩⟩,
       ⟨.type "Root.C", false, ⟨0, 0⟩⟩],
    .statement ⟨100, 200⟩ { type := some "Root", nullability := ⟨.nonNull, .notNull⟩ }
      [[.case ⟨.type "Root.Mid", false, ⟨0, 0⟩⟩], [.case ⟨.type "Root.C", false, ⟨0, 0⟩⟩]] ] }]

def twoFormProgram : Program := .ofSnapshot twoFormSnapshot

theorem isLoadedFrom_twoFormProgram : twoFormProgram.IsLoadedFrom twoFormSnapshot :=
  Program.isLoadedFrom_ofSnapshot rfl

theorem twoFormProgram_survives :
    twoFormProgram.IsLoadedFrom twoFormSnapshot ∧
      (∃ Q, twoFormProgram.Narrows twoFormSnapshot 0 0 5 Q ∧
        (Suppressor.expression false).suppress? Q ⟨"CS8509", ⟨0, ⟨0, 6⟩⟩, ""⟩ =
          some ⟨closedHierarchyDescriptor "CS8509", ⟨"CS8509", ⟨0, ⟨0, 6⟩⟩, ""⟩⟩) ∧
      (∃ Q, twoFormProgram.Narrows twoFormSnapshot 0 1 5 Q ∧
        (Suppressor.statement false).suppress? Q ⟨"IDE0010", ⟨0, ⟨100, 106⟩⟩, ""⟩ =
          some ⟨closedHierarchyDescriptor "IDE0010", ⟨"IDE0010", ⟨0, ⟨100, 106⟩⟩, ""⟩⟩) := by
  have hload := isLoadedFrom_twoFormProgram
  have hderives : twoFormProgram.types.Derives false 4 5 :=
    .single ⟨by decide, by decide⟩
  have hqualifies : twoFormProgram.types.qualifies false 5 = true := by decide
  refine ⟨hload, ?_, ?_⟩
  · obtain ⟨b, index, root, h, hs⟩ := (suppressions_survive_narrowing hload false
      ⟨"CS8509", ⟨0, ⟨0, 6⟩⟩, ""⟩ _).1 rfl
    have hb : twoFormProgram.switch? 0 0 = some b := hs.found
    obtain rfl := hload.represents.switch?_index_unique hb hs.position
    obtain rfl := Option.some.inj hb
    obtain rfl : 4 = root := Option.some.inj hs.governing
    obtain ⟨Q, hQ⟩ := hs.loads 5
    obtain ⟨-, -, -, hanswer⟩ := hs.answered 5 Q hderives hqualifies hQ
    exact ⟨Q, hQ, hanswer⟩
  · obtain ⟨b, index, root, h, hs⟩ := (suppressions_survive_narrowing hload false
      ⟨"IDE0010", ⟨0, ⟨100, 106⟩⟩, ""⟩ _).2 rfl
    have hb : twoFormProgram.switch? 0 1 = some b := hs.found
    obtain rfl := hload.represents.switch?_index_unique hb hs.position
    obtain rfl := Option.some.inj hb
    obtain rfl : 4 = root := Option.some.inj hs.governing
    obtain ⟨Q, hQ⟩ := hs.loads 5
    obtain ⟨-, -, -, hanswer⟩ := hs.answered 5 Q hderives hqualifies hQ
    exact ⟨Q, hQ, hanswer⟩

end ClosedSwitch
