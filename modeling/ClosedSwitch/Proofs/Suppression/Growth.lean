import ClosedSwitch.Proofs.Suppression.Batch
import ClosedSwitch.Proofs.Suppression.Declared
import ClosedSwitch.Proofs.Suppression.Replacement

/-!
# More cases, more suppressions

A snapshot whose switches have more patterns without a guard, and are otherwise the same,
keeps every suppression.  The nodes behind a changed switch get other numbers, in its file
and in all later ones, but every switch is still found in its place and judged by its own
declaration.
-/

namespace ClosedSwitch

/-! ## Snapshots with more cases -/

/-- The second switch has the form, the span and the governing expression of the first,
and each pattern that stands without a guard in the first also does in the second. -/
inductive SwitchDecl.Extends : SwitchDecl → SwitchDecl → Prop
  | expression {span : Span} {g : Governing} {arms arms' : List DeclaredCase}
      (patterns : (SwitchDecl.expression span g arms).unguardedPatterns ⊆
        (SwitchDecl.expression span g arms').unguardedPatterns) :
      Extends (.expression span g arms) (.expression span g arms')
  | statement {span : Span} {g : Governing} {sections sections' : List (List DeclaredLabel)}
      (patterns : (SwitchDecl.statement span g sections).unguardedPatterns ⊆
        (SwitchDecl.statement span g sections').unguardedPatterns) :
      Extends (.statement span g sections) (.statement span g sections')

theorem SwitchDecl.Extends.isComplete
    {d d' : SwitchDecl} (h : d.Extends d') {S : Scope} {records : Bool}
    (hcomplete : d.IsComplete S records) : d'.IsComplete S records := by
  cases h with
  | expression patterns => exact hcomplete.of_subset rfl id patterns
  | statement patterns => exact hcomplete.of_subset rfl id patterns

theorem SwitchDecl.Extends.samePlace
    {d d' : SwitchDecl} (h : d.Extends d') : d.SamePlace d' := by
  cases h with
  | expression _ => exact .expression rfl
  | statement _ => exact .statement rfl

/-- The second file differs from the first in the cases of its switches only, of which it
has more; the text makes no difference. -/
structure FileDecl.Extends (f f' : FileDecl) : Prop where
  path_eq : f'.path = f.path
  options_eq : f'.options = f.options
  switches : List.Forall₂ SwitchDecl.Extends f.switches f'.switches

theorem FileDecl.Extends.samePlaces {f f' : FileDecl} (h : f.Extends f') : f.SamePlaces f' :=
  ⟨h.path_eq, h.options_eq, h.switches.imp fun _ _ hswitch => hswitch.samePlace⟩

theorem forall₂_samePlaces_of_extends
    {fs fs' : List FileDecl} (h : List.Forall₂ FileDecl.Extends fs fs') :
    List.Forall₂ FileDecl.SamePlaces fs fs' :=
  h.imp fun _ _ hfile => hfile.samePlaces

theorem Snapshot.exists_load_withFiles
    {s : Snapshot} {files : List FileDecl}
    (h : List.Forall₂ FileDecl.Extends s.files files) {P : Program}
    (hP : Program.load s = .ok P) : ∃ P', Program.load (s.withFiles files) = .ok P' :=
  exists_load_of_samePlaces (forall₂_samePlaces_of_extends h) hP

/-! ## Programs with more cases -/

namespace Program

/-- Two bound switches agree with declarations of which the second has more cases. -/
def SwitchExtends (P P' : Program) (b b' : Switch) : Prop :=
  ∃ d d', SwitchDecl.Extends d d' ∧ P.SwitchAgrees d b ∧ P'.SwitchAgrees d' b'

structure FileExtends (P P' : Program) (f f' : SourceFile) : Prop where
  path_eq : f'.path = f.path
  options_eq : f'.options = f.options
  switches : List.Forall₂ (P.SwitchExtends P') f.switches f'.switches

/-- The program `P'` has the scope and the configuration of `P`, and its switches have
more cases. -/
structure Extends (P P' : Program) : Prop where
  scope_eq : P'.scope = P.scope
  config_eq : P'.config = P.config
  files : List.Forall₂ (P.FileExtends P') P.files P'.files

theorem fileExtends_of_agrees
    {P P' : Program} {f f' : FileDecl} {file file' : SourceFile}
    (h : f.Extends f') (hagrees : P.FileAgrees f file) (hagrees' : P'.FileAgrees f' file') :
    P.FileExtends P' file file' where
  path_eq := by rw [hagrees.path_eq, hagrees'.path_eq, h.path_eq]
  options_eq := by rw [hagrees.options_eq, hagrees'.options_eq, h.options_eq]
  switches := forall₂_of_agreeing h.switches hagrees.switches hagrees'.switches

section Load

variable {s : Snapshot} {files : List FileDecl} {P P' : Program}
  (h : List.Forall₂ FileDecl.Extends s.files files)
  (hP : load s = .ok P) (hP' : load (s.withFiles files) = .ok P')

include h hP hP'

theorem diagnostics_withFiles : P'.diagnostics = P.diagnostics := by
  have hsame := (parts_of_load hP').2
  change s.diagnostics.mapM (DiagnosticDecl.resolve (s.withFiles files).paths) =
    .ok P'.diagnostics at hsame
  rw [Snapshot.paths_of_samePlaces (forall₂_samePlaces_of_extends h), Snapshot.paths,
    (parts_of_load hP).2, Except.ok.injEq] at hsame
  exact hsame.symm

theorem extends_of_load (config : Config) :
    (P.withConfig config).Extends (P'.withConfig config) := by
  have hloaded : (P.withConfig config).IsLoadedFrom s := ⟨P, config, hP, rfl⟩
  have hloaded' : (P'.withConfig config).IsLoadedFrom (s.withFiles files) :=
    ⟨P', config, hP', rfl⟩
  refine ⟨hloaded.scope_eq hloaded' rfl rfl, rfl, ?_⟩
  refine (forall₂_of_agreeing h hloaded.represents.forall₂_fileAgrees
    hloaded'.represents.forall₂_fileAgrees).imp ?_
  rintro file file' ⟨f, f', hfile, hagrees, hagrees'⟩
  exact fileExtends_of_agrees hfile hagrees hagrees'

end Load

/-! ## The same switches are found -/

theorem samePlace_of_switchExtends
    {P P' : Program} {b b' : Switch} (h : P.SwitchExtends P' b b') :
    Switch.SamePlace b b' := by
  obtain ⟨d, d', hextends, hagrees, hagrees'⟩ := h
  exact samePlace_of_switchAgrees hextends.samePlace hagrees hagrees'

namespace Extends

variable {P P' : Program} (h : P.Extends P')

include h

theorem switches_rel (file : Nat) :
    Option.Rel (fun f f' => List.Forall₂ (P.SwitchExtends P') f.switches f'.switches)
      (P.file? file) (P'.file? file) :=
  rel_getElem?_of_forall₂ (h.files.imp fun _ _ hfile => hfile.switches) file

theorem recordHierarchiesAllowed_eq (file : Nat) :
    P'.recordHierarchiesAllowed file = P.recordHierarchiesAllowed file := by
  refine recordHierarchiesAllowed_of_samePlaces (h.files.imp ?_) h.config_eq file
  intro f f' hfile
  exact ⟨hfile.path_eq, hfile.options_eq,
    hfile.switches.imp fun _ _ => samePlace_of_switchExtends⟩

theorem suppressExpression?_isSome
    {forceRecords : Bool} {d : Diagnostic}
    (hd : (P.suppressExpression? forceRecords d).isSome = true) :
    (P'.suppressExpression? forceRecords d).isSome = true := by
  obtain ⟨-, switch, -, hfound, -⟩ := suppressExpression?_isSome_iff.mp hd
  -- The switch that is found has moved to other nodes, but not to another place.
  obtain ⟨switch', hfound', decl, decl', hextends, hagrees, hagrees'⟩ :=
    exists_of_rel_some
      (expressionAt?_rel (fun _ _ => samePlace_of_switchExtends) (h.switches_rel _)) hfound
  rw [suppressExpression?_isSome_iff_isComplete hfound hagrees] at hd
  rw [suppressExpression?_isSome_iff_isComplete hfound' hagrees', h.scope_eq,
    h.recordHierarchiesAllowed_eq]
  exact ⟨hd.1, hextends.isComplete hd.2⟩

theorem suppressStatement?_isSome
    {forceRecords : Bool} {d : Diagnostic}
    (hd : (P.suppressStatement? forceRecords d).isSome = true) :
    (P'.suppressStatement? forceRecords d).isSome = true := by
  obtain ⟨-, switch, -, hfound, -⟩ := suppressStatement?_isSome_iff.mp hd
  obtain ⟨switch', hfound', decl, decl', hextends, hagrees, hagrees'⟩ :=
    exists_of_rel_some
      (statementAt?_rel (fun _ _ => samePlace_of_switchExtends) (h.switches_rel _)) hfound
  rw [suppressStatement?_isSome_iff_isComplete hfound hagrees] at hd
  rw [suppressStatement?_isSome_iff_isComplete hfound' hagrees', h.scope_eq,
    h.recordHierarchiesAllowed_eq]
  exact ⟨hd.1, hextends.isComplete hd.2⟩

variable {suppressors : List Suppressor} (hstandard : ∀ x ∈ suppressors, x.IsStandard)

include hstandard

/-- An answer is not lost, and there is only one that a diagnostic can have. -/
theorem answer?_eq_some
    {d : Diagnostic} {answer : Suppression} (ha : answer? P suppressors d = some answer) :
    answer? P' suppressors d = some answer := by
  obtain ⟨x, hx, hx'⟩ := List.exists_of_findSome?_eq_some ha
  have hsuppress : (x.suppress? P' d).isSome = true := by
    have hsome : (x.suppress? P d).isSome = true := by rw [hx', Option.isSome_some]
    obtain ⟨forceRecords, rfl | rfl⟩ := hstandard x hx
    · exact h.suppressExpression?_isSome hsome
    · exact h.suppressStatement?_isSome hsome
  have hanswered : (answer? P' suppressors d).isSome = true :=
    List.findSome?_isSome_iff.mpr ⟨x, hx, hsuppress⟩
  obtain ⟨answer', ha'⟩ := Option.isSome_iff_exists.mp hanswered
  rw [ha', (answer?_of_isStandard hstandard ha).1, (answer?_of_isStandard hstandard ha').1]

theorem filterMap_answer?_sublist (diagnostics : List Diagnostic) :
    (diagnostics.filterMap (answer? P suppressors)).Sublist
      (diagnostics.filterMap (answer? P' suppressors)) := by
  induction diagnostics with
  | nil => exact List.Sublist.refl _
  | cons d rest ih =>
      cases ha : answer? P suppressors d with
      | none =>
          rw [List.filterMap_cons_none ha, List.filterMap_cons]
          split
          · exact ih
          · exact ih.cons _
      | some answer =>
          rw [List.filterMap_cons_some ha,
            List.filterMap_cons_some (h.answer?_eq_some hstandard ha)]
          exact ih.cons_cons answer

end Extends

end Program

/-- A snapshot that loads still does so when its switches get more patterns without a
guard, and it keeps every suppression, in the same order.  Where the switches have the same
patterns without a guard, in whatever order, number and grouping, the suppressions are the
same. -/
theorem suppressions_grow_with_unguarded_patterns
    {s : Snapshot} {P : Program} (hP : Program.load s = .ok P)
    {files : List FileDecl} (h : List.Forall₂ FileDecl.Extends s.files files) :
    ∃ P', Program.load (s.withFiles files) = .ok P' ∧ P'.diagnostics = P.diagnostics ∧
      ∀ config suppressors, (∀ x ∈ suppressors, Suppressor.IsStandard x) →
        ∀ diagnostics, ∃ reported reported',
          reportSuppressions (P.withConfig config) suppressors diagnostics {} =
            (.ok reported, {}) ∧
          reportSuppressions (P'.withConfig config) suppressors diagnostics {} =
            (.ok reported', {}) ∧
          reported.Sublist reported' ∧
          (List.Forall₂ FileDecl.Extends files s.files → reported' = reported) := by
  obtain ⟨P', hP'⟩ := Snapshot.exists_load_withFiles h hP
  refine ⟨P', hP', Program.diagnostics_withFiles h hP hP', ?_⟩
  intro config suppressors hstandard diagnostics
  have hsublist := (Program.extends_of_load h hP hP' config).filterMap_answer?_sublist
    hstandard diagnostics
  refine ⟨_, _, reportSuppressions_eq_filterMap (neverCancels_of_isStandard hstandard _) _,
    reportSuppressions_eq_filterMap (neverCancels_of_isStandard hstandard _) _, hsublist, ?_⟩
  intro hback
  -- The snapshot is the other one with its own files put back.
  have hP'' : Program.load ((s.withFiles files).withFiles s.files) = .ok P := hP
  have hsublist' := (Program.extends_of_load hback hP' hP'' config).filterMap_answer?_sublist
    hstandard diagnostics
  exact hsublist'.antisymm hsublist

/-- The first pattern of the sample, with other designations. -/
def wrapPatternRenamed : DeclaredPattern :=
  .recursive (some "Root.Wrap")
    (some ⟨(), [.recursive none none
      (some [⟨"Value", .declaration "int" none⟩]) (some "inner"), .var (some "rest")]⟩)
    none (some "wrap")

/-- The file of the sample with its cases in another order, repeated and regrouped, and
with a guarded case and a default added. -/
def regroupedFiles : List FileDecl :=
  [{ path := "Test.cs"
     switches := [
      .expression ⟨0, 100⟩ { type := some "Root", nullability := ⟨.nonNull, .notNull⟩ }
        [⟨.type "Root.Leaf", false, ⟨1, 2⟩⟩, ⟨.discard, true, ⟨2, 3⟩⟩,
         ⟨wrapPatternRenamed, false, ⟨3, 4⟩⟩, ⟨wrapPattern, false, ⟨4, 5⟩⟩],
      .statement ⟨100, 200⟩ { type := some "Root", nullability := ⟨.nonNull, .notNull⟩ }
        [[.case ⟨wrapPatternRenamed, false, ⟨0, 0⟩⟩], [.otherwise ⟨0, 0⟩],
         [.case ⟨.constant (.name "Root.Leaf"), false, ⟨0, 0⟩⟩]] ] }]

theorem extends_regroupedFiles :
    List.Forall₂ FileDecl.Extends nestedSnapshot.files regroupedFiles ∧
      List.Forall₂ FileDecl.Extends regroupedFiles nestedSnapshot.files := by
  constructor
  · refine .cons ⟨rfl, rfl, .cons (.expression ?_) (.cons (.statement ?_) .nil)⟩ .nil
    · change [wrapPattern.undesignated, .type "Root.Leaf"] ⊆
        [.type "Root.Leaf", wrapPattern.undesignated, wrapPattern.undesignated]
      simp
    · change [.constant (.name "Root.Leaf"), wrapPattern.undesignated] ⊆
        [wrapPattern.undesignated, .constant (.name "Root.Leaf")]
      simp
  · refine .cons ⟨rfl, rfl, .cons (.expression ?_) (.cons (.statement ?_) .nil)⟩ .nil
    · change [.type "Root.Leaf", wrapPattern.undesignated, wrapPattern.undesignated] ⊆
        [wrapPattern.undesignated, .type "Root.Leaf"]
      simp
    · change [wrapPattern.undesignated, .constant (.name "Root.Leaf")] ⊆
        [.constant (.name "Root.Leaf"), wrapPattern.undesignated]
      simp

theorem regroupedFiles_same_suppressions :
    List.Forall₂ FileDecl.Extends nestedSnapshot.files regroupedFiles ∧
      ∃ P' reported, Program.load (nestedSnapshot.withFiles regroupedFiles) = .ok P' ∧
        reported.length = 2 ∧
        reportSuppressions (nestedProgram.withConfig {}) (Suppressor.both false)
          nestedDiagnostics {} = (.ok reported, {}) ∧
        reportSuppressions (P'.withConfig {}) (Suppressor.both false)
          nestedDiagnostics {} = (.ok reported, {}) := by
  obtain ⟨hextends, hback⟩ := extends_regroupedFiles
  have hload : Program.load nestedSnapshot = .ok nestedProgram := rfl
  obtain ⟨P', hP', -, hreports⟩ := suppressions_grow_with_unguarded_patterns hload hextends
  obtain ⟨reported, reported', hreported, hreported', -, hsame⟩ :=
    hreports {} (Suppressor.both false) (fun _ => Suppressor.isStandard_of_mem_both)
      nestedDiagnostics
  have htwo : (reportSuppressions (nestedProgram.withConfig {}) (Suppressor.both false)
      nestedDiagnostics {}).1.toOption.map List.length = some 2 := by decide
  rw [hreported] at htwo
  rw [hsame hback] at hreported'
  exact ⟨hextends, P', reported, hP', Option.some.inj htwo, hreported, hreported'⟩

end ClosedSwitch
