import ClosedSwitch.Proofs.Load.FirstDefect
import ClosedSwitch.Proofs.Suppression.Forms
import ClosedSwitch.Proofs.Suppression.Locate

/-!
# Other switches in the same places

A snapshot may have its switches replaced, each by one of the same form with the same spans.
It still loads, with the same types and the same settings.  The nodes behind a replaced
switch get other numbers, in its file and in all later ones, but every diagnostic is at the
switch with the same position in its file as before.
-/

namespace ClosedSwitch

/-! ## Declarations in the same places -/

/-- The two switches have one form, one span and one span of the governing expression. -/
inductive SwitchDecl.SamePlace : SwitchDecl → SwitchDecl → Prop
  | expression {span : Span} {g g' : Governing} {arms arms' : List DeclaredCase}
      (span_eq : g'.span = g.span) :
      SamePlace (.expression span g arms) (.expression span g' arms')
  | statement {span : Span} {g g' : Governing} {sections sections' : List (List DeclaredLabel)}
      (span_eq : g'.span = g.span) :
      SamePlace (.statement span g sections) (.statement span g' sections')

theorem SwitchDecl.SamePlace.spans_eq
    {d d' : SwitchDecl} (h : d.SamePlace d') : d'.spans = d.spans := by
  cases h with
  | expression span_eq => rw [spans, spans, span_eq]
  | statement span_eq => rw [spans, spans, span_eq]

/-- The two files differ in their switches only, which are in the same places; the text makes
no difference. -/
structure FileDecl.SamePlaces (f f' : FileDecl) : Prop where
  path_eq : f'.path = f.path
  options_eq : f'.options = f.options
  switches : List.Forall₂ SwitchDecl.SamePlace f.switches f'.switches

namespace Snapshot

/-- The snapshot with other files. -/
def withFiles (s : Snapshot) (files : List FileDecl) : Snapshot := { s with files }

section SamePlaces

variable {s : Snapshot} {files : List FileDecl}
  (h : List.Forall₂ FileDecl.SamePlaces s.files files)

include h

theorem paths_of_samePlaces : (s.withFiles files).paths = s.paths :=
  map_eq_of_forall₂ (fun _ _ hfile => hfile.path_eq) h

theorem switchSpans_of_samePlaces : (s.withFiles files).switchSpans = s.switchSpans := by
  rw [switchSpans, switchSpans, List.flatMap_def, List.flatMap_def]
  refine congrArg List.flatten (map_eq_of_forall₂ ?_ h)
  intro f f' hfile
  have hspans := map_eq_of_forall₂ (fun _ _ hswitch => hswitch.spans_eq) hfile.switches
  rw [List.flatMap_def, List.flatMap_def, hspans, hfile.path_eq]

theorem WellFormed.of_samePlaces (hs : s.WellFormed) : (s.withFiles files).WellFormed := by
  refine ⟨hs.names, hs.references, hs.bases, hs.extensions, ?_, ?_⟩
  · rw [SpansOrdered, switchSpans_of_samePlaces h]
    exact hs.spans
  · intro d hd
    rw [Locates, paths_of_samePlaces h]
    exact hs.diagnostics d hd

theorem exists_load_of_samePlaces
    {P : Program} (hP : Program.load s = .ok P) :
    ∃ P', Program.load (s.withFiles files) = .ok P' := by
  have hs : s.WellFormed := exists_load_iff_wellFormed.mp ⟨P, hP⟩
  exact exists_load_iff_wellFormed.mpr (hs.of_samePlaces h)

end SamePlaces

end Snapshot

/-! ## Programs with switches in the same places -/

/-- The two files have switches in the same places, and the same settings. -/
structure SourceFile.SamePlaces (f f' : SourceFile) : Prop where
  path_eq : f'.path = f.path
  options_eq : f'.options = f.options
  switches : List.Forall₂ Switch.SamePlace f.switches f'.switches

namespace Program

/-- A bound file has the path and the options of its declaration, and its switches agree
with the declared ones. -/
structure FileAgrees (P : Program) (f : FileDecl) (file : SourceFile) : Prop where
  path_eq : file.path = f.path
  options_eq : file.options = f.options
  switches : List.Forall₂ P.SwitchAgrees f.switches file.switches

theorem Represents.forall₂_fileAgrees
    {P : Program} {s : Snapshot} (h : P.Represents s) :
    List.Forall₂ P.FileAgrees s.files P.files := by
  apply h.forall₂_files
  intro f next hfile
  exact ⟨rfl, rfl, forall₂_switches_number switchAgrees_number hfile⟩

theorem samePlace_of_switchAgrees
    {P P' : Program} {d d' : SwitchDecl} {b b' : Switch} (h : d.SamePlace d')
    (hagrees : P.SwitchAgrees d b) (hagrees' : P'.SwitchAgrees d' b') :
    Switch.SamePlace b b' := by
  cases h with
  | expression _ =>
      cases hagrees
      cases hagrees'
      exact .expression rfl
  | statement _ =>
      cases hagrees
      cases hagrees'
      exact .statement rfl

theorem IsLoadedFrom.forall₂_samePlaces
    {s : Snapshot} {files : List FileDecl} {P P' : Program} (hP : P.IsLoadedFrom s)
    (hP' : P'.IsLoadedFrom (s.withFiles files))
    (h : List.Forall₂ FileDecl.SamePlaces s.files files) :
    List.Forall₂ SourceFile.SamePlaces P.files P'.files := by
  refine (forall₂_of_agreeing h hP.represents.forall₂_fileAgrees
    hP'.represents.forall₂_fileAgrees).imp ?_
  rintro file file' ⟨f, f', hfile, hagrees, hagrees'⟩
  refine ⟨?_, ?_, ?_⟩
  · rw [hagrees.path_eq, hagrees'.path_eq, hfile.path_eq]
  · rw [hagrees.options_eq, hagrees'.options_eq, hfile.options_eq]
  · refine (forall₂_of_agreeing hfile.switches hagrees.switches hagrees'.switches).imp ?_
    rintro b b' ⟨d, d', hplace, hagrees, hagrees'⟩
    exact samePlace_of_switchAgrees hplace hagrees hagrees'

section SamePlaces

variable {P P' : Program} (h : List.Forall₂ SourceFile.SamePlaces P.files P'.files)

include h

theorem recordHierarchiesAllowed_of_samePlaces (hconfig : P'.config = P.config) (file : Nat) :
    P'.recordHierarchiesAllowed file = P.recordHierarchiesAllowed file := by
  have hoption : P'.option? file recordHierarchiesKey =
      P.option? file recordHierarchiesKey := by
    refine bind_eq_of_rel ?_ (rel_getElem?_of_forall₂ h file)
    intro f f' hfile
    rw [hfile.path_eq, hfile.options_eq, hconfig]
  rw [recordHierarchiesAllowed, recordHierarchiesAllowed, hoption]

theorem switches_rel_with_position (file : Nat) :
    Option.Rel (fun f f' => List.Forall₂ (fun b b' => Switch.SamePlace b b' ∧
        ∃ index, P.switch? file index = some b ∧ P'.switch? file index = some b')
      f.switches f'.switches) (P.file? file) (P'.file? file) := by
  have hrel : Option.Rel SourceFile.SamePlaces (P.file? file) (P'.file? file) :=
    rel_getElem?_of_forall₂ h file
  cases hf : P.file? file with
  | none =>
      cases hf' : P'.file? file with
      | none => exact .none
      | some f' =>
          rw [hf, hf'] at hrel
          cases hrel
  | some f =>
      obtain ⟨f', hf', hfile⟩ := exists_of_rel_some hrel hf
      rw [hf']
      refine .some ((forall₂_with_position hfile.switches).imp ?_)
      rintro b b' ⟨hplace, index, hb, hb'⟩
      refine ⟨hplace, index, ?_, ?_⟩
      · rw [switch?, hf, Option.bind_some, hb]
      · rw [switch?, hf', Option.bind_some, hb']

/-- A diagnostic is at an expression with the same position as before. -/
theorem exists_expressionAt?_of_samePlaces
    {l : Location} {e : SwitchExpression} (hfound : P.expressionAt? l = some e) :
    ∃ e' index, P'.expressionAt? l = some e' ∧
      P.switch? l.file index = some (.expression e) ∧
      P'.switch? l.file index = some (.expression e') := by
  obtain ⟨e', hfound', -, index, he, he'⟩ := exists_of_rel_some
    (expressionAt?_rel (fun _ _ hplace => hplace.1) (switches_rel_with_position h l.file))
    hfound
  exact ⟨e', index, hfound', he, he'⟩

theorem exists_statementAt?_of_samePlaces
    {l : Location} {e : SwitchStatement} (hfound : P.statementAt? l = some e) :
    ∃ e' index, P'.statementAt? l = some e' ∧
      P.switch? l.file index = some (.statement e) ∧
      P'.switch? l.file index = some (.statement e') := by
  obtain ⟨e', hfound', -, index, he, he'⟩ := exists_of_rel_some
    (statementAt?_rel (fun _ _ hplace => hplace.1) (switches_rel_with_position h l.file))
    hfound
  exact ⟨e', index, hfound', he, he'⟩

end SamePlaces

end Program

end ClosedSwitch
