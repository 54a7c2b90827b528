import ClosedSwitch.Proofs.Load.WellFormed

/-!
# The first defect of a snapshot

A snapshot loads exactly when it is well formed, and otherwise loading reports its
first defect.  The parts of a snapshot are checked in six groups: the names of the
types, the references between them, their base types, the extensions, the spans of
the switches and the diagnostics.  A defect of one group is reported only if the
groups before it have none, and within a group the first one in the order of the
snapshot is.
-/

namespace ClosedSwitch

/-! ## Each group of checks -/

theorem firstRepeated?_eq_some_iff
    {seen names : List String} {name : String} :
    firstRepeated? seen names = some name ↔
      ∃ before after, names = before ++ name :: after ∧
        firstRepeated? seen before = none ∧ (name ∈ before ∨ name ∈ seen) := by
  induction names generalizing seen with
  | nil => simp [firstRepeated?]
  | cons first rest ih =>
      constructor
      · intro h
        rw [firstRepeated?] at h
        split at h
        next hseen =>
          rw [Option.some.injEq] at h
          exact ⟨[], rest, by rw [h, List.nil_append], rfl, Or.inr (h ▸ hseen)⟩
        next hseen =>
          obtain ⟨before, after, rfl, hnone, hrepeated⟩ := ih.mp h
          refine ⟨first :: before, after, rfl, ?_, ?_⟩
          · rw [firstRepeated?, if_neg hseen]
            exact hnone
          · rw [List.mem_cons] at hrepeated ⊢
            tauto
      · rintro ⟨before, after, hsplit, hnone, hrepeated⟩
        cases before with
        | nil =>
            rw [List.nil_append, List.cons.injEq] at hsplit
            have hseen : first ∈ seen := by simpa [hsplit.1] using hrepeated
            rw [firstRepeated?, if_pos hseen, hsplit.1]
        | cons b before =>
            rw [List.cons_append, List.cons.injEq] at hsplit
            obtain ⟨rfl, rfl⟩ := hsplit
            rw [firstRepeated?] at hnone ⊢
            split at hnone
            · simp at hnone
            next hseen =>
              rw [if_neg hseen, ih]
              refine ⟨before, after, rfl, hnone, ?_⟩
              rw [List.mem_cons] at hrepeated ⊢
              tauto

theorem failure?_requireType
    (names : List String) (owner name : String) :
    failure? (requireType names.idxOf? owner name) =
      check? (· ∈ names) (fun name => .unknownType name owner) name := by
  rw [requireType, check?]
  by_cases hmem : name ∈ names
  · obtain ⟨t, ht⟩ := Option.isSome_iff_exists.mp (List.isSome_idxOf?.mpr hmem)
    rw [ht, if_pos hmem]
    rfl
  · rw [List.idxOf?_eq_none_iff.mpr hmem, if_neg hmem]
    rfl

theorem TypeShape.failure?_resolve
    (require : String → Except LoadError TypeId) (s : TypeShape String) :
    failure? (s.resolve require) =
      s.references.findSome? fun name => failure? (require name) := by
  simp only [references, List.findSome?_append, findSome?_flatMap, Option.or_assoc]
  refine failure?_bind (failure?_optionMapM _ _) fun base _ => ?_
  refine failure?_bind (failure?_mapM _ _) fun interfaces _ => ?_
  refine failure?_bind ?_ fun constructors _ => failure?_bind ?_ fun properties _ => ?_
  · simp only [failure?_mapM, failure?_bind_pure, failure?_optionMapM]
  · simp only [failure?_mapM, failure?_bind_pure, failure?_optionMapM]
  · simp only [failure?_mapM, failure?_bind_pure, failure?_optionMapM]

/-- The complaint about a reference that does not resolve. -/
def Snapshot.unresolved? (s : Snapshot) : String × String → Option LoadError :=
  check? (fun r => r.1 ∈ s.typeNames) fun r => .unknownType r.1 r.2

theorem failure?_requireType_eq_unresolved? (s : Snapshot) (owner name : String) :
    failure? (requireType s.typeNames.idxOf? owner name) = s.unresolved? (name, owner) :=
  failure?_requireType s.typeNames owner name

theorem PlacedType.failure?_define (s : Snapshot) (p : PlacedType) :
    failure? (p.define s.typeNames.idxOf?) =
      (p.shape.references.map fun name => (name, p.shape.name)).findSome?
        s.unresolved? := by
  rw [define, failure?_bind_pure, TypeShape.failure?_resolve, List.findSome?_map]
  simp only [failure?_requireType_eq_unresolved?]
  rfl

theorem TypeTable.failure?_mapM_define (s : Snapshot) :
    failure? ((placed s.types).mapM (PlacedType.define s.typeNames.idxOf?)) =
      s.typeReferences.findSome? s.unresolved? := by
  rw [failure?_mapM]
  simp only [PlacedType.failure?_define]
  rw [Snapshot.typeReferences, Snapshot.declaredTypes,
    ← TypeDecl.shapes_placeAll none builtinTypes.length, findSome?_flatMap,
    List.findSome?_map]
  rfl

theorem Extension.failure?_resolve (s : Snapshot) (e : Extension String) :
    failure? (e.resolve s.typeNames.idxOf?) =
      ((e.receiver, "extension Deconstruct") ::
        (e.parameters.flatMap Option.toList).map fun name => (name, e.receiver)).findSome?
          s.unresolved? := by
  rw [findSome?_cons_eq_or, List.findSome?_map]
  refine failure?_bind (failure?_requireType_eq_unresolved? s _ _) fun receiver _ => ?_
  rw [failure?_bind_pure]
  simp only [failure?_mapM, failure?_optionMapM, findSome?_flatMap,
    failure?_requireType_eq_unresolved?]
  rfl

theorem Snapshot.failure?_extensions (s : Snapshot) :
    failure? (s.extensions.mapM (Extension.resolve s.typeNames.idxOf?)) =
      s.extensionReferences.findSome? s.unresolved? := by
  rw [failure?_mapM, extensionReferences, findSome?_flatMap]
  simp only [Extension.failure?_resolve]

theorem Snapshot.findSome?_invertedSpan? (s : Snapshot) :
    s.files.findSome? FileDecl.invertedSpan? =
      s.switchSpans.findSome?
        (check? (fun r => r.2.IsOrdered) fun r => .invertedSpan r.1 r.2) := by
  rw [switchSpans, findSome?_flatMap]
  have hfile : ∀ f : FileDecl, f.invertedSpan? =
      ((f.switches.flatMap SwitchDecl.spans).map fun span => (f.path, span)).findSome?
        (check? (fun r => r.2.IsOrdered) fun r => .invertedSpan r.1 r.2) := by
    intro f
    rw [List.findSome?_map, FileDecl.invertedSpan?]
    exact map_find?_eq_findSome?_check? fun span _ => by simp
  rw [funext hfile]

/-- What is reported of a diagnostic that has no file or whose span is not ordered. -/
def Snapshot.misplacement (s : Snapshot) (d : DiagnosticDecl) : LoadError :=
  if d.file ∈ s.paths then .invertedSpan d.file d.span else .unknownFile d.file

theorem Snapshot.failure?_diagnostics (s : Snapshot) :
    failure? (s.diagnostics.mapM (DiagnosticDecl.resolve s.paths)) =
      s.diagnostics.findSome? (check? s.Locates s.misplacement) := by
  have hresolve : ∀ d : DiagnosticDecl,
      failure? (d.resolve s.paths) = check? s.Locates s.misplacement d := by
    intro d
    rw [DiagnosticDecl.resolve, check?, misplacement]
    by_cases hfile : d.file ∈ s.paths
    · obtain ⟨file, hidx⟩ := Option.isSome_iff_exists.mp (List.isSome_idxOf?.mpr hfile)
      by_cases hspan : d.span.IsOrdered
      · simp [hidx, hspan, Locates, hfile, failure?]
      · simp [hidx, hspan, Locates, hfile, failure?]
    · simp [List.idxOf?_eq_none_iff.mpr hfile, Locates, hfile, failure?]
  rw [failure?_mapM, funext hresolve]

namespace TypeTable

open Classical in
theorem Represents.map_cyclicType?
    {T : TypeTable} {s : Snapshot} (hT : T.Represents s.types) :
    T.cyclicType?.map (fun t => .cyclicBase (T.name t)) =
      s.typeNames.findSome? (check? (fun name => ¬ s.HasEndlessBases name) .cyclicBase) := by
  rw [← hT.names_eq, ← map_name_range, List.findSome?_map, cyclicType?]
  have hbound : ∀ u b, T.base? u = some b → b < T.size := by
    intro u b hbase
    exact ((hT.base?_eq_some_iff (lt_size_of_base? hbase)).mp hbase).1
  apply map_find?_eq_findSome?_check?
  intro t ht
  rw [List.mem_range] at ht
  rw [not_not, Bool.not_eq_true', chainEnds_size_eq_false_iff hbound ht,
    hT.hasEndlessBases_iff ht]

end TypeTable

/-! ## All groups in order -/

open Classical in
theorem Snapshot.failure?_loadTypes (s : Snapshot) :
    failure? (TypeTable.load s.types) =
      ((firstRepeated? [] s.typeNames).map .duplicateType).or
        ((s.typeReferences.findSome? s.unresolved?).or
          (s.typeNames.findSome?
            (check? (fun name => ¬ s.HasEndlessBases name) .cyclicBase))) := by
  have hnames : builtinTypes.map (·.name) ++
      (TypeTable.placed s.types).map (·.shape.name) = s.typeNames := by
    rw [TypeTable.names_placed]
    rfl
  simp only [TypeTable.load]
  rw [← TypeTable.placed, hnames]
  split
  next name hrepeated =>
    rw [hrepeated]
    rfl
  next hdistinct =>
    rw [hdistinct, Option.map_none, Option.none_or]
    refine failure?_bind (TypeTable.failure?_mapM_define s) fun entries hentries => ?_
    -- The references resolve, so the table stands for the declarations, cyclic or not.
    have hT := TypeTable.represents_of_mapM_define hnames.symm
      (firstRepeated?_eq_none_iff.mp hdistinct).1 hentries
    rw [← hT.map_cyclicType?]
    split
    next t hcyclic =>
      rw [hcyclic]
      rfl
    next hacyclic =>
      rw [hacyclic]
      rfl

open Classical in
theorem Snapshot.failure?_load (s : Snapshot) :
    failure? (Program.load s) =
      (failure? (TypeTable.load s.types)).or
        ((s.extensionReferences.findSome? s.unresolved?).or
          ((s.switchSpans.findSome?
              (check? (fun r => r.2.IsOrdered) fun r => .invertedSpan r.1 r.2)).or
            (s.diagnostics.findSome? (check? s.Locates s.misplacement)))) := by
  refine failure?_bind rfl fun T hload => ?_
  have hfind : T.find? = s.typeNames.idxOf? := by
    funext name
    rw [TypeTable.find?, (TypeTable.represents_of_load hload).names_eq]
  refine failure?_bind (hfind ▸ s.failure?_extensions) fun extensions _ => ?_
  rw [← s.findSome?_invertedSpan?]
  split
  next defect hspan =>
    rw [hspan]
    rfl
  next hspan =>
    rw [hspan, Option.none_or, ← s.failure?_diagnostics]
    exact failure?_bind_pure _ _

namespace Snapshot

theorem repeatedName?_eq_none_iff (s : Snapshot) :
    (firstRepeated? [] s.typeNames).map LoadError.duplicateType = none ↔
      s.NamesDistinct := by
  rw [Option.map_eq_none_iff, firstRepeated?_eq_none_iff, NamesDistinct]
  simp

theorem repeatedName?_eq_some_iff {s : Snapshot} {e : LoadError} :
    (firstRepeated? [] s.typeNames).map LoadError.duplicateType = some e ↔
      ∃ before after name, s.typeNames = before ++ name :: after ∧ before.Nodup ∧
        name ∈ before ∧ .duplicateType name = e := by
  simp only [Option.map_eq_some_iff, firstRepeated?_eq_some_iff,
    firstRepeated?_eq_none_iff, List.not_mem_nil, not_false_eq_true, implies_true,
    and_true, or_false]
  constructor
  · rintro ⟨name, ⟨before, after, hsplit, hdistinct, hrepeated⟩, rfl⟩
    exact ⟨before, after, name, hsplit, hdistinct, hrepeated, rfl⟩
  · rintro ⟨before, after, name, hsplit, hdistinct, hrepeated, rfl⟩
    exact ⟨name, ⟨before, after, hsplit, hdistinct, hrepeated⟩, rfl⟩

theorem failure?_load_eq_none_iff {s : Snapshot} :
    failure? (Program.load s) = none ↔ s.WellFormed := by
  classical
  rw [failure?_load, failure?_loadTypes]
  simp only [Option.or_eq_none_iff, repeatedName?_eq_none_iff, unresolved?,
    findSome?_check?_eq_none_iff]
  constructor
  · rintro ⟨⟨hnames, hreferences, hbases⟩, hextensions, hspans, hdiagnostics⟩
    exact ⟨hnames, hreferences, hbases, hextensions, hspans, hdiagnostics⟩
  · rintro ⟨hnames, hreferences, hbases, hextensions, hspans, hdiagnostics⟩
    exact ⟨⟨hnames, hreferences, hbases⟩, hextensions, hspans, hdiagnostics⟩

theorem exists_load_iff_wellFormed {s : Snapshot} :
    (∃ P, Program.load s = .ok P) ↔ s.WellFormed := by
  rw [← failure?_eq_none_iff, failure?_load_eq_none_iff]

theorem failure?_load_eq_some_iff {s : Snapshot} {e : LoadError} :
    failure? (Program.load s) = some e ↔ s.FirstDefect e := by
  classical
  rw [failure?_load, failure?_loadTypes]
  simp only [Option.or_eq_some_iff, Option.or_eq_none_iff, repeatedName?_eq_none_iff,
    repeatedName?_eq_some_iff, unresolved?, findSome?_check?_eq_none_iff,
    findSome?_check?_eq_some_iff]
  constructor
  · rintro ((⟨before, after, name, hsplit, hdistinct, hrepeated, rfl⟩ |
      ⟨hnames, ⟨⟨name, owner⟩, hfirst, rfl⟩ | ⟨hreferences, name, hfirst, rfl⟩⟩) |
      ⟨⟨hnames, hreferences, hbases⟩, ⟨⟨name, owner⟩, hfirst, rfl⟩ |
        ⟨hextensions, ⟨⟨path, span⟩, hfirst, rfl⟩ | ⟨hspans, d, hfirst, rfl⟩⟩⟩)
    · exact .repeatedName hsplit hdistinct hrepeated
    · exact .unresolvedReference hnames hfirst
    · simp only [not_not] at hfirst
      exact .endlessBases hnames hreferences hfirst
    · exact .unresolvedExtension hnames hreferences hbases hfirst
    · exact .disorderedSwitch hnames hreferences hbases hextensions hfirst
    · rw [misplacement]
      split
      next hfile =>
        exact .disorderedDiagnostic hnames hreferences hbases hextensions hspans hfirst hfile
      next hfile =>
        exact .missingFile hnames hreferences hbases hextensions hspans hfirst hfile
  · intro h
    cases h with
    | repeatedName hsplit hdistinct hrepeated =>
        exact .inl (.inl ⟨_, _, _, hsplit, hdistinct, hrepeated, rfl⟩)
    | unresolvedReference hnames hfirst =>
        exact .inl (.inr ⟨hnames, .inl ⟨_, hfirst, rfl⟩⟩)
    | endlessBases hnames hreferences hfirst =>
        simp only [not_not]
        exact .inl (.inr ⟨hnames, .inr ⟨hreferences, _, hfirst, rfl⟩⟩)
    | unresolvedExtension hnames hreferences hbases hfirst =>
        exact .inr ⟨⟨hnames, hreferences, hbases⟩, .inl ⟨_, hfirst, rfl⟩⟩
    | disorderedSwitch hnames hreferences hbases hextensions hfirst =>
        exact .inr ⟨⟨hnames, hreferences, hbases⟩,
          .inr ⟨hextensions, .inl ⟨_, hfirst, rfl⟩⟩⟩
    | missingFile hnames hreferences hbases hextensions hspans hfirst hfile =>
        exact .inr ⟨⟨hnames, hreferences, hbases⟩,
          .inr ⟨hextensions, .inr ⟨hspans, _, hfirst, if_neg hfile⟩⟩⟩
    | disorderedDiagnostic hnames hreferences hbases hextensions hspans hfirst hfile =>
        exact .inr ⟨⟨hnames, hreferences, hbases⟩,
          .inr ⟨hextensions, .inr ⟨hspans, _, hfirst, if_pos hfile⟩⟩⟩

end Snapshot

/-- Loading accepts exactly the well-formed snapshots, and of every other one it
reports the first defect. -/
theorem load_reports_first_defect (s : Snapshot) :
    ((∃ P, Program.load s = .ok P) ↔ s.WellFormed) ∧
      ∀ e, Program.load s = .error e ↔ s.FirstDefect e := by
  constructor
  · rw [← failure?_eq_none_iff, Snapshot.failure?_load_eq_none_iff]
  · intro e
    rw [← failure?_eq_some_iff, Snapshot.failure?_load_eq_some_iff]

/-- A nested type collides with a top-level one whose name has a dot; that the base type
is missing comes second. -/
example :
    Program.load
      { types :=
          [⟨{ name := "A", base := some "Missing" }, [⟨{ name := "B" }, []⟩]⟩,
           ⟨{ name := "A.B" }, []⟩] } =
      .error (.duplicateType "A.B") :=
  rfl

end ClosedSwitch
