import ClosedSwitch.Proofs.Suppression.Replacement

/-!
# The innermost switch around a diagnostic

Among the switches around a span the first of the shortest is found.  Where these switches
are nested in each other it lies inside all others.  Lengths are compared by subtraction,
which is safe because no switch of a loaded program ends before it starts; the span itself
may do so.
-/

namespace ClosedSwitch

/-! ## What has to be found -/

section Items

variable {α : Type} (spanOf : α → Span) (items : List α) (span : Span)

/-- The item lies around the span. -/
def IsAround (a : α) : Prop := (spanOf a).contains span = true

/-- The item is the first of the shortest around the span, and inside all others around it
if any two of these are nested in each other. -/
structure IsInnermost (a : α) : Prop where
  around : IsAround spanOf span a
  shortest : ∀ b ∈ items, IsAround spanOf span b → (spanOf a).length ≤ (spanOf b).length
  first : ∃ before after, items = before ++ a :: after ∧
    ∀ b ∈ before, IsAround spanOf span b → (spanOf a).length < (spanOf b).length
  inside : (∀ b ∈ items, ∀ c ∈ items, IsAround spanOf span b → IsAround spanOf span c →
      (spanOf b).contains (spanOf c) = true ∨ (spanOf c).contains (spanOf b) = true) →
    ∀ b ∈ items, IsAround spanOf span b → (spanOf b).contains (spanOf a) = true

/-- The first item inside the span, or nothing if there is none. -/
def IsFirstInside : Option α → Prop
  | some a => IsFirst (fun a => span.contains (spanOf a) = true) items a
  | none => ∀ a ∈ items, ¬ span.contains (spanOf a) = true

/-- The innermost item around the span is found, or whatever is asked for otherwise. -/
structure LocatesAmong (otherwise : Option α → Prop) (found : Option α) : Prop where
  innermost : (∃ a ∈ items, IsAround spanOf span a) →
    ∃ a, found = some a ∧ IsInnermost spanOf items span a
  otherwise : (∀ a ∈ items, ¬ IsAround spanOf span a) → otherwise found

/-- The search for the shortest item, where a length that is negative leaves it without an
answer. -/
def checkedShortest? : List α → Option (Option α)
  | [] => some none
  | a :: rest => do
    let length ← (spanOf a).length?
    let found ← checkedShortest? rest
    match found with
    | none => some (some a)
    | some b => do
      let other ← (spanOf b).length?
      if other < length then some (some b) else some (some a)

def checkedInnermost? : Option (Option α) :=
  checkedShortest? spanOf (items.filter fun a => (spanOf a).contains span)

end Items

namespace Program

/-- The expression of a location, if no negative length is met on the way. -/
def checkedExpressionAt? (P : Program) (l : Location) : Option (Option SwitchExpression) :=
  match P.file? l.file with
  | none => some none
  | some f => (checkedInnermost? (·.span) f.expressions l.span).map fun found =>
      found.or (f.expressions.find? fun e => l.span.contains e.span)

/-- The statement of a location, if no negative length is met on the way. -/
def checkedStatementAt? (P : Program) (l : Location) : Option (Option SwitchStatement) :=
  match P.file? l.file with
  | none => some none
  | some f => checkedInnermost? (·.span) f.statements l.span

end Program

/-! ## Searching -/

theorem Span.contains_of_length_le
    {s t : Span} (ht : t.IsOrdered) (h : s.contains t = true) (hle : s.length ≤ t.length) :
    t.contains s = true := by
  rw [contains_iff] at h ⊢
  simp only [IsOrdered, length] at ht hle
  omega

section Search

variable {α : Type} {spanOf : α → Span} {items : List α} {span : Span}

theorem shortest?_eq_none_iff : shortest? spanOf items = none ↔ items = [] := by
  cases items with
  | nil => simp [shortest?]
  | cons a rest =>
      rw [shortest?]
      split
      · simp
      · split <;> simp

theorem exists_split_of_shortest?
    {a : α} (h : shortest? spanOf items = some a) :
    ∃ before after, items = before ++ a :: after ∧
      (∀ b ∈ before, (spanOf a).length < (spanOf b).length) ∧
      ∀ b ∈ after, (spanOf a).length ≤ (spanOf b).length := by
  induction items generalizing a with
  | nil => simp [shortest?] at h
  | cons c rest ih =>
      rw [shortest?] at h
      cases hrest : shortest? spanOf rest with
      | none =>
          rw [hrest, Option.some.injEq] at h
          subst h
          obtain rfl := shortest?_eq_none_iff.mp hrest
          exact ⟨[], [], rfl, by simp, by simp⟩
      | some d =>
          obtain ⟨before, after, rfl, hbefore, hafter⟩ := ih hrest
          simp only [hrest] at h
          split at h
          next hlt =>
            obtain rfl := Option.some.inj h
            refine ⟨c :: before, after, rfl, ?_, hafter⟩
            exact List.forall_mem_cons.mpr ⟨hlt, hbefore⟩
          next hge =>
            obtain rfl := Option.some.inj h
            refine ⟨[], before ++ d :: after, rfl, by simp, ?_⟩
            have hle : (spanOf c).length ≤ (spanOf d).length := Nat.le_of_not_lt hge
            intro b hb
            rcases List.mem_append.mp hb with hb | hb
            · exact hle.trans (Nat.le_of_lt (hbefore b hb))
            · rcases List.mem_cons.mp hb with rfl | hb
              · exact hle
              · exact hle.trans (hafter b hb)

theorem innermost?_eq_none_iff :
    innermost? spanOf items span = none ↔ ∀ a ∈ items, ¬ IsAround spanOf span a := by
  rw [innermost?, shortest?_eq_none_iff, List.filter_eq_nil_iff]
  rfl

/-- What is found is innermost, as long as no item around the span ends before it starts. -/
theorem isInnermost_of_innermost?
    {a : α} (hordered : ∀ b ∈ items, (spanOf b).IsOrdered)
    (h : innermost? spanOf items span = some a) : IsInnermost spanOf items span a := by
  obtain ⟨front, back, hsplit, hfront, hback⟩ := exists_split_of_shortest? h
  have hmem : ∀ b, b ∈ items.filter (fun b => (spanOf b).contains span) ↔
      b ∈ items ∧ IsAround spanOf span b := fun b => List.mem_filter
  have haround : a ∈ items ∧ IsAround spanOf span a := by
    rw [← hmem, hsplit]
    exact List.mem_append_right front List.mem_cons_self
  have hshortest : ∀ b ∈ items, IsAround spanOf span b →
      (spanOf a).length ≤ (spanOf b).length := by
    intro b hb hspan
    have hfound := (hmem b).mpr ⟨hb, hspan⟩
    rw [hsplit] at hfound
    rcases List.mem_append.mp hfound with hfound | hfound
    · exact Nat.le_of_lt (hfront b hfound)
    · rcases List.mem_cons.mp hfound with rfl | hfound
      · exact Nat.le_refl _
      · exact hback b hfound
  refine ⟨haround.2, hshortest, ?_, ?_⟩
  · obtain ⟨left, right, rfl, hleft, hright⟩ := List.filter_eq_append_iff.mp hsplit
    obtain ⟨between, after, rfl, hbetween, -, -⟩ := List.filter_eq_cons_iff.mp hright
    refine ⟨left ++ between, after, (List.append_assoc left between _).symm, ?_⟩
    intro b hb hspan
    rcases List.mem_append.mp hb with hb | hb
    · exact hfront b (hleft ▸ List.mem_filter.mpr ⟨hb, hspan⟩)
    · exact absurd hspan (hbetween b hb)
  · intro hnested b hb hspan
    rcases hnested b hb a haround.1 hspan haround.2 with hinside | hinside
    · exact hinside
    · exact Span.contains_of_length_le (hordered b hb) hinside (hshortest b hb hspan)

/-- Where no item ends before it starts, the search meets no negative length. -/
theorem checkedShortest?_eq_some
    (hordered : ∀ a ∈ items, (spanOf a).IsOrdered) :
    checkedShortest? spanOf items = some (shortest? spanOf items) := by
  induction items with
  | nil => rfl
  | cons a rest ih =>
      obtain ⟨ha, hrest⟩ := List.forall_mem_cons.mp hordered
      rw [checkedShortest?, shortest?, Span.length?_of_isOrdered ha, ih hrest]
      cases hbest : shortest? spanOf rest with
      | none => rfl
      | some b =>
          have hb := Span.length?_of_isOrdered (hrest b (Program.mem_of_shortest? hbest))
          simp only [Option.bind_eq_bind, Option.bind_some, hb]
          split
          · rfl
          · rfl

/-- One item that ends before it starts is enough to leave the search without an answer. -/
example : checkedShortest? id [⟨0, 5⟩, ⟨9, 3⟩] = none := rfl

theorem checkedInnermost?_eq_some
    (hordered : ∀ a ∈ items, (spanOf a).IsOrdered) :
    checkedInnermost? spanOf items span = some (innermost? spanOf items span) :=
  checkedShortest?_eq_some fun a ha => hordered a (List.mem_filter.mp ha).1

theorem isFirstInside_find? :
    IsFirstInside spanOf items span (items.find? fun a => span.contains (spanOf a)) := by
  cases hfind : items.find? fun a => span.contains (spanOf a) with
  | none => exact List.find?_eq_none.mp hfind
  | some a =>
      obtain ⟨hinside, before, after, hsplit, hbefore⟩ := List.find?_eq_some_iff_append.mp hfind
      refine ⟨before, after, hsplit, hinside, ?_⟩
      intro b hb
      simpa using hbefore b hb

/-- A search that falls back on something else where nothing is around the span. -/
theorem locatesAmong_or
    (hordered : ∀ a ∈ items, (spanOf a).IsOrdered) {otherwise : Option α → Prop}
    {fallback : Option α} (hfallback : otherwise fallback) :
    LocatesAmong spanOf items span otherwise
      ((innermost? spanOf items span).or fallback) := by
  cases hinner : innermost? spanOf items span with
  | none =>
      have hclear := innermost?_eq_none_iff.mp hinner
      refine ⟨?_, fun _ => hfallback⟩
      rintro ⟨a, ha, haround⟩
      exact absurd haround (hclear a ha)
  | some a =>
      have hfound := isInnermost_of_innermost? hordered hinner
      refine ⟨fun _ => ⟨a, rfl, hfound⟩, ?_⟩
      intro hclear
      exact absurd hfound.around (hclear a (Program.mem_of_innermost? hinner))

end Search

/-! ## The switches of a file -/

/-- The span of a switch expression. -/
def SwitchDecl.expressionSpan? : SwitchDecl → Option Span
  | .expression span _ _ => some span
  | .statement _ _ _ => none

/-- The span of a switch statement. -/
def SwitchDecl.statementSpan? : SwitchDecl → Option Span
  | .expression _ _ _ => none
  | .statement span _ _ => some span

/-- The spans of the declared expressions, in the order of declaration. -/
def FileDecl.expressionSpans (f : FileDecl) : List Span :=
  f.switches.filterMap SwitchDecl.expressionSpan?

def FileDecl.statementSpans (f : FileDecl) : List Span :=
  f.switches.filterMap SwitchDecl.statementSpan?

theorem Snapshot.WellFormed.ordered_of_mem_filterMap
    {s : Snapshot} (hs : s.WellFormed) {f : FileDecl} (hf : f ∈ s.files)
    {spanOf? : SwitchDecl → Option Span}
    (hspan : ∀ d span, spanOf? d = some span → span ∈ d.spans) :
    ∀ span ∈ f.switches.filterMap spanOf?, span.IsOrdered := by
  intro span hmem
  obtain ⟨d, hd, hsome⟩ := List.mem_filterMap.mp hmem
  have hlisted : span ∈ f.switches.flatMap SwitchDecl.spans :=
    List.mem_flatMap.mpr ⟨d, hd, hspan d span hsome⟩
  exact hs.spans (f.path, span)
    (List.mem_flatMap.mpr ⟨f, hf, List.mem_map.mpr ⟨span, hlisted, rfl⟩⟩)

/-- The switches of a loaded file are where they were declared, in the order of
declaration. -/
structure SourceFile.KeepsSpans (f : SourceFile) (d : FileDecl) : Prop where
  expressions : f.expressions.map (·.span) = d.expressionSpans
  statements : f.statements.map (·.span) = d.statementSpans

theorem keepsSpans_of_fileAgrees
    {P : Program} {d : FileDecl} {f : SourceFile} (h : P.FileAgrees d f) : f.KeepsSpans d := by
  refine ⟨?_, ?_⟩
  · rw [SourceFile.expressions, List.map_filterMap]
    refine filterMap_eq_of_forall₂ ?_ h.switches
    intro d b hagrees
    cases hagrees with
    | expression => rfl
    | statement => rfl
  · rw [SourceFile.statements, List.map_filterMap]
    refine filterMap_eq_of_forall₂ ?_ h.switches
    intro d b hagrees
    cases hagrees with
    | expression => rfl
    | statement => rfl

/-- No switch of the file ends before it starts. -/
structure SourceFile.IsOrdered (f : SourceFile) : Prop where
  expressions : ∀ e ∈ f.expressions, e.span.IsOrdered
  statements : ∀ t ∈ f.statements, t.span.IsOrdered

theorem SourceFile.KeepsSpans.isOrdered
    {s : Snapshot} (hs : s.WellFormed) {d : FileDecl} (hd : d ∈ s.files) {f : SourceFile}
    (h : f.KeepsSpans d) : f.IsOrdered := by
  refine ⟨?_, ?_⟩
  · refine (List.forall_mem_map (f := SwitchExpression.span) (P := Span.IsOrdered)).mp ?_
    rw [h.expressions]
    refine hs.ordered_of_mem_filterMap hd ?_
    intro d span hspan
    cases d with
    | expression => simpa [SwitchDecl.spans] using Or.inl (Option.some.inj hspan).symm
    | statement => simp [SwitchDecl.expressionSpan?] at hspan
  · refine (List.forall_mem_map (f := SwitchStatement.span) (P := Span.IsOrdered)).mp ?_
    rw [h.statements]
    refine hs.ordered_of_mem_filterMap hd ?_
    intro d span hspan
    cases d with
    | expression => simp [SwitchDecl.statementSpan?] at hspan
    | statement => simpa [SwitchDecl.spans] using Or.inl (Option.some.inj hspan).symm

namespace Program

theorem IsLoadedFrom.wellFormed
    {P : Program} {s : Snapshot} (hP : P.IsLoadedFrom s) : s.WellFormed := by
  obtain ⟨loaded, config, hload, rfl⟩ := hP
  exact Snapshot.exists_load_iff_wellFormed.mp ⟨loaded, hload⟩

theorem IsLoadedFrom.exists_file
    {P : Program} {s : Snapshot} (hP : P.IsLoadedFrom s) {k : Nat} {d : FileDecl}
    (hd : s.files[k]? = some d) :
    ∃ f, P.file? k = some f ∧ f.KeepsSpans d ∧ f.IsOrdered := by
  obtain ⟨f, hf, hagrees⟩ :=
    exists_right_of_forall₂ hP.represents.forall₂_fileAgrees hd
  have hspans := keepsSpans_of_fileAgrees hagrees
  exact ⟨f, hf, hspans, hspans.isOrdered hP.wellFormed (List.mem_of_getElem? hd)⟩

theorem IsLoadedFrom.file?_eq_none
    {P : Program} {s : Snapshot} (hP : P.IsLoadedFrom s) {k : Nat}
    (hk : s.files.length ≤ k) : P.file? k = none := by
  rw [file?, List.getElem?_eq_none_iff, ← hP.represents.forall₂_fileAgrees.length_eq]
  exact hk

section Files

variable {P : Program} {l : Location}

theorem nothing_located_of_file?_eq_none
    (hfile : P.file? l.file = none) : P.expressionAt? l = none ∧ P.statementAt? l = none := by
  rw [expressionAt?, statementAt?, hfile]
  exact ⟨rfl, rfl⟩

theorem checkedAt?_of_file?_eq_none
    (hfile : P.file? l.file = none) :
    P.checkedExpressionAt? l = some (P.expressionAt? l) ∧
      P.checkedStatementAt? l = some (P.statementAt? l) := by
  obtain ⟨hexpression, hstatement⟩ := nothing_located_of_file?_eq_none hfile
  rw [hexpression, hstatement, checkedExpressionAt?, checkedStatementAt?, hfile]
  exact ⟨rfl, rfl⟩

variable {f : SourceFile} (hfile : P.file? l.file = some f) (hordered : f.IsOrdered)

include hfile hordered

theorem checkedAt?_of_isOrdered :
    P.checkedExpressionAt? l = some (P.expressionAt? l) ∧
      P.checkedStatementAt? l = some (P.statementAt? l) := by
  rw [checkedExpressionAt?, checkedStatementAt?, expressionAt?, statementAt?, hfile]
  simp only [Option.bind_some, checkedInnermost?_eq_some hordered.expressions,
    checkedInnermost?_eq_some hordered.statements, Option.map_some, and_self]

theorem locatesAmong_expressions :
    LocatesAmong (·.span) f.expressions l.span
      (IsFirstInside (·.span) f.expressions l.span) (P.expressionAt? l) := by
  rw [expressionAt?, hfile, Option.bind_some]
  exact locatesAmong_or hordered.expressions isFirstInside_find?

theorem locatesAmong_statements :
    LocatesAmong (·.span) f.statements l.span (· = none) (P.statementAt? l) := by
  rw [statementAt?, hfile, Option.bind_some, ← Option.or_none (o := innermost? _ _ _)]
  exact locatesAmong_or hordered.statements rfl

end Files

end Program

/-- At every location of a loaded program no negative length is met.  The innermost switch
around the location is found, or else the first expression inside it. -/
theorem innermost_switch_located
    {s : Snapshot} {P : Program} (hP : P.IsLoadedFrom s) (l : Location) :
    P.checkedExpressionAt? l = some (P.expressionAt? l) ∧
    P.checkedStatementAt? l = some (P.statementAt? l) ∧
    (∀ d, s.files[l.file]? = some d → ∃ f, P.file? l.file = some f ∧ f.KeepsSpans d ∧
      LocatesAmong (·.span) f.expressions l.span
        (IsFirstInside (·.span) f.expressions l.span) (P.expressionAt? l) ∧
      LocatesAmong (·.span) f.statements l.span (· = none) (P.statementAt? l)) ∧
    (s.files.length ≤ l.file → P.expressionAt? l = none ∧ P.statementAt? l = none) := by
  rw [← and_assoc]
  refine ⟨?_, ?_, ?_⟩
  · cases hd : s.files[l.file]? with
    | none =>
        exact Program.checkedAt?_of_file?_eq_none
          (hP.file?_eq_none (List.getElem?_eq_none_iff.mp hd))
    | some d =>
        obtain ⟨f, hf, -, hordered⟩ := hP.exists_file hd
        exact Program.checkedAt?_of_isOrdered hf hordered
  · intro d hd
    obtain ⟨f, hf, hspans, hordered⟩ := hP.exists_file hd
    exact ⟨f, hf, hspans, Program.locatesAmong_expressions hf hordered,
      Program.locatesAmong_statements hf hordered⟩
  · intro hunknown
    exact Program.nothing_located_of_file?_eq_none (hP.file?_eq_none hunknown)

/-- An expression around a statement and around two expressions with one span. -/
def overlappingSnapshot : Snapshot where
  files :=
    [{ path := "Test.cs"
       switches :=
        [.expression ⟨0, 100⟩ {} [], .statement ⟨5, 95⟩ {} [],
         .expression ⟨10, 50⟩ {} [], .expression ⟨10, 50⟩ {} []] }]

/-- Its switches have the governing nodes 0, 1, 2 and 3. -/
def overlappingProgram : Program := .ofSnapshot overlappingSnapshot

/-- Of two expressions with one span the first is found, also for a span that ends before it
starts.  A span around everything belongs to the first expression. -/
theorem overlappingProgram_located :
    overlappingProgram.IsLoadedFrom overlappingSnapshot ∧
      (∃ f e, overlappingProgram.file? 0 = some f ∧
        overlappingProgram.expressionAt? ⟨0, ⟨20, 30⟩⟩ = some e ∧
        IsInnermost (·.span) f.expressions ⟨20, 30⟩ e ∧ e.governing.node = 2) ∧
      (overlappingProgram.checkedExpressionAt? ⟨0, ⟨40, 20⟩⟩).isSome = true ∧
      (overlappingProgram.expressionAt? ⟨0, ⟨40, 20⟩⟩).map (·.governing.node) = some 2 ∧
      (overlappingProgram.expressionAt? ⟨0, ⟨0, 200⟩⟩).map (·.governing.node) = some 0 ∧
      (∀ span, overlappingProgram.expressionAt? ⟨1, span⟩ = none) := by
  have hload : overlappingProgram.IsLoadedFrom overlappingSnapshot :=
    Program.isLoadedFrom_ofSnapshot rfl
  have hlocated := innermost_switch_located hload
  refine ⟨hload, ?_, ?_, by decide, by decide, ?_⟩
  · obtain ⟨f, hf, -, hexpression, -⟩ := (hlocated ⟨0, ⟨20, 30⟩⟩).2.2.1 _ rfl
    have hnode : (overlappingProgram.expressionAt? ⟨0, ⟨20, 30⟩⟩).map (·.governing.node) =
        some 2 := by decide
    cases Option.some.inj hf
    obtain ⟨e, he, hinnermost⟩ := hexpression.innermost ⟨_, List.mem_cons_self, rfl⟩
    rw [he] at hnode
    exact ⟨_, e, rfl, he, hinnermost, Option.some.inj hnode⟩
  · rw [(hlocated ⟨0, ⟨40, 20⟩⟩).1]
    rfl
  · intro span
    exact ((hlocated ⟨1, span⟩).2.2.2 (Nat.le_refl 1)).1

end ClosedSwitch
