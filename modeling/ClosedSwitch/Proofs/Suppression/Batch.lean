import ClosedSwitch.Batch

/-!
# What a batch reports

Each diagnostic goes through the suppressors up to the first one that has an answer.  A
batch is cancelled exactly when it starts so or when one of these suppressors asks for it
to stop, for any diagnostic; otherwise it reports all the answers.
-/

namespace ClosedSwitch

/-! ## One diagnostic -/

/-- The answer of the first suppressor that suppresses the diagnostic. -/
def answer? (P : Program) (suppressors : List Suppressor) (d : Diagnostic) :
    Option Suppression :=
  suppressors.findSome? (·.suppress? P d)

/-- The suppressors that look at a diagnostic, up to the first that suppresses it. -/
def consulted (P : Program) (d : Diagnostic) : List Suppressor → List Suppressor
  | [] => []
  | s :: rest => s :: if (s.suppress? P d).isSome then [] else consulted P d rest

/-- Whether a suppressor that looks at the diagnostic asks for the batch to stop. -/
def stopsAt (P : Program) (suppressors : List Suppressor) (d : Diagnostic) : Bool :=
  (consulted P d suppressors).any (·.cancels P d)

/-- None of the suppressors asks for the batch to stop. -/
def NeverCancels (P : Program) (suppressors : List Suppressor) : Prop :=
  ∀ s ∈ suppressors, ∀ d, s.cancels P d = false

theorem answer?_congr
    {P P' : Program} {suppressors : List Suppressor} {d : Diagnostic}
    (h : ∀ s ∈ suppressors, s.suppress? P' d = s.suppress? P d) :
    answer? P' suppressors d = answer? P suppressors d := by
  induction suppressors with
  | nil => rfl
  | cons s rest ih =>
      have hrest := ih fun s' hs' => h s' (List.mem_cons_of_mem s hs')
      rw [answer?, answer?] at hrest
      rw [answer?, answer?, List.findSome?_cons, List.findSome?_cons,
        h s List.mem_cons_self, hrest]

section Consulted

variable {P : Program} {d : Diagnostic} {s : Suppressor} {rest : List Suppressor}

theorem answer?_cons_of_some {answer : Suppression} (h : s.suppress? P d = some answer) :
    answer? P (s :: rest) d = some answer := by
  rw [answer?, List.findSome?_cons, h]

theorem answer?_cons_of_none (h : s.suppress? P d = none) :
    answer? P (s :: rest) d = answer? P rest d := by
  rw [answer?, List.findSome?_cons, h]
  rfl

theorem stopsAt_cons_of_some {answer : Suppression} (h : s.suppress? P d = some answer) :
    stopsAt P (s :: rest) d = s.cancels P d := by
  simp [stopsAt, consulted, h]

theorem stopsAt_cons_of_none (h : s.suppress? P d = none) :
    stopsAt P (s :: rest) d = (s.cancels P d || stopsAt P rest d) := by
  simp [stopsAt, consulted, h]

theorem mem_of_mem_consulted
    {suppressors : List Suppressor} (h : s ∈ consulted P d suppressors) :
    s ∈ suppressors := by
  induction suppressors with
  | nil => exact absurd h List.not_mem_nil
  | cons first rest ih =>
      rcases List.mem_cons.mp h with rfl | hrest
      · exact List.mem_cons_self
      · split at hrest
        · exact absurd hrest List.not_mem_nil
        · exact List.mem_cons_of_mem first (ih hrest)

end Consulted

/-! ## A whole batch -/

section Batch

variable {P : Program} {suppressors : List Suppressor}

theorem firstSuppression_eq (d : Diagnostic) (token : CancellationToken) :
    firstSuppression P d token suppressors =
      (answer? P suppressors d, ⟨token.isCancelled || stopsAt P suppressors d⟩) := by
  induction suppressors generalizing token with
  | nil => simp [firstSuppression, answer?, stopsAt, consulted]
  | cons s rest ih =>
      rw [firstSuppression]
      cases hs : s.suppress? P d with
      | some answer => rw [answer?_cons_of_some hs, stopsAt_cons_of_some hs]
      | none =>
          rw [answer?_cons_of_none hs, stopsAt_cons_of_none hs, ← Bool.or_assoc]
          exact ih _

theorem token_answers? (diagnostics : List Diagnostic) (token : CancellationToken) :
    (answers? P suppressors token diagnostics).2 =
      ⟨token.isCancelled || diagnostics.any (stopsAt P suppressors)⟩ := by
  induction diagnostics generalizing token with
  | nil => simp [answers?]
  | cons d rest ih =>
      by_cases htoken : token.isCancelled = true
      · rw [answers?, if_pos htoken, htoken, Bool.true_or, ← htoken]
      · rw [answers?, if_neg htoken, firstSuppression_eq, List.any_cons, ← Bool.or_assoc]
        exact ih _

/-- As long as nothing asks for the batch to stop, every diagnostic is answered. -/
theorem answers?_eq_map
    {diagnostics : List Diagnostic} {token : CancellationToken}
    (h : (token.isCancelled || diagnostics.any (stopsAt P suppressors)) = false) :
    (answers? P suppressors token diagnostics).1 =
      some (diagnostics.map (answer? P suppressors)) := by
  induction diagnostics generalizing token with
  | nil => rfl
  | cons d rest ih =>
      rw [List.any_cons, ← Bool.or_assoc] at h
      have htoken : ¬ token.isCancelled = true := by
        intro htrue
        simp [htrue] at h
      have hrest := @ih ⟨token.isCancelled || stopsAt P suppressors d⟩ h
      rw [answers?, if_neg htoken, firstSuppression_eq]
      simp only [hrest, Option.map_some, List.map_cons]

theorem reportSuppressions_eq (diagnostics : List Diagnostic) (token : CancellationToken) :
    reportSuppressions P suppressors diagnostics token =
      if token.isCancelled || diagnostics.any (stopsAt P suppressors) then
        (.error .cancelled, ⟨true⟩)
      else (.ok (diagnostics.filterMap (answer? P suppressors)), ⟨false⟩) := by
  have htoken : (answers? P suppressors token diagnostics).2 = _ :=
    token_answers? diagnostics token
  rw [reportSuppressions]
  by_cases hstops : (token.isCancelled || diagnostics.any (stopsAt P suppressors)) = true
  · rw [if_pos hstops]
    rw [hstops] at htoken
    split
    next after heq => rw [← htoken, heq]
    next answers after heq =>
      rw [heq] at htoken
      change after = _ at htoken
      rw [htoken]
      rfl
  · rw [if_neg hstops]
    rw [Bool.not_eq_true] at hstops
    rw [hstops] at htoken
    have hanswers := answers?_eq_map hstops
    rw [← Prod.eta (answers? P suppressors token diagnostics), htoken, hanswers]
    simp [List.filterMap_map]

theorem stopsAt_eq_false (h : NeverCancels P suppressors) (d : Diagnostic) :
    stopsAt P suppressors d = false := by
  rw [stopsAt, List.any_eq_false]
  intro s hs
  rw [h s (mem_of_mem_consulted hs) d]
  exact Bool.false_ne_true

theorem reportSuppressions_eq_filterMap
    (h : NeverCancels P suppressors) (diagnostics : List Diagnostic) :
    reportSuppressions P suppressors diagnostics {} =
      (.ok (diagnostics.filterMap (answer? P suppressors)), {}) := by
  have hany : diagnostics.any (stopsAt P suppressors) = false := by
    rw [List.any_eq_false]
    intro d _
    rw [stopsAt_eq_false h d]
    exact Bool.false_ne_true
  rw [reportSuppressions_eq, hany]
  rfl

end Batch

/-! ## Standard suppressors -/

/-- One of the suppressors for the two forms of switch, whether or not it takes records
for granted. -/
def Suppressor.IsStandard (x : Suppressor) : Prop :=
  ∃ forceRecords, x = expression forceRecords ∨ x = statement forceRecords

theorem Suppressor.isStandard_of_mem_both
    {forceRecords : Bool} {x : Suppressor} (h : x ∈ both forceRecords) : x.IsStandard := by
  simp only [both, List.mem_cons, List.not_mem_nil, or_false] at h
  exact ⟨forceRecords, h⟩

theorem neverCancels_of_isStandard
    {suppressors : List Suppressor} (h : ∀ x ∈ suppressors, x.IsStandard) (P : Program) :
    NeverCancels P suppressors := by
  intro x hx d
  obtain ⟨forceRecords, rfl | rfl⟩ := h x hx
  · rfl
  · rfl

theorem descriptor_of_findDescriptor?
    {descriptors : List Descriptor} (hsubset : descriptors ⊆ allDescriptors)
    {id : String} {x : Descriptor} (h : findDescriptor? descriptors id = some x) :
    x = closedHierarchyDescriptor id ∧ x ∈ allDescriptors := by
  have hmem := hsubset (List.mem_of_find?_eq_some h)
  have hid : x.suppressedId = id := by simpa using List.find?_some h
  have hshape : ∀ y ∈ allDescriptors, y = closedHierarchyDescriptor y.suppressedId := by
    decide
  exact ⟨hid ▸ hshape x hmem, hmem⟩

/-- A standard suppressor answers with the diagnostic itself and the descriptor for its
kind. -/
theorem answer_of_isStandard
    {x : Suppressor} (hx : x.IsStandard) {P : Program} {d : Diagnostic} {answer : Suppression}
    (h : x.suppress? P d = some answer) :
    answer = ⟨closedHierarchyDescriptor d.id, d⟩ ∧ answer.descriptor ∈ allDescriptors := by
  obtain ⟨descriptors, hsubset, descriptor, hfound, hanswer⟩ :
      ∃ descriptors ⊆ allDescriptors, ∃ descriptor,
        findDescriptor? descriptors d.id = some descriptor ∧ answer = ⟨descriptor, d⟩ := by
    obtain ⟨forceRecords, rfl | rfl⟩ := hx
    · simp only [Suppressor.expression, Program.suppressExpression?, Option.bind_eq_bind,
        Option.bind_eq_some_iff, Option.ite_none_right_eq_some, Option.some.injEq] at h
      obtain ⟨descriptor, hfound, -, -, -, -, -, hanswer⟩ := h
      exact ⟨_, by decide, descriptor, hfound, hanswer.symm⟩
    · simp only [Suppressor.statement, Program.suppressStatement?, Option.bind_eq_bind,
        Option.bind_eq_some_iff, Option.ite_none_right_eq_some, Option.some.injEq] at h
      obtain ⟨descriptor, hfound, -, -, -, -, -, hanswer⟩ := h
      exact ⟨_, by decide, descriptor, hfound, hanswer.symm⟩
  obtain ⟨hdescriptor, hmem⟩ := descriptor_of_findDescriptor? hsubset hfound
  rw [hanswer, ← hdescriptor]
  exact ⟨rfl, hmem⟩

theorem answer?_of_isStandard
    {suppressors : List Suppressor} (h : ∀ x ∈ suppressors, x.IsStandard)
    {P : Program} {d : Diagnostic} {answer : Suppression}
    (ha : answer? P suppressors d = some answer) :
    answer = ⟨closedHierarchyDescriptor d.id, d⟩ ∧ answer.descriptor ∈ allDescriptors := by
  obtain ⟨x, hx, hanswer⟩ := List.exists_of_findSome?_eq_some ha
  exact answer_of_isStandard (h x hx) hanswer

end ClosedSwitch
