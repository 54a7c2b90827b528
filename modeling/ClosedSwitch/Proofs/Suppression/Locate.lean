import ClosedSwitch.Program.Locate
import ClosedSwitch.Proofs.Lists

/-!
# The switch of a diagnostic

The switch that a diagnostic belongs to is one of the switches of its file.  Which one it
is depends on the places of the switches alone.
-/

namespace ClosedSwitch

/-- Two switches of one form, with one span. -/
inductive Switch.SamePlace : Switch → Switch → Prop
  | expression {e e' : SwitchExpression} (span_eq : e'.span = e.span) :
      SamePlace (.expression e) (.expression e')
  | statement {s s' : SwitchStatement} (span_eq : s'.span = s.span) :
      SamePlace (.statement s) (.statement s')

namespace Program

/-! ## Found switches belong to the file -/

theorem mem_of_shortest?
    {α : Type} {spanOf : α → Span} {items : List α} {a : α}
    (h : shortest? spanOf items = some a) : a ∈ items := by
  induction items with
  | nil => simp [shortest?] at h
  | cons b rest ih =>
      rw [shortest?] at h
      split at h
      · rw [← Option.some.inj h]
        exact List.mem_cons_self
      next c hc =>
        split at h
        · exact List.mem_cons_of_mem b (ih (Option.some.inj h ▸ hc))
        · rw [← Option.some.inj h]
          exact List.mem_cons_self

theorem mem_of_innermost?
    {α : Type} {spanOf : α → Span} {items : List α} {span : Span} {a : α}
    (h : innermost? spanOf items span = some a) : a ∈ items :=
  (List.mem_filter.mp (mem_of_shortest? h)).1

theorem exists_mem_of_expressionAt?
    {P : Program} {l : Location} {switch : SwitchExpression}
    (h : P.expressionAt? l = some switch) :
    ∃ f ∈ P.files, .expression switch ∈ f.switches := by
  obtain ⟨f, hf, hfound⟩ := Option.bind_eq_some_iff.mp h
  refine ⟨f, List.mem_of_getElem? hf, ?_⟩
  have hmem : switch ∈ f.expressions := by
    rcases Option.or_eq_some_iff.mp hfound with hinner | ⟨-, hfirst⟩
    · exact mem_of_innermost? hinner
    · exact List.mem_of_find?_eq_some hfirst
  obtain ⟨bound, hbound, hform⟩ := List.mem_filterMap.mp hmem
  cases bound with
  | expression e => exact Option.some.inj hform ▸ hbound
  | statement s => simp [Switch.expression?] at hform

theorem exists_mem_of_statementAt?
    {P : Program} {l : Location} {switch : SwitchStatement}
    (h : P.statementAt? l = some switch) :
    ∃ f ∈ P.files, .statement switch ∈ f.switches := by
  obtain ⟨f, hf, hfound⟩ := Option.bind_eq_some_iff.mp h
  refine ⟨f, List.mem_of_getElem? hf, ?_⟩
  obtain ⟨bound, hbound, hform⟩ := List.mem_filterMap.mp (mem_of_innermost? hfound)
  cases bound with
  | expression e => simp [Switch.statement?] at hform
  | statement s => exact Option.some.inj hform ▸ hbound

/-! ## Switches in the same places -/

theorem shortest?_rel
    {α β : Type} {R : α → β → Prop} {spanOf : α → Span} {spanOf' : β → Span}
    (hspan : ∀ a b, R a b → spanOf' b = spanOf a)
    {as : List α} {bs : List β} (h : List.Forall₂ R as bs) :
    Option.Rel R (shortest? spanOf as) (shortest? spanOf' bs) := by
  induction h with
  | nil => exact .none
  | @cons a b as bs hab _ ih =>
      rw [shortest?, shortest?]
      generalize shortest? spanOf as = best, shortest? spanOf' bs = best' at ih
      cases ih with
      | none => exact .some hab
      | @some c d hcd =>
          simp only [hspan a b hab, hspan c d hcd]
          split
          · exact .some hcd
          · exact .some hab

theorem innermost?_rel
    {α β : Type} {R : α → β → Prop} {spanOf : α → Span} {spanOf' : β → Span}
    (hspan : ∀ a b, R a b → spanOf' b = spanOf a)
    {as : List α} {bs : List β} (h : List.Forall₂ R as bs) (span : Span) :
    Option.Rel R (innermost? spanOf as span) (innermost? spanOf' bs span) := by
  refine shortest?_rel hspan (List.rel_filter ?_ h)
  intro a b hab
  simp only [hspan a b hab]

section SamePlace

variable {R : Switch → Switch → Prop} (hR : ∀ b b', R b b' → Switch.SamePlace b b')

include hR

theorem expressions_rel
    {f f' : SourceFile} (h : List.Forall₂ R f.switches f'.switches) :
    List.Forall₂ (fun e e' => R (.expression e) (.expression e'))
      f.expressions f'.expressions := by
  refine List.rel_filterMap ?_ h
  intro b b' hbb
  cases hR b b' hbb with
  | expression _ => exact .some hbb
  | statement _ => exact .none

theorem statements_rel
    {f f' : SourceFile} (h : List.Forall₂ R f.switches f'.switches) :
    List.Forall₂ (fun s s' => R (.statement s) (.statement s'))
      f.statements f'.statements := by
  refine List.rel_filterMap ?_ h
  intro b b' hbb
  cases hR b b' hbb with
  | expression _ => exact .none
  | statement _ => exact .some hbb

variable {P P' : Program} {l : Location}
  (hfile : Option.Rel (fun f f' => List.Forall₂ R f.switches f'.switches)
    (P.file? l.file) (P'.file? l.file))

include hfile

theorem expressionAt?_rel :
    Option.Rel (fun e e' => R (.expression e) (.expression e'))
      (P.expressionAt? l) (P'.expressionAt? l) := by
  have hspan : ∀ e e', R (.expression e) (.expression e') → e'.span = e.span := by
    intro e e' hee
    cases hR _ _ hee with
    | expression span_eq => exact span_eq
  rw [expressionAt?, expressionAt?]
  generalize P.file? l.file = o, P'.file? l.file = o' at hfile
  cases hfile with
  | none => exact .none
  | some h =>
      have hexpressions := expressions_rel hR h
      apply or_rel
      · exact innermost?_rel hspan hexpressions l.span
      · refine find?_rel ?_ hexpressions
        intro e e' hee
        rw [hspan e e' hee]

theorem statementAt?_rel :
    Option.Rel (fun s s' => R (.statement s) (.statement s'))
      (P.statementAt? l) (P'.statementAt? l) := by
  rw [statementAt?, statementAt?]
  generalize P.file? l.file = o, P'.file? l.file = o' at hfile
  cases hfile with
  | none => exact .none
  | some h =>
      refine innermost?_rel ?_ (statements_rel hR h) l.span
      intro s s' hss
      cases hR _ _ hss with
      | statement span_eq => exact span_eq

end SamePlace

end Program

end ClosedSwitch
