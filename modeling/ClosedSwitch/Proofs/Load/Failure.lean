import ClosedSwitch.LoadError
import ClosedSwitch.Proofs.Lists

/-!
# The first failure

A computation of several steps fails with the error of the first step that fails.
Where the steps check the items of a list one after another, that is the complaint
about the first item that does not pass.
-/

namespace ClosedSwitch

/-! ## Where a computation fails -/

/-- The error of a computation, if it fails. -/
def failure? {ε α : Type} : Except ε α → Option ε
  | .ok _ => none
  | .error e => some e

theorem failure?_eq_some_iff
    {ε α : Type} {x : Except ε α} {e : ε} : failure? x = some e ↔ x = .error e := by
  cases x <;> simp [failure?]

theorem failure?_eq_none_iff
    {ε α : Type} {x : Except ε α} : failure? x = none ↔ ∃ a, x = .ok a := by
  cases x <;> simp [failure?]

/-- A sequence fails with the error of its first step, or else with that of the rest,
which here does not depend on the result of the first step. -/
theorem failure?_bind
    {ε α β : Type} {x : Except ε α} {f : α → Except ε β} {first later : Option ε}
    (hfirst : failure? x = first) (hlater : ∀ a, x = .ok a → failure? (f a) = later) :
    failure? (x >>= f) = first.or later := by
  subst hfirst
  cases x with
  | error e => rfl
  | ok a => exact hlater a rfl

theorem failure?_bind_pure
    {ε α β : Type} (x : Except ε α) (g : α → β) :
    failure? (x >>= fun a => pure (g a)) = failure? x := by
  cases x <;> rfl

theorem failure?_mapM
    {ε α β : Type} (f : α → Except ε β) (as : List α) :
    failure? (as.mapM f) = as.findSome? fun a => failure? (f a) := by
  induction as with
  | nil => rfl
  | cons a as ih =>
      rw [List.mapM_cons, findSome?_cons_eq_or]
      refine failure?_bind rfl fun b _ => ?_
      rw [failure?_bind_pure, ih]

theorem failure?_optionMapM
    {ε α β : Type} (f : α → Except ε β) (o : Option α) :
    failure? (o.mapM f) = o.toList.findSome? fun a => failure? (f a) := by
  cases o with
  | none => rfl
  | some a =>
      rw [Option.toList_some, findSome?_cons_eq_or, List.findSome?_nil, Option.or_none]
      exact failure?_bind_pure (f a) some

/-! ## The first item that a check refuses -/

/-- The first item of a list with a property. -/
def IsFirst {α : Type} (p : α → Prop) (items : List α) (a : α) : Prop :=
  ∃ before after, items = before ++ a :: after ∧ p a ∧ ∀ b ∈ before, ¬ p b

/-- The complaint about an item that does not pass. -/
def check? {α : Type} (passes : α → Prop) [DecidablePred passes] (complaint : α → LoadError)
    (a : α) : Option LoadError :=
  if passes a then none else some (complaint a)

section Check

variable {α : Type} {passes : α → Prop} [DecidablePred passes] {complaint : α → LoadError}
  {items : List α}

theorem findSome?_check?_eq_none_iff :
    items.findSome? (check? passes complaint) = none ↔ ∀ a ∈ items, passes a := by
  simp [check?]

theorem findSome?_check?_eq_some_iff {e : LoadError} :
    items.findSome? (check? passes complaint) = some e ↔
      ∃ a, IsFirst (fun a => ¬ passes a) items a ∧ complaint a = e := by
  rw [List.findSome?_eq_some_iff]
  constructor
  · rintro ⟨before, a, after, hitems, ha, hbefore⟩
    rw [check?] at ha
    split at ha
    · simp at ha
    next hfails =>
      refine ⟨a, ⟨before, after, hitems, hfails, ?_⟩, Option.some.inj ha⟩
      intro b hb
      have hnone := hbefore b hb
      by_contra hpasses
      simp [check?, hpasses] at hnone
  · rintro ⟨a, ⟨before, after, hitems, hfails, hbefore⟩, rfl⟩
    refine ⟨before, a, after, hitems, if_neg hfails, ?_⟩
    intro b hb
    exact if_pos (not_not.mp (hbefore b hb))

/-- Searching for an item that does not pass, and complaining about it. -/
theorem map_find?_eq_findSome?_check?
    {fails : α → Bool} (h : ∀ a ∈ items, fails a = true ↔ ¬ passes a) :
    (items.find? fails).map complaint = items.findSome? (check? passes complaint) := by
  induction items with
  | nil => rfl
  | cons a as ih =>
      have hrest := ih fun b hb => h b (List.mem_cons_of_mem a hb)
      have ha := h a List.mem_cons_self
      rw [List.find?_cons, List.findSome?_cons, check?]
      by_cases hpasses : passes a
      · have hfails : fails a = false := by simpa [hpasses] using ha
        rw [hfails, if_pos hpasses]
        exact hrest
      · rw [ha.mpr hpasses, if_neg hpasses]
        rfl

end Check

end ClosedSwitch
