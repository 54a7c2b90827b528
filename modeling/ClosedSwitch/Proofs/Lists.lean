import Mathlib.Algebra.Ring.Nat
import Mathlib.Data.List.Forall2

/-!
# Lists, options and computations

What holds of lists and options of any kind, and of computations over them that may fail.
Most of it is about two lists that are related member by member, which is how what is
declared is compared with what it is loaded as.
-/

namespace ClosedSwitch

section Related

variable {α β : Type} {R : α → β → Prop}

/-! ## Options that are related -/

section Options

variable {o : Option α} {o' : Option β}

theorem rel_map
    {γ δ : Type} {S : γ → δ → Prop} {f : α → γ} {g : β → δ}
    (hfg : ∀ a b, R a b → S (f a) (g b)) (h : Option.Rel R o o') :
    Option.Rel S (o.map f) (o'.map g) := by
  cases h with
  | none => exact .none
  | some hab => exact .some (hfg _ _ hab)

theorem bind_eq_of_rel
    {γ : Type} {f : α → Option γ} {g : β → Option γ}
    (hfg : ∀ a b, R a b → g b = f a) (h : Option.Rel R o o') : o'.bind g = o.bind f := by
  cases h with
  | none => rfl
  | some hab => exact hfg _ _ hab

theorem or_rel
    {later : Option α} {later' : Option β}
    (h : Option.Rel R o o') (hlater : Option.Rel R later later') :
    Option.Rel R (o.or later) (o'.or later') := by
  cases h with
  | none => exact hlater
  | some hab => exact .some hab

theorem exists_of_rel_some
    (h : Option.Rel R o o') {a : α} (ha : o = some a) : ∃ b, o' = some b ∧ R a b := by
  cases h with
  | none => exact absurd ha (Option.some_ne_none a).symm
  | @some c d hcd => exact ⟨d, rfl, Option.some.inj ha ▸ hcd⟩

end Options

/-! ## Lists that are related member by member -/

section Lists

variable {as : List α} {bs : List β}

theorem rel_getElem?_of_forall₂
    (h : List.Forall₂ R as bs) (k : Nat) : Option.Rel R as[k]? bs[k]? := by
  induction h generalizing k with
  | nil => exact .none
  | cons hab _ ih =>
      cases k with
      | zero => exact .some hab
      | succ k => exact ih k

theorem exists_right_of_forall₂
    (h : List.Forall₂ R as bs) {k : Nat} {a : α} (ha : as[k]? = some a) :
    ∃ b, bs[k]? = some b ∧ R a b :=
  exists_of_rel_some (rel_getElem?_of_forall₂ h k) ha

theorem exists_left_of_forall₂
    (h : List.Forall₂ R as bs) {k : Nat} {b : β} (hb : bs[k]? = some b) :
    ∃ a, as[k]? = some a ∧ R a b :=
  exists_right_of_forall₂ h.flip hb

theorem exists_of_forall₂_both
    {S : α → β → Prop} (hR : List.Forall₂ R as bs) (hS : List.Forall₂ S as bs)
    {b : β} (hb : b ∈ bs) : ∃ a, R a b ∧ S a b := by
  obtain ⟨k, hk⟩ := List.mem_iff_getElem?.mp hb
  obtain ⟨a, ha, hRab⟩ := exists_left_of_forall₂ hR hk
  obtain ⟨a', ha', hSab⟩ := exists_left_of_forall₂ hS hk
  rw [ha, Option.some.injEq] at ha'
  exact ⟨a, hRab, ha' ▸ hSab⟩

/-- Lists that agree with two related lists are related through them. -/
theorem forall₂_of_agreeing
    {γ δ : Type} {Q : α → γ → Prop} {Q' : β → δ → Prop} {cs : List γ} {ds : List δ}
    (hR : List.Forall₂ R as bs) (hQ : List.Forall₂ Q as cs) (hQ' : List.Forall₂ Q' bs ds) :
    List.Forall₂ (fun c d => ∃ a b, R a b ∧ Q a c ∧ Q' b d) cs ds := by
  induction hR generalizing cs ds with
  | nil =>
      cases hQ
      cases hQ'
      exact .nil
  | cons hab _ ih =>
      rcases hQ with _ | ⟨hac, hQ⟩
      rcases hQ' with _ | ⟨hbd, hQ'⟩
      exact .cons ⟨_, _, hab, hac, hbd⟩ (ih hQ hQ')

theorem forall₂_with_position
    (h : List.Forall₂ R as bs) :
    List.Forall₂ (fun a b => R a b ∧ ∃ k : Nat, as[k]? = some a ∧ bs[k]? = some b) as bs := by
  induction h with
  | nil => exact .nil
  | cons hab _ ih =>
      refine .cons ⟨hab, 0, rfl, rfl⟩ (ih.imp ?_)
      rintro a b ⟨hab, k, ha, hb⟩
      exact ⟨hab, k + 1, ha, hb⟩

theorem map_eq_of_forall₂
    {γ : Type} {f : α → γ} {g : β → γ} (hfg : ∀ a b, R a b → g b = f a)
    (h : List.Forall₂ R as bs) : bs.map g = as.map f := by
  induction h with
  | nil => rfl
  | cons hab _ ih => rw [List.map_cons, List.map_cons, hfg _ _ hab, ih]

theorem filterMap_eq_of_forall₂
    {γ : Type} {f : α → Option γ} {g : β → Option γ} (hfg : ∀ a b, R a b → g b = f a)
    (h : List.Forall₂ R as bs) : bs.filterMap g = as.filterMap f := by
  have hmap := congrArg (List.filterMap id) (map_eq_of_forall₂ hfg h)
  simpa [List.filterMap_map] using hmap

theorem find?_rel
    {p : α → Bool} {q : β → Bool} (hpq : ∀ a b, R a b → q b = p a)
    (h : List.Forall₂ R as bs) : Option.Rel R (as.find? p) (bs.find? q) := by
  induction h with
  | nil => exact .none
  | @cons a b as bs hab _ ih =>
      rw [List.find?_cons, List.find?_cons, hpq a b hab]
      cases p a with
      | true => exact .some hab
      | false => exact ih

theorem exists_mem_iff_of_forall₂
    {p : α → Prop} {q : β → Prop} (hiff : ∀ a b, R a b → (p a ↔ q b))
    (h : List.Forall₂ R as bs) : (∃ a ∈ as, p a) ↔ ∃ b ∈ bs, q b := by
  induction h with
  | nil => simp
  | cons hab _ ih => simp [hiff _ _ hab, ih]

theorem find?_eq_none_iff_of_forall₂
    {p : α → Prop} {q : β → Bool} (h : List.Forall₂ R as bs)
    (hiff : ∀ a b, R a b → (p a ↔ q b = true)) :
    bs.find? q = none ↔ ∀ a ∈ as, ¬ p a := by
  have hexists := exists_mem_iff_of_forall₂ hiff h
  rw [List.find?_eq_none]
  constructor
  · intro hnone a ha hp
    obtain ⟨b, hb, hq⟩ := hexists.mp ⟨a, ha, hp⟩
    exact hnone b hb hq
  · intro hnone b hb hq
    obtain ⟨a, ha, hp⟩ := hexists.mpr ⟨b, hb, hq⟩
    exact hnone a ha hp

end Lists

end Related

theorem forall₂_modify
    {α : Type} {R : α → α → Prop} {f : α → α} (hrefl : ∀ a, R a a) (hf : ∀ a, R a (f a))
    (as : List α) (k : Nat) : List.Forall₂ R as (as.modify k f) := by
  induction as generalizing k with
  | nil => cases k <;> exact .nil
  | cons a as ih =>
      cases k with
      | zero => exact .cons (hf a) (List.forall₂_same.mpr fun b _ => hrefl b)
      | succ k => exact .cons (hrefl a) (ih k)

/-! ## Computations that may fail -/

theorem bind_eq_ok_iff
    {ε α β : Type} {x : Except ε α} {f : α → Except ε β} {b : β} :
    x >>= f = .ok b ↔ ∃ a, x = .ok a ∧ f a = .ok b := by
  cases x with
  | error e => simp [bind, Except.bind]
  | ok a => simp [bind, Except.bind]

theorem forall₂_of_mapM_eq_ok
    {ε α β : Type} {f : α → Except ε β} {as : List α} {bs : List β}
    (h : as.mapM f = .ok bs) :
    List.Forall₂ (fun a b => f a = .ok b) as bs := by
  induction as generalizing bs with
  | nil =>
      simp only [List.mapM_nil, pure, Except.pure, Except.ok.injEq] at h
      exact h ▸ List.Forall₂.nil
  | cons a as ih =>
      rw [List.mapM_cons] at h
      obtain ⟨b, hb, hrest⟩ := bind_eq_ok_iff.mp h
      obtain ⟨bs', hbs, hpure⟩ := bind_eq_ok_iff.mp hrest
      simp only [pure, Except.pure, Except.ok.injEq] at hpure
      exact hpure ▸ List.Forall₂.cons hb (ih hbs)

theorem forall_mem_of_mapM_eq_ok
    {ε α β : Type} {f : α → Except ε β} {p : β → Prop}
    (hf : ∀ a b, f a = .ok b → p b) {as : List α} {bs : List β}
    (h : as.mapM f = .ok bs) : ∀ b ∈ bs, p b := by
  intro b hb
  obtain ⟨k, hk⟩ := List.mem_iff_getElem?.mp hb
  obtain ⟨a, -, ha⟩ := exists_left_of_forall₂ (forall₂_of_mapM_eq_ok h) hk
  exact hf a b ha

theorem mapM_eq_ok_map
    {ε α β γ : Type} {f : α → Except ε β} {g : α → Except ε γ} {k : β → γ}
    (h : ∀ a b, f a = .ok b → g a = .ok (k b)) {as : List α} {bs : List β}
    (hbs : as.mapM f = .ok bs) : as.mapM g = .ok (bs.map k) := by
  induction as generalizing bs with
  | nil =>
      rw [← Except.ok.inj hbs]
      rfl
  | cons a as ih =>
      rw [List.mapM_cons] at hbs ⊢
      obtain ⟨b, hb, hrest⟩ := bind_eq_ok_iff.mp hbs
      obtain ⟨bs', hbs', hpure⟩ := bind_eq_ok_iff.mp hrest
      rw [h a b hb, ih hbs', ← Except.ok.inj hpure]
      rfl

theorem optionMapM_eq_ok_map
    {ε α β γ : Type} {f : α → Except ε β} {g : α → Except ε γ} {k : β → γ}
    (h : ∀ a b, f a = .ok b → g a = .ok (k b)) {o : Option α} {r : Option β}
    (hr : o.mapM f = .ok r) : o.mapM g = .ok (r.map k) := by
  cases o with
  | none =>
      rw [← Except.ok.inj hr]
      rfl
  | some a =>
      obtain ⟨b, hb, hpure⟩ := bind_eq_ok_iff.mp hr
      rw [← Except.ok.inj hpure]
      exact bind_eq_ok_iff.mpr ⟨k b, h a b hb, rfl⟩

theorem forall₂_of_mapM_eq_some
    {α β : Type} {f : α → Option β} {as : List α} {bs : List β}
    (h : as.mapM f = some bs) :
    List.Forall₂ (fun a b => f a = some b) as bs := by
  induction as generalizing bs with
  | nil =>
      simp at h
      exact h ▸ List.Forall₂.nil
  | cons a as ih =>
      simp only [List.mapM_cons, Option.bind_eq_bind, Option.bind_eq_some_iff] at h
      obtain ⟨b, hb, bs', hbs, hpure⟩ := h
      simp at hpure
      exact hpure ▸ List.Forall₂.cons hb (ih hbs)

theorem exists_mapM_eq_some
    {α β : Type} {f : α → Option β} {as : List α} (h : ∀ a ∈ as, ∃ b, f a = some b) :
    ∃ bs, as.mapM f = some bs := by
  induction as with
  | nil => exact ⟨[], by simp⟩
  | cons a as ih =>
      obtain ⟨b, hb⟩ := h a List.mem_cons_self
      obtain ⟨bs, hbs⟩ := ih fun a' ha' => h a' (List.mem_cons_of_mem a ha')
      exact ⟨b :: bs, by simp [hb, hbs]⟩

theorem mapM_congr_of_mem
    {α β : Type} {f g : α → Option β} {as : List α} (h : ∀ a ∈ as, f a = g a) :
    as.mapM f = as.mapM g := by
  induction as with
  | nil => rfl
  | cons a as ih =>
      have ha := h a List.mem_cons_self
      have hrest := ih fun b hb => h b (List.mem_cons_of_mem a hb)
      rw [List.mapM_cons, List.mapM_cons, ha, hrest]

theorem mapM_option_map
    {α β γ : Type} (g : α → Option β) (k : β → γ) (as : List α) :
    (as.mapM fun a => (g a).map k) = (as.mapM g).map (List.map k) := by
  induction as with
  | nil => rfl
  | cons a as ih =>
      simp only [List.mapM_cons, ih]
      cases g a with
      | none => rfl
      | some b => cases as.mapM g <;> rfl

/-! ## Searches and sums -/

theorem findSome?_cons_eq_or
    {α β : Type} (f : α → Option β) (a : α) (as : List α) :
    (a :: as).findSome? f = (f a).or (as.findSome? f) := by
  rw [List.findSome?_cons]
  cases f a <;> rfl

theorem findSome?_flatMap
    {α β γ : Type} (g : α → List β) (f : β → Option γ) (as : List α) :
    (as.flatMap g).findSome? f = as.findSome? fun a => (g a).findSome? f := by
  induction as with
  | nil => rfl
  | cons a as ih =>
      rw [List.flatMap_cons, List.findSome?_append, ih, findSome?_cons_eq_or]

theorem flatMap_flatten
    {α β : Type} (values : α → List β) (parts : List (List α)) :
    parts.flatten.flatMap values = parts.flatMap (·.flatMap values) := by
  rw [List.flatten_eq_flatMap, List.flatMap_assoc]
  rfl

theorem any_congr_of_mem
    {α : Type} {p q : α → Bool} {as : List α} (h : ∀ a ∈ as, p a = q a) :
    as.any p = as.any q := by
  rw [Bool.eq_iff_iff, List.any_eq_true, List.any_eq_true]
  exact exists_congr fun a => and_congr_right fun ha => by rw [h a ha]

theorem sum_set_lt
    {ns : List Nat} {i n m : Nat} (hget : ns[i]? = some n) (hlt : m < n) :
    (ns.set i m).sum < ns.sum := by
  induction ns generalizing i with
  | nil => simp at hget
  | cons first rest ih =>
      cases i with
      | zero =>
          simp only [List.getElem?_cons_zero, Option.some.injEq] at hget
          rw [List.set_cons_zero, List.sum_cons, List.sum_cons]
          omega
      | succ i =>
          rw [List.getElem?_cons_succ] at hget
          have hrest := ih hget
          rw [List.set_cons_succ, List.sum_cons, List.sum_cons]
          omega

end ClosedSwitch
