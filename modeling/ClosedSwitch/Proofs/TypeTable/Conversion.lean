import ClosedSwitch.TypeTable.Conversion
import Mathlib.Algebra.BigOperators.Fin
import Mathlib.Logic.Relation

/-!
# Conversions are reachability

A type converts to `object` and to whatever it reaches through base types and
interfaces, whether or not interfaces list each other in a circle.  The search is
looked at round by round, with any pending type as the next one.  Every round
keeps whether the goal is reached from a pending type, and leaves fewer rounds to
go, so the fuel of the search lasts until it ends.

Conversions are transitive in every table where `object` has no supertypes.
Without that condition they are not: every type converts to `object` without a
path, but not to what lies behind it.
-/

namespace ClosedSwitch.TypeTable

/-- A step from a type to its base type or to one of its interfaces. -/
def IsSupertype (T : TypeTable) (t u : TypeId) : Prop := u ∈ T.supertypes t

/-- Zero or more steps from a type to a supertype. -/
def Reaches (T : TypeTable) : TypeId → TypeId → Prop :=
  Relation.ReflTransGen T.IsSupertype

theorem entry_of_size_le
    {T : TypeTable} {t : TypeId} (ht : T.size ≤ t) :
    T.entry t = default := by
  have hnone : T.entries[t]? = none := Array.getElem?_eq_none ht
  rw [entry, Array.getD_eq_getD_getElem?, hnone, Option.getD_none]

theorem lt_size_of_entry_ne
    {T : TypeTable} {t : TypeId} (h : T.entry t ≠ default) : t < T.size := by
  by_contra hge
  exact h (entry_of_size_le (Nat.le_of_not_lt hge))

theorem getElem?_entries_of_lt_size
    {T : TypeTable} {t : TypeId} (ht : t < T.size) :
    T.entries[t]? = some (T.entry t) := by
  have hsome : T.entries[t]? = some T.entries[t] := Array.getElem?_eq_getElem ht
  rw [entry, Array.getD_eq_getD_getElem?, hsome, Option.getD_some]

theorem lt_size_of_base?
    {T : TypeTable} {t b : TypeId} (h : T.base? t = some b) : t < T.size := by
  apply lt_size_of_entry_ne
  intro hdefault
  rw [base?, hdefault] at h
  exact absurd h (Option.some_ne_none b).symm

theorem supertypes_of_size_le
    {T : TypeTable} {t : TypeId} (ht : T.size ≤ t) :
    T.supertypes t = [] := by
  rw [supertypes, entry_of_size_le ht]
  rfl

/-! ## The fuel of the search -/

/-- The number of steps that start at a type outside of `seen`. -/
def openEdges (T : TypeTable) (seen : List TypeId) : Nat :=
  ∑ t ∈ Finset.range T.size with t ∉ seen, (T.supertypes t).length

theorem openEdges_nil (T : TypeTable) : T.openEdges [] = T.edgeCount := by
  have hlist : T.entries.toList =
      List.ofFn (fun i : Fin T.size => T.entry i) := by
    apply List.ext_getElem?
    intro i
    by_cases hi : i < T.size
    · simp [getElem?_entries_of_lt_size hi, hi]
    · have hnone : T.entries[i]? = none :=
        Array.getElem?_eq_none (Nat.le_of_not_lt hi)
      simp [hnone, hi]
  rw [edgeCount, List.length_flatMap, hlist, List.map_ofFn, List.sum_ofFn, openEdges]
  simp [Finset.sum_range, supertypes]

theorem openEdges_cons
    {T : TypeTable} {seen : List TypeId} {t : TypeId} (ht : t ∉ seen) :
    T.openEdges (t :: seen) + (T.supertypes t).length = T.openEdges seen := by
  have herase :
      (Finset.range T.size).filter (fun u => u ∉ t :: seen) =
        ((Finset.range T.size).filter (fun u => u ∉ seen)).erase t := by
    ext u
    simp only [Finset.mem_filter, Finset.mem_erase, List.mem_cons, not_or]
    tauto
  rw [openEdges, herase]
  by_cases hlt : t < T.size
  · exact Finset.sum_erase_add _ _ (by simp [hlt, ht])
  · have hnone := supertypes_of_size_le (T := T) (Nat.le_of_not_lt hlt)
    rw [Finset.erase_eq_of_notMem (by simp [hlt]), hnone]
    rfl

/-! ## The rounds of the search -/

/-- The search between two rounds: the types that it has expanded, and those that
it has still to look at. -/
structure SearchState where
  seen : List TypeId
  pending : List TypeId

/-- One round.  Any pending type other than the goal may be taken next, and it is
expanded unless it has been seen. -/
inductive SearchStep (T : TypeTable) (goal : TypeId) : SearchState → SearchState → Prop
  | skip {seen pending rest : List TypeId} {t : TypeId}
      (taken : pending.Perm (t :: rest)) (other : t ≠ goal) (known : t ∈ seen) :
      SearchStep T goal ⟨seen, pending⟩ ⟨seen, rest⟩
  | expand {seen pending rest : List TypeId} {t : TypeId}
      (taken : pending.Perm (t :: rest)) (other : t ≠ goal) (fresh : t ∉ seen) :
      SearchStep T goal ⟨seen, pending⟩ ⟨t :: seen, T.supertypes t ++ rest⟩

/-- A number of rounds, one after another. -/
inductive SearchRun (T : TypeTable) (goal : TypeId) :
    Nat → SearchState → SearchState → Prop
  | refl (s : SearchState) : SearchRun T goal 0 s s
  | head {n : Nat} {s u v : SearchState}
      (step : T.SearchStep goal s u) (run : SearchRun T goal n u v) :
      SearchRun T goal (n + 1) s v

/-- The search may end here: the goal is taken next, or nothing is pending. -/
inductive SearchState.EndsWith (s : SearchState) (goal : TypeId) : Bool → Prop
  | found (taken : goal ∈ s.pending) : EndsWith s goal true
  | exhausted (empty : s.pending = []) : EndsWith s goal false

/-- A bound on the rounds that are left: each takes a pending type away, and adds
at most the open edges that it closes. -/
def roundsLeft (T : TypeTable) (s : SearchState) : Nat :=
  s.pending.length + T.openEdges s.seen

theorem SearchStep.roundsLeft_lt
    {T : TypeTable} {goal : TypeId} {s u : SearchState}
    (h : T.SearchStep goal s u) : T.roundsLeft u < T.roundsLeft s := by
  cases h with
  | skip taken _ _ =>
      have hlength := taken.length_eq
      simp only [roundsLeft, List.length_cons] at hlength ⊢
      omega
  | expand taken _ fresh =>
      have hlength := taken.length_eq
      have hclosed := openEdges_cons (T := T) fresh
      simp only [roundsLeft, List.length_cons, List.length_append] at hlength ⊢
      omega

theorem SearchRun.add_roundsLeft_le
    {T : TypeTable} {goal : TypeId} {n : Nat} {s u : SearchState}
    (h : T.SearchRun goal n s u) : n + T.roundsLeft u ≤ T.roundsLeft s := by
  induction h with
  | refl s => omega
  | head step _ ih =>
      have hlt := step.roundsLeft_lt
      omega

theorem exists_endsWith_or_step (T : TypeTable) (goal : TypeId) (s : SearchState) :
    (∃ answer, s.EndsWith goal answer) ∨ ∃ u, T.SearchStep goal s u := by
  rcases s with ⟨seen, pending⟩
  cases pending with
  | nil => exact Or.inl ⟨false, .exhausted rfl⟩
  | cons t rest =>
      by_cases hgoal : t = goal
      · exact Or.inl ⟨true, .found (hgoal ▸ List.mem_cons_self)⟩
      · by_cases hseen : t ∈ seen
        · exact Or.inr ⟨_, .skip (List.Perm.refl _) hgoal hseen⟩
        · exact Or.inr ⟨_, .expand (List.Perm.refl _) hgoal hseen⟩

/-! ## Soundness and completeness of the search -/

/-- What the search keeps: a type that has been seen is not the goal, and each
of its supertypes has been seen or is pending. -/
def IsFrontier
    (T : TypeTable) (goal : TypeId) (seen pending : List TypeId) : Prop :=
  ∀ t ∈ seen, t ≠ goal ∧ ∀ u ∈ T.supertypes t, u ∈ seen ∨ u ∈ pending

/-- A path from a seen type to the goal leaves the seen types through a pending
one. -/
theorem IsFrontier.exists_pending_reaches
    {T : TypeTable} {goal t : TypeId} {seen pending : List TypeId}
    (hfrontier : T.IsFrontier goal seen pending)
    (hseen : t ∈ seen) (hreach : T.Reaches t goal) :
    ∃ u ∈ pending, T.Reaches u goal := by
  induction hreach using Relation.ReflTransGen.head_induction_on with
  | refl => exact absurd rfl (hfrontier goal hseen).1
  | head hstep hrest ih =>
      rcases (hfrontier _ hseen).2 _ hstep with hu | hu
      · exact ih hu
      · exact ⟨_, hu, hrest⟩

theorem IsFrontier.of_perm
    {T : TypeTable} {goal : TypeId} {seen pending pending' : List TypeId}
    (hfrontier : T.IsFrontier goal seen pending) (hperm : pending.Perm pending') :
    T.IsFrontier goal seen pending' := by
  intro s hs
  refine ⟨(hfrontier s hs).1, ?_⟩
  intro u hu
  exact ((hfrontier s hs).2 u hu).imp_right hperm.mem_iff.mp

theorem IsFrontier.skip
    {T : TypeTable} {goal t : TypeId} {seen pending : List TypeId}
    (hfrontier : T.IsFrontier goal seen (t :: pending)) (hseen : t ∈ seen) :
    T.IsFrontier goal seen pending := by
  intro s hs
  refine ⟨(hfrontier s hs).1, ?_⟩
  intro u hu
  rcases (hfrontier s hs).2 u hu with hmem | hmem
  · exact Or.inl hmem
  · rcases List.mem_cons.mp hmem with rfl | hrest
    · exact Or.inl hseen
    · exact Or.inr hrest

theorem IsFrontier.expand
    {T : TypeTable} {goal t : TypeId} {seen pending : List TypeId}
    (hfrontier : T.IsFrontier goal seen (t :: pending)) (hgoal : t ≠ goal) :
    T.IsFrontier goal (t :: seen) (T.supertypes t ++ pending) := by
  intro s hs
  rcases List.mem_cons.mp hs with rfl | hold
  · exact ⟨hgoal, fun u hu => Or.inr (List.mem_append_left _ hu)⟩
  · refine ⟨(hfrontier s hold).1, ?_⟩
    intro u hu
    rcases (hfrontier s hold).2 u hu with hmem | hmem
    · exact Or.inl (List.mem_cons_of_mem t hmem)
    · rcases List.mem_cons.mp hmem with rfl | hrest
      · exact Or.inl List.mem_cons_self
      · exact Or.inr (List.mem_append_right _ hrest)

/-- What holds between any two rounds of a search that starts at `source`: the goal
is reached from `source` exactly if it is reached from a pending type. -/
structure Tracks
    (T : TypeTable) (source goal : TypeId) (s : SearchState) : Prop where
  frontier : T.IsFrontier goal s.seen s.pending
  reaches_iff : T.Reaches source goal ↔ ∃ t ∈ s.pending, T.Reaches t goal

theorem tracks_start (T : TypeTable) (source goal : TypeId) :
    T.Tracks source goal ⟨[], [source]⟩ := by
  refine ⟨?_, by simp⟩
  intro t ht
  exact absurd ht List.not_mem_nil

theorem Tracks.step
    {T : TypeTable} {source goal : TypeId} {s u : SearchState}
    (h : T.Tracks source goal s) (hstep : T.SearchStep goal s u) :
    T.Tracks source goal u := by
  obtain ⟨hfrontier, hreaches⟩ := h
  cases hstep with
  | @skip seen pending rest t taken other known =>
      have hrest := (hfrontier.of_perm taken).skip known
      refine ⟨hrest, hreaches.trans ⟨?_, ?_⟩⟩
      · rintro ⟨v, hv, hpath⟩
        rcases List.mem_cons.mp (taken.mem_iff.mp hv) with rfl | hv
        · exact hrest.exists_pending_reaches known hpath
        · exact ⟨v, hv, hpath⟩
      · rintro ⟨v, hv, hpath⟩
        exact ⟨v, taken.mem_iff.mpr (List.mem_cons_of_mem t hv), hpath⟩
  | @expand seen pending rest t taken other fresh =>
      refine ⟨(hfrontier.of_perm taken).expand other, hreaches.trans ⟨?_, ?_⟩⟩
      · rintro ⟨v, hv, hpath⟩
        rcases List.mem_cons.mp (taken.mem_iff.mp hv) with rfl | hv
        · rcases Relation.ReflTransGen.cases_head hpath with heq | ⟨w, hw, hpath⟩
          · exact absurd heq other
          · exact ⟨w, List.mem_append_left _ hw, hpath⟩
        · exact ⟨v, List.mem_append_right _ hv, hpath⟩
      · rintro ⟨v, hv, hpath⟩
        rcases List.mem_append.mp hv with hv | hv
        · exact ⟨t, taken.mem_iff.mpr List.mem_cons_self,
            Relation.ReflTransGen.head hv hpath⟩
        · exact ⟨v, taken.mem_iff.mpr (List.mem_cons_of_mem t hv), hpath⟩

theorem Tracks.run
    {T : TypeTable} {source goal : TypeId} {n : Nat} {s u : SearchState}
    (h : T.Tracks source goal s) (hrun : T.SearchRun goal n s u) :
    T.Tracks source goal u := by
  induction hrun with
  | refl s => exact h
  | head step _ ih => exact ih (h.step step)

theorem Tracks.eq_true_iff_reaches
    {T : TypeTable} {source goal : TypeId} {s : SearchState} {answer : Bool}
    (h : T.Tracks source goal s) (hends : s.EndsWith goal answer) :
    answer = true ↔ T.Reaches source goal := by
  rw [h.reaches_iff]
  cases hends with
  | found taken =>
      exact iff_of_true rfl ⟨goal, taken, Relation.ReflTransGen.refl⟩
  | exhausted empty =>
      rw [empty]
      simp

/-- With fuel for the rounds that are left, the answer is that of a run to its
end. -/
theorem exists_run_endsWith_search
    (T : TypeTable) (goal : TypeId) {fuel : Nat} {seen pending : List TypeId}
    (hfuel : T.roundsLeft ⟨seen, pending⟩ ≤ fuel) :
    ∃ n s, T.SearchRun goal n ⟨seen, pending⟩ s ∧
      s.EndsWith goal (T.search goal fuel seen pending) := by
  fun_induction search T goal fuel seen pending with
  | case1 seen pending =>
      simp only [roundsLeft] at hfuel
      have hempty : pending = [] := List.eq_nil_of_length_eq_zero (by omega)
      exact ⟨0, _, .refl _, .exhausted hempty⟩
  | case2 => exact ⟨0, _, .refl _, .exhausted rfl⟩
  | case3 => exact ⟨0, _, .refl _, .found List.mem_cons_self⟩
  | case4 fuel seen t pending hgoal hseen ih =>
      have hstep : T.SearchStep goal ⟨seen, t :: pending⟩ ⟨seen, pending⟩ :=
        .skip (List.Perm.refl _) hgoal hseen
      have hlt := hstep.roundsLeft_lt
      obtain ⟨n, s, hrun, hends⟩ := ih (by omega)
      exact ⟨n + 1, s, .head hstep hrun, hends⟩
  | case5 fuel seen t pending hgoal hseen ih =>
      have hstep : T.SearchStep goal ⟨seen, t :: pending⟩
          ⟨t :: seen, T.supertypes t ++ pending⟩ :=
        .expand (List.Perm.refl _) hgoal hseen
      have hlt := hstep.roundsLeft_lt
      obtain ⟨n, s, hrun, hends⟩ := ih (by omega)
      exact ⟨n + 1, s, .head hstep hrun, hends⟩

theorem roundsLeft_start (T : TypeTable) (source : TypeId) :
    T.roundsLeft ⟨[], [source]⟩ = 1 + T.edgeCount := by
  rw [roundsLeft, openEdges_nil, List.length_singleton]

theorem search_iff_reaches (T : TypeTable) (source goal : TypeId) :
    T.search goal (1 + T.edgeCount) [] [source] = true ↔
      T.Reaches source goal := by
  have hfuel : T.roundsLeft ⟨[], [source]⟩ ≤ 1 + T.edgeCount :=
    Nat.le_of_eq (T.roundsLeft_start source)
  obtain ⟨n, s, hrun, hends⟩ := T.exists_run_endsWith_search goal hfuel
  exact ((T.tracks_start source goal).run hrun).eq_true_iff_reaches hends

/-! ## Conversions -/

/-- A type converts to `object` and to every type that it reaches. -/
theorem converts_iff (T : TypeTable) (source goal : TypeId) :
    T.converts source goal = true ↔
      goal = object ∨ T.Reaches source goal := by
  simp only [converts, Bool.or_eq_true, decide_eq_true_eq, search_iff_reaches]
  constructor
  · rintro ((rfl | hobject) | hreach)
    · exact Or.inr Relation.ReflTransGen.refl
    · exact Or.inl hobject
    · exact Or.inr hreach
  · rintro (hobject | hreach)
    · exact Or.inl (Or.inr hobject)
    · exact Or.inr hreach

theorem converts_refl (T : TypeTable) (t : TypeId) : T.converts t t = true :=
  (converts_iff T t t).mpr (Or.inr Relation.ReflTransGen.refl)

/-- Conversions compose as long as `object` has no supertypes: a conversion to
`object` needs no path, so a path from there on could not be followed back. -/
theorem converts_trans
    {T : TypeTable} (hobject : T.supertypes object = []) {a b c : TypeId}
    (hab : T.converts a b = true) (hbc : T.converts b c = true) :
    T.converts a c = true := by
  rw [converts_iff] at hab hbc ⊢
  rcases hbc with hc | hbc
  · exact Or.inl hc
  · rcases hab with rfl | hab
    · rcases Relation.ReflTransGen.cases_head hbc with heq | ⟨v, hstep, _⟩
      · exact Or.inl heq.symm
      · rw [IsSupertype, hobject] at hstep
        simp at hstep
    · exact Or.inr (hab.trans hbc)

end ClosedSwitch.TypeTable
