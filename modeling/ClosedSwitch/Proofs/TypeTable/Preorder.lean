import ClosedSwitch.Proofs.Binding

/-!
# Conversions form a preorder

In every loaded program a type converts to `object` and to the types above it: those
that it leads to by steps to a base type or to a listed interface.  The search behind
this comes to an end whichever pending type it takes next, and always with the same
answer, also where interfaces list each other in a circle.

The type `object` is the first of every table and has no types above it.  So a
conversion to `object`, which needs no steps, is never followed by another one, and
conversions compose.
-/

namespace ClosedSwitch

namespace TypeTable

/-- Zero or more steps up from a type, each to the base type or to a listed
interface. -/
inductive Ascends (T : TypeTable) (t : TypeId) : TypeId → Prop
  | refl : Ascends T t t
  | base {u b : TypeId} (path : Ascends T t u) (step : T.base? u = some b) : Ascends T t b
  | interface {u i : TypeId} (path : Ascends T t u) (step : i ∈ (T.entry u).interfaces) :
      Ascends T t i

theorem isSupertype_iff
    {T : TypeTable} {t u : TypeId} :
    T.IsSupertype t u ↔ T.base? t = some u ∨ u ∈ (T.entry t).interfaces := by
  rw [IsSupertype, supertypes, List.mem_append, Option.mem_toList]
  rfl

theorem ascends_iff_reaches
    {T : TypeTable} {t u : TypeId} : T.Ascends t u ↔ T.Reaches t u := by
  constructor
  · intro h
    induction h with
    | refl => exact Relation.ReflTransGen.refl
    | base _ step ih => exact ih.tail (isSupertype_iff.mpr (Or.inl step))
    | interface _ step ih => exact ih.tail (isSupertype_iff.mpr (Or.inr step))
  · intro h
    induction h with
    | refl => exact .refl
    | tail _ hstep ih =>
        rcases isSupertype_iff.mp hstep with hbase | hinterface
        · exact .base ih hbase
        · exact .interface ih hinterface

/-- Whichever pending type is taken next, the search is over after a bounded number of
rounds, and wherever it ends the answer is that of `search`. -/
structure SearchTerminates (T : TypeTable) (source goal : TypeId) : Prop where
  bounded : ∀ n s, T.SearchRun goal n ⟨[], [source]⟩ s → n ≤ 1 + T.edgeCount
  progresses : ∀ n s, T.SearchRun goal n ⟨[], [source]⟩ s →
    (∃ answer, s.EndsWith goal answer) ∨ ∃ u, T.SearchStep goal s u
  answers : ∀ n s answer, T.SearchRun goal n ⟨[], [source]⟩ s → s.EndsWith goal answer →
    answer = T.search goal (1 + T.edgeCount) [] [source]
  ends : ∃ n s, T.SearchRun goal n ⟨[], [source]⟩ s ∧
    s.EndsWith goal (T.search goal (1 + T.edgeCount) [] [source])

theorem searchTerminates (T : TypeTable) (source goal : TypeId) :
    T.SearchTerminates source goal := by
  have hstart := T.roundsLeft_start source
  refine ⟨?_, ?_, ?_, T.exists_run_endsWith_search goal (Nat.le_of_eq hstart)⟩
  · intro n s hrun
    have hle := hrun.add_roundsLeft_le
    omega
  · intro n s _
    exact T.exists_endsWith_or_step goal s
  · intro n s answer hrun hends
    have htracks := (T.tracks_start source goal).run hrun
    rw [Bool.eq_iff_iff, search_iff_reaches]
    exact htracks.eq_true_iff_reaches hends

theorem converts_object (T : TypeTable) (t : TypeId) : T.converts t object = true :=
  (T.converts_iff t object).mpr (Or.inl rfl)

theorem eq_object_of_converts
    {T : TypeTable} (hobject : T.supertypes object = []) {t : TypeId}
    (h : T.converts object t = true) : t = object := by
  rcases (T.converts_iff object t).mp h with ht | hreaches
  · exact ht
  · rcases Relation.ReflTransGen.cases_head hreaches with heq | ⟨u, hstep, _⟩
    · exact heq.symm
    · rw [IsSupertype, hobject] at hstep
      exact absurd hstep List.not_mem_nil

theorem Represents.find?_object
    {T : TypeTable} {decls : List TypeDecl} (hT : T.Represents decls) :
    T.find? "object" = some object := by
  have hentry := hT.getElem?_builtinTypes (t := object) (by decide)
  have hname : T.name object = "object" := congrArg (·.name) (Option.some.inj hentry).symm
  exact hT.find?_eq_some_iff.mpr ⟨hT.lt_size_of_builtin (by decide), hname⟩

end TypeTable

/-- In a loaded program the search for a conversion terminates, a type converts to
exactly `object` and the types above it, and conversions are a preorder with `object`
on top. -/
theorem conversion_is_reachability
    {s : Snapshot} {P : Program} (hP : P.IsLoadedFrom s) :
    (∀ a b, P.types.SearchTerminates a b) ∧
    P.types.find? "object" = some TypeTable.object ∧
    (∀ a b, P.types.converts a b = true ↔ b = TypeTable.object ∨ P.types.Ascends a b) ∧
    (∀ a, P.types.converts a a = true) ∧
    (∀ a b c, P.types.converts a b = true → P.types.converts b c = true →
      P.types.converts a c = true) ∧
    (∀ a, P.types.converts a TypeTable.object = true) ∧
    (∀ b, P.types.converts TypeTable.object b = true → b = TypeTable.object) := by
  have hT := hP.represents.types
  have hobject := hT.supertypes_object
  refine ⟨P.types.searchTerminates, hT.find?_object, ?_, P.types.converts_refl, ?_,
    P.types.converts_object, fun b => TypeTable.eq_object_of_converts hobject⟩
  · intro a b
    rw [TypeTable.converts_iff, TypeTable.ascends_iff_reaches]
  · intro a b c
    exact TypeTable.converts_trans hobject

/-- Two interfaces that list each other, and a class that comes to one of them directly
and to the other through its base type. -/
def circularSnapshot : Snapshot where
  types :=
    [⟨{ name := "Shape", interfaces := ["Drawable"] }, []⟩,
     ⟨{ name := "Drawable", interfaces := ["Shape"] }, []⟩,
     ⟨{ name := "Figure", interfaces := ["Shape"] }, []⟩,
     ⟨{ name := "Circle", base := some "Figure", interfaces := ["Drawable"] }, []⟩]

/-- Its types have the numbers 4 (`Shape`), 5 (`Drawable`), 6 (`Figure`) and 7
(`Circle`). -/
def circularProgram : Program := .ofSnapshot circularSnapshot

theorem isLoadedFrom_circularProgram : circularProgram.IsLoadedFrom circularSnapshot :=
  Program.isLoadedFrom_ofSnapshot rfl

theorem circularProgram_conversions :
    circularProgram.IsLoadedFrom circularSnapshot ∧
      circularProgram.types.Ascends 4 5 ∧ circularProgram.types.Ascends 5 4 ∧
      circularProgram.types.converts 7 4 = true ∧
      ¬ circularProgram.types.Ascends 7 3 ∧
      ∀ n s, circularProgram.types.SearchRun 3 n ⟨[], [7]⟩ s → n ≤ 6 := by
  have hload := isLoadedFrom_circularProgram
  obtain ⟨hterminates, -, hiff, -⟩ := conversion_is_reachability hload
  have hpath : circularProgram.types.Ascends 7 4 :=
    .interface (.base .refl (b := 6) (by decide)) (by decide)
  refine ⟨hload, .interface .refl (by decide), .interface .refl (by decide),
    (hiff 7 4).mpr (Or.inr hpath), ?_, (hterminates 7 3).bounded⟩
  intro hnone
  exact absurd ((hiff 7 3).mpr (Or.inr hnone)) (by decide)

end ClosedSwitch
