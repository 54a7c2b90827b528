import ClosedSwitch.Proofs.Suppression.Batch
import ClosedSwitch.Proofs.Coverage.Declared
import Mathlib.Data.List.Induction

/-!
# Batches in any order

The diagnostics of a batch may be evaluated side by side: each evaluation looks at the
token before it starts and then asks one suppressor after another, while the others go on
and the token may be cancelled from outside at any time.  However these steps are
interleaved, the batch ends with all the answers or with none.
-/

namespace ClosedSwitch

/-! ## Steps of a batch -/

/-- How far the evaluation of a diagnostic has come. -/
inductive Evaluation where
  | waiting
  | asking (remaining : List Suppressor)
  | answered (answer : Option Suppression)
  /-- The token was cancelled when the evaluation was to start. -/
  | refused

namespace Evaluation

/-- One step of the evaluation of `d`, and the token after it. -/
def advance (P : Program) (suppressors : List Suppressor) (d : Diagnostic)
    (token : CancellationToken) : Evaluation → Evaluation × CancellationToken
  | waiting => (if token.isCancelled then refused else asking suppressors, token)
  | asking [] => (answered none, token)
  | asking (s :: rest) =>
    (match s.suppress? P d with
      | some answer => answered (some answer)
      | none => asking rest,
     ⟨token.isCancelled || s.cancels P d⟩)
  | answered answer => (answered answer, token)
  | refused => (refused, token)

def isAnswered : Evaluation → Bool
  | answered _ => true
  | _ => false

def isRefused : Evaluation → Bool
  | refused => true
  | _ => false

def suppression? : Evaluation → Option Suppression
  | answered answer => answer
  | _ => none

/-- A bound on the steps that are left. -/
def pending (suppressors : List Suppressor) : Evaluation → Nat
  | waiting => suppressors.length + 2
  | asking remaining => remaining.length + 1
  | answered _ => 0
  | refused => 0

end Evaluation

inductive BatchEvent where
  /-- The evaluation at a position takes a step. -/
  | advance (position : Nat)
  /-- The token is cancelled from outside. -/
  | interrupt
deriving DecidableEq

structure BatchState where
  token : CancellationToken
  evaluations : List (Diagnostic × Evaluation)

namespace BatchState

def start (diagnostics : List Diagnostic) (token : CancellationToken) : BatchState :=
  ⟨token, diagnostics.map fun d => (d, .waiting)⟩

def step (P : Program) (suppressors : List Suppressor) (b : BatchState) :
    BatchEvent → BatchState
  | .interrupt => { b with token := ⟨true⟩ }
  | .advance i =>
    match b.evaluations[i]? with
    | none => b
    | some (d, e) =>
      let next := e.advance P suppressors d b.token
      ⟨next.2, b.evaluations.set i (d, next.1)⟩

def run (P : Program) (suppressors : List Suppressor) (b : BatchState)
    (schedule : List BatchEvent) : BatchState :=
  schedule.foldl (step P suppressors) b

/-- The result of a batch: an error as soon as an evaluation is refused, and once all have
answered, the answers in order, unless the token is cancelled by then. -/
def outcome? (b : BatchState) : Option (Except BatchError (List Suppression)) :=
  if b.evaluations.any (·.2.isRefused) then some (.error .cancelled)
  else if b.evaluations.all (·.2.isAnswered) then
    some (if b.token.isCancelled then .error .cancelled
      else .ok (b.evaluations.filterMap (·.2.suppression?)))
  else none

end BatchState

section Interleaving

variable {P : Program} {suppressors : List Suppressor}

/-! ## What an evaluation has established -/

/-- An evaluation that has come this far under the token.  The suppressors that remain
lead to the answer of all of them, and whoever has asked for the batch to stop has been
heard. -/
inductive Evaluation.Reached
    (P : Program) (suppressors : List Suppressor) (d : Diagnostic)
    (token : CancellationToken) : Evaluation → Prop
  | waiting : Reached P suppressors d token .waiting
  | asking {remaining : List Suppressor}
      (answer : answer? P remaining d = answer? P suppressors d)
      (among : stopsAt P remaining d = true → stopsAt P suppressors d = true)
      (heard : stopsAt P suppressors d = true →
        token.isCancelled = true ∨ stopsAt P remaining d = true) :
      Reached P suppressors d token (.asking remaining)
  | answered
      (heard : stopsAt P suppressors d = true → token.isCancelled = true) :
      Reached P suppressors d token (.answered (answer? P suppressors d))
  | refused (cancelled : token.isCancelled = true) :
      Reached P suppressors d token .refused

namespace Evaluation

variable {d : Diagnostic} {token : CancellationToken} {e : Evaluation}

theorem Reached.mono
    {token' : CancellationToken} (h : Reached P suppressors d token e)
    (htoken : token.isCancelled = true → token'.isCancelled = true) :
    Reached P suppressors d token' e := by
  cases h with
  | waiting => exact .waiting
  | asking answer among heard =>
      exact .asking answer among fun hstops => (heard hstops).imp_left htoken
  | answered heard => exact .answered fun hstops => htoken (heard hstops)
  | refused cancelled => exact .refused (htoken cancelled)

theorem isCancelled_advance (htoken : token.isCancelled = true) :
    (e.advance P suppressors d token).2.isCancelled = true := by
  match e with
  | waiting => exact htoken
  | asking [] => exact htoken
  | asking (s :: rest) => simp [advance, htoken]
  | answered _ => exact htoken
  | refused => exact htoken

/-- Only a suppressor that looks at the diagnostic cancels the token in a step. -/
theorem Reached.stopsAt_of_advance
    (h : Reached P suppressors d token e)
    (hnext : (e.advance P suppressors d token).2.isCancelled = true) :
    token.isCancelled = true ∨ stopsAt P suppressors d = true := by
  match e, h with
  | .waiting, _ => exact .inl hnext
  | .asking [], _ => exact .inl hnext
  | .asking (s :: rest), .asking _ among _ =>
      simp only [advance, Bool.or_eq_true] at hnext
      refine hnext.imp_right fun hcancels => among ?_
      simp [stopsAt, consulted, hcancels]
  | .answered _, _ => exact .inl hnext
  | .refused, _ => exact .inl hnext

theorem Reached.advance (h : Reached P suppressors d token e) :
    Reached P suppressors d (e.advance P suppressors d token).2
      (e.advance P suppressors d token).1 := by
  match e, h with
  | .waiting, _ =>
      by_cases htoken : token.isCancelled = true
      · simp only [Evaluation.advance, htoken, if_true]
        exact .refused htoken
      · simp only [Evaluation.advance, htoken]
        exact .asking rfl id .inr
  | .asking [], .asking answer _ heard =>
      have hanswered := @Reached.answered P suppressors d token fun hstops =>
        (heard hstops).resolve_right (by simp [stopsAt, consulted])
      rwa [← answer] at hanswered
  | .asking (s :: rest), .asking answer among heard =>
      -- Either `s` has the answer, or the answer and all requests to stop lie with the rest.
      cases hs : s.suppress? P d with
      | some x =>
          rw [answer?_cons_of_some hs] at answer
          rw [stopsAt_cons_of_some hs] at heard
          have hanswered := @Reached.answered P suppressors d
            ⟨token.isCancelled || s.cancels P d⟩ fun hstops => by simpa using heard hstops
          rw [← answer] at hanswered
          simpa only [Evaluation.advance, hs] using hanswered
      | none =>
          rw [answer?_cons_of_none hs] at answer
          rw [stopsAt_cons_of_none hs] at among heard
          simp only [Evaluation.advance, hs]
          refine .asking answer (fun hstops => among (by simp [hstops])) fun hstops => ?_
          simpa [or_assoc] using heard hstops
  | .answered _, h => exact h
  | .refused, h => exact h

theorem Reached.isCancelled
    (h : Reached P suppressors d token e) (hrefused : e.isRefused = true) :
    token.isCancelled = true := by
  cases h with
  | refused cancelled => exact cancelled
  | _ => simp [isRefused] at hrefused

theorem Reached.eq_answered
    (h : Reached P suppressors d token e) (hanswered : e.isAnswered = true) :
    e = .answered (answer? P suppressors d) ∧
      (stopsAt P suppressors d = true → token.isCancelled = true) := by
  cases h with
  | answered heard => exact ⟨rfl, heard⟩
  | _ => simp [isAnswered] at hanswered

theorem pending_advance_lt
    (hanswered : e.isAnswered = false) (hrefused : e.isRefused = false) :
    (e.advance P suppressors d token).1.pending suppressors < e.pending suppressors := by
  match e with
  | waiting =>
      by_cases htoken : token.isCancelled = true
      · simp [advance, pending, htoken]
      · simp [advance, pending, htoken]
  | asking [] => simp [advance, pending]
  | asking (s :: rest) => cases hs : s.suppress? P d <;> simp [advance, pending, hs]
  | answered _ => simp [isAnswered] at hanswered
  | refused => simp [isRefused] at hrefused

end Evaluation

/-! ## What a batch has established -/

namespace BatchState

/-- A batch that has come this far: every evaluation is consistent with the token, and the
token is cancelled for a reason. -/
structure Reached
    (P : Program) (suppressors : List Suppressor) (diagnostics : List Diagnostic)
    (token : CancellationToken) (interrupted : Prop) (b : BatchState) : Prop where
  diagnostics_eq : b.evaluations.map (·.1) = diagnostics
  evaluations : ∀ x ∈ b.evaluations, x.2.Reached P suppressors x.1 b.token
  cancelled : interrupted ∨ token.isCancelled = true → b.token.isCancelled = true
  reason : b.token.isCancelled = true →
    interrupted ∨ token.isCancelled = true ∨
      ∃ d ∈ diagnostics, stopsAt P suppressors d = true

variable {diagnostics : List Diagnostic} {token : CancellationToken}
  {interrupted : Prop} {b : BatchState}

theorem reached_start (diagnostics : List Diagnostic) (token : CancellationToken) :
    Reached P suppressors diagnostics token False (start diagnostics token) where
  diagnostics_eq := by simp [start, Function.comp_def]
  evaluations := by
    intro x hx
    obtain ⟨d, -, rfl⟩ := List.mem_map.mp hx
    exact .waiting
  cancelled := by simp [start]
  reason := fun h => .inr (.inl h)

theorem Reached.interrupt (h : Reached P suppressors diagnostics token interrupted b) :
    Reached P suppressors diagnostics token True (b.step P suppressors .interrupt) where
  diagnostics_eq := h.diagnostics_eq
  evaluations := fun x hx => (h.evaluations x hx).mono fun _ => rfl
  cancelled := fun _ => rfl
  reason := fun _ => .inl trivial

theorem Reached.advance
    (h : Reached P suppressors diagnostics token interrupted b) (i : Nat) :
    Reached P suppressors diagnostics token interrupted
      (b.step P suppressors (.advance i)) := by
  rw [step]
  split
  · exact h
  next d e hget =>
    have hmem : (d, e) ∈ b.evaluations := List.mem_of_getElem? hget
    have hreached := h.evaluations _ hmem
    -- Only this evaluation changes; a token is never taken back, so the others keep what
    -- they have established.
    refine ⟨?_, ?_, ?_, ?_⟩
    · have hsame : (b.evaluations.map (·.1))[i]? = some d := by simp [hget]
      obtain ⟨hi, hd⟩ := List.getElem?_eq_some_iff.mp hsame
      rw [List.map_set, ← h.diagnostics_eq]
      exact hd ▸ List.set_getElem_self hi
    · intro x hx
      rcases List.mem_or_eq_of_mem_set hx with hold | rfl
      · exact (h.evaluations x hold).mono Evaluation.isCancelled_advance
      · exact hreached.advance
    · intro hearlier
      exact Evaluation.isCancelled_advance (h.cancelled hearlier)
    · intro hnext
      rcases hreached.stopsAt_of_advance hnext with htoken | hstops
      · exact h.reason htoken
      · have hd : d ∈ diagnostics := h.diagnostics_eq ▸ List.mem_map_of_mem hmem
        exact .inr (.inr ⟨d, hd, hstops⟩)

/-- What holds of a batch at the start and after every step holds of every run. -/
theorem reached_run
    (diagnostics : List Diagnostic) (token : CancellationToken) (schedule : List BatchEvent) :
    Reached P suppressors diagnostics token (.interrupt ∈ schedule)
      ((start diagnostics token).run P suppressors schedule) := by
  induction schedule using List.reverseRecOn with
  | nil =>
      rw [List.mem_nil_iff]
      exact reached_start diagnostics token
  | append_singleton schedule event ih =>
      rw [run, List.foldl_append]
      cases event with
      | interrupt =>
          have hmem : BatchEvent.interrupt ∈ schedule ++ [.interrupt] ↔ True := by simp
          rw [hmem]
          exact ih.interrupt
      | advance i =>
          have hmem : BatchEvent.interrupt ∈ schedule ++ [.advance i] ↔
              BatchEvent.interrupt ∈ schedule := by simp
          rw [hmem]
          exact ih.advance i

/-! ## The outcome -/

theorem Reached.filterMap_eq
    (h : Reached P suppressors diagnostics token interrupted b)
    (hanswered : ∀ x ∈ b.evaluations, x.2.isAnswered = true) :
    b.evaluations.filterMap (·.2.suppression?) =
      diagnostics.filterMap (answer? P suppressors) := by
  rw [← h.diagnostics_eq, List.filterMap_map]
  apply List.filterMap_congr
  intro x hx
  rw [((h.evaluations x hx).eq_answered (hanswered x hx)).1]
  rfl

/-- A finished batch has been cancelled, or nothing has asked for it to stop and it has
all the answers. -/
theorem Reached.outcome_cases
    (h : Reached P suppressors diagnostics token interrupted b)
    {outcome : Except BatchError (List Suppression)} (ho : b.outcome? = some outcome) :
    (b.token.isCancelled = true ∧ outcome = .error .cancelled) ∨
      (b.token.isCancelled = false ∧
        outcome = .ok (diagnostics.filterMap (answer? P suppressors)) ∧
        ∀ d ∈ diagnostics, stopsAt P suppressors d = false) := by
  rw [outcome?] at ho
  split at ho
  next hrefused =>
    obtain ⟨x, hx, hx'⟩ := List.any_eq_true.mp hrefused
    exact .inl ⟨(h.evaluations x hx).isCancelled hx', (Option.some.inj ho).symm⟩
  next =>
    split at ho
    next hall =>
      have hanswered := List.all_eq_true.mp hall
      rw [h.filterMap_eq hanswered, Option.some.injEq] at ho
      by_cases htoken : b.token.isCancelled = true
      · rw [if_pos htoken] at ho
        exact .inl ⟨htoken, ho.symm⟩
      · rw [if_neg htoken] at ho
        refine .inr ⟨Bool.eq_false_of_not_eq_true htoken, ho.symm, ?_⟩
        intro d hd
        rw [← h.diagnostics_eq] at hd
        obtain ⟨x, hx, rfl⟩ := List.mem_map.mp hd
        have hheard := ((h.evaluations x hx).eq_answered (hanswered x hx)).2
        exact Bool.eq_false_of_not_eq_true fun hstops => htoken (hheard hstops)
    · exact absurd ho (Option.some_ne_none _).symm

/-! ## Every batch comes to an end -/

/-- A bound on the steps that are left in a batch. -/
def pending (suppressors : List Suppressor) (b : BatchState) : Nat :=
  (b.evaluations.map (·.2.pending suppressors)).sum

theorem exists_pending_step_lt
    (P : Program) (suppressors : List Suppressor) (h : b.outcome? = none) :
    ∃ i, (b.step P suppressors (.advance i)).pending suppressors < b.pending suppressors := by
  have hrefused : ∀ x ∈ b.evaluations, x.2.isRefused = false := by
    by_contra hsome
    simp only [not_forall, Bool.not_eq_false] at hsome
    obtain ⟨x, hx, hx'⟩ := hsome
    rw [outcome?, if_pos (List.any_eq_true.mpr ⟨x, hx, hx'⟩)] at h
    exact Option.some_ne_none _ h
  have hanswered : ∃ x ∈ b.evaluations, x.2.isAnswered = false := by
    by_contra hall
    simp only [not_exists, not_and, Bool.not_eq_false] at hall
    rw [outcome?, if_pos (List.all_eq_true.mpr hall)] at h
    split at h
    · exact Option.some_ne_none _ h
    · exact Option.some_ne_none _ h
  obtain ⟨⟨d, e⟩, hx, hx'⟩ := hanswered
  obtain ⟨i, hget⟩ := List.mem_iff_getElem?.mp hx
  refine ⟨i, ?_⟩
  simp only [step, hget, pending, List.map_set]
  exact sum_set_lt (by simp [hget]) (Evaluation.pending_advance_lt hx' (hrefused _ hx))

/-- Every batch can be finished without an interruption. -/
theorem exists_finishing_run
    (P : Program) (suppressors : List Suppressor) (b : BatchState) :
    ∃ rest, .interrupt ∉ rest ∧ (b.run P suppressors rest).outcome?.isSome = true := by
  -- The induction is on the steps that are left; which evaluation goes next is up to us.
  generalize hn : b.pending suppressors = n
  induction n using Nat.strong_induction_on generalizing b with
  | h n ih =>
      by_cases hdone : b.outcome?.isSome = true
      · exact ⟨[], List.not_mem_nil, hdone⟩
      · obtain ⟨i, hlt⟩ :=
          exists_pending_step_lt P suppressors (Option.not_isSome_iff_eq_none.mp hdone)
        obtain ⟨rest, hrest, hfinal⟩ := ih _ (hn ▸ hlt) _ rfl
        exact ⟨.advance i :: rest, by simpa using hrest, hfinal⟩

end BatchState

/-! ## All answers or none -/

theorem exists_stopsAt_iff
    {diagnostics : List Diagnostic} :
    (∃ d ∈ diagnostics, stopsAt P suppressors d = true) ↔
      ∃ d ∈ diagnostics, ∃ s ∈ consulted P d suppressors, s.cancels P d = true := by
  simp only [stopsAt, List.any_eq_true]

/-- A standard answer is about one of the diagnostics, and its descriptor is for
diagnostics of that kind. -/
theorem standard_answers
    (h : ∀ s ∈ suppressors, s.IsStandard) {diagnostics : List Diagnostic} {x : Suppression}
    (hx : x ∈ diagnostics.filterMap (answer? P suppressors)) :
    x.diagnostic ∈ diagnostics ∧ x.descriptor ∈ allDescriptors ∧
      x.descriptor.suppressedId = x.diagnostic.id := by
  obtain ⟨d, hd, hanswer⟩ := List.mem_filterMap.mp hx
  obtain ⟨heq, hdescriptor⟩ := answer?_of_isStandard h hanswer
  refine ⟨?_, hdescriptor, ?_⟩
  · rw [heq]
    exact hd
  · rw [heq]
    rfl

/-- The result of a batch and the token after it, as they are in every order of the
evaluations. -/
structure IsBatchResult
    (P : Program) (suppressors : List Suppressor) (diagnostics : List Diagnostic)
    (token : CancellationToken) (interrupted : Prop)
    (outcome : Except BatchError (List Suppression)) (after : CancellationToken) : Prop where
  all_or_nothing : outcome = .error .cancelled ∨
    outcome = .ok (diagnostics.filterMap (answer? P suppressors))
  cancelled_iff : outcome = .error .cancelled ↔
    interrupted ∨ token.isCancelled = true ∨
      ∃ d ∈ diagnostics, ∃ s ∈ consulted P d suppressors, s.cancels P d = true
  /-- Without an interruption, this is what the evaluations give one after another. -/
  sequential : ¬ interrupted →
    reportSuppressions P suppressors diagnostics token = (outcome, after)
  standard : (∀ s ∈ suppressors, s.IsStandard) → ∀ reported, outcome = .ok reported →
    ∀ x ∈ reported, x.diagnostic ∈ diagnostics ∧ x.descriptor ∈ allDescriptors ∧
      x.descriptor.suppressedId = x.diagnostic.id

theorem BatchState.Reached.isBatchResult
    {diagnostics : List Diagnostic} {token : CancellationToken} {interrupted : Prop}
    {b : BatchState} (h : b.Reached P suppressors diagnostics token interrupted)
    {outcome : Except BatchError (List Suppression)} (ho : b.outcome? = some outcome) :
    IsBatchResult P suppressors diagnostics token interrupted outcome b.token := by
  rcases h.outcome_cases ho with ⟨hafter, rfl⟩ | ⟨hafter, rfl, hgoes⟩
  · have hreason := h.reason hafter
    refine ⟨.inl rfl, ⟨fun _ => ?_, fun _ => rfl⟩, ?_, nofun⟩
    · rwa [← exists_stopsAt_iff]
    · intro huninterrupted
      have hstops :
          (token.isCancelled || diagnostics.any (stopsAt P suppressors)) = true := by
        rw [Bool.or_eq_true, List.any_eq_true]
        exact hreason.resolve_left huninterrupted
      rw [reportSuppressions_eq, if_pos hstops, ← hafter]
  · have hnone : ¬ (interrupted ∨ token.isCancelled = true) := by
      intro hearlier
      rw [h.cancelled hearlier] at hafter
      exact Bool.false_ne_true hafter.symm
    refine ⟨.inr rfl, ⟨nofun, ?_⟩, ?_, ?_⟩
    · rw [← exists_stopsAt_iff, ← or_assoc]
      rintro (hearlier | ⟨d, hd, hstops⟩)
      · exact absurd hearlier hnone
      · rw [hgoes d hd] at hstops
        exact absurd hstops Bool.false_ne_true
    · intro _
      have hgoes' : diagnostics.any (stopsAt P suppressors) = false := by
        simpa only [List.any_eq_false, Bool.not_eq_true] using hgoes
      have htoken : token.isCancelled = false :=
        Bool.eq_false_of_not_eq_true fun htrue => hnone (.inr htrue)
      rw [reportSuppressions_eq, htoken, hgoes', Bool.or_self, if_neg Bool.false_ne_true,
        ← hafter]
    · intro hstandard reported hreported x hx
      rw [← Except.ok.inj hreported] at hx
      exact standard_answers hstandard hx

/-- However the evaluations of a batch are interleaved, and whenever the token is cancelled
from outside, the batch reports all the answers or is cancelled.  It is cancelled only from
outside, at the start or by a suppressor that looks at a diagnostic, so without an
interruption the order makes no difference.  Every schedule leads to an end. -/
theorem batch_result_independent_of_order
    (P : Program) (suppressors : List Suppressor) (diagnostics : List Diagnostic)
    (token : CancellationToken) :
    (∀ schedule outcome,
      ((BatchState.start diagnostics token).run P suppressors schedule).outcome? =
        some outcome →
      IsBatchResult P suppressors diagnostics token (.interrupt ∈ schedule) outcome
        ((BatchState.start diagnostics token).run P suppressors schedule).token) ∧
    ∀ schedule, ∃ rest, .interrupt ∉ rest ∧
      ((BatchState.start diagnostics token).run P suppressors
        (schedule ++ rest)).outcome?.isSome = true := by
  constructor
  · intro schedule outcome houtcome
    exact (BatchState.reached_run diagnostics token schedule).isBatchResult houtcome
  · intro schedule
    obtain ⟨rest, hrest, hdone⟩ := BatchState.exists_finishing_run P suppressors
      ((BatchState.start diagnostics token).run P suppressors schedule)
    refine ⟨rest, hrest, ?_⟩
    rwa [BatchState.run, List.foldl_append]

end Interleaving

/-- Two evaluations in turns, the second one first. -/
def alternatingSchedule : List BatchEvent :=
  [.advance 1, .advance 0, .advance 1, .advance 0, .advance 1, .advance 0]

/-- A suppressor that has no answers and asks for the batch to stop at a switch statement. -/
def Suppressor.stoppingAtStatements : Suppressor where
  descriptors := []
  suppress? _ _ := none
  cancels _ d := (findDescriptor? statementDescriptors d.id).isSome

theorem alternatingSchedule_results :
    (∃ reported, reported.length = 2 ∧
      ((BatchState.start nestedDiagnostics {}).run nestedProgram (Suppressor.both false)
        alternatingSchedule).outcome? = some (.ok reported) ∧
      reportSuppressions nestedProgram (Suppressor.both false) nestedDiagnostics {} =
        (.ok reported, {}) ∧
      ∀ x ∈ reported, x.descriptor.suppressedId = x.diagnostic.id) ∧
    ((BatchState.start nestedDiagnostics {}).run nestedProgram
      [.stoppingAtStatements] alternatingSchedule).outcome? = some (.error .cancelled) ∧
    ∃ d ∈ nestedDiagnostics, ∃ s ∈ consulted nestedProgram d [.stoppingAtStatements],
      s.cancels nestedProgram d = true := by
  have hsmooth := batch_result_independent_of_order nestedProgram (Suppressor.both false)
    nestedDiagnostics {}
  have hstopped := batch_result_independent_of_order nestedProgram
    [.stoppingAtStatements] nestedDiagnostics {}
  refine ⟨?_, rfl, ?_⟩
  · have hresult := hsmooth.1 alternatingSchedule _ rfl
    refine ⟨_, ?_, rfl, hresult.sequential (by decide), ?_⟩
    · rfl
    · intro x hx
      exact (hresult.standard (fun s hs => Suppressor.isStandard_of_mem_both hs) _ rfl
        x hx).2.2
  · have hresult := hstopped.1 alternatingSchedule _ rfl
    rcases hresult.cancelled_iff.mp rfl with hinterrupt | htoken | hstops
    · exact absurd hinterrupt (by decide)
    · exact absurd htoken Bool.false_ne_true
    · exact hstops

end ClosedSwitch
