import ClosedSwitch.Suppressor

/-!
# Batches

A batch takes a list of diagnostics through a list of suppressors. It reports the suppressions in
the order of the diagnostics, or nothing at all when it is cancelled before its end.
-/

namespace ClosedSwitch

/-- Whether a batch has been asked to stop. -/
structure CancellationToken where
  isCancelled : Bool := false
deriving DecidableEq, Repr

inductive BatchError where
  | cancelled
deriving DecidableEq, Repr

def BatchError.message : BatchError → String
  | .cancelled => "suppression analysis was cancelled"

/-- The first suppression of a diagnostic, and the token after the suppressors up to that one. -/
def firstSuppression (P : Program) (d : Diagnostic) (token : CancellationToken) :
    List Suppressor → Option Suppression × CancellationToken
  | [] => (none, token)
  | s :: rest =>
    let token : CancellationToken := ⟨token.isCancelled || s.cancels P d⟩
    match s.suppress? P d with
    | some suppression => (some suppression, token)
    | none => firstSuppression P d token rest

/-- The answers for all diagnostics; nothing once the token is cancelled before one of them. -/
def answers? (P : Program) (suppressors : List Suppressor) (token : CancellationToken) :
    List Diagnostic → Option (List (Option Suppression)) × CancellationToken
  | [] => (some [], token)
  | d :: rest =>
    if token.isCancelled then (none, token)
    else
      let (answer, token) := firstSuppression P d token suppressors
      let (others, token) := answers? P suppressors token rest
      (others.map (answer :: ·), token)

/-- Runs a batch: the suppressions in the order of the diagnostics, unless the token is cancelled
at the start, on the way or at the end. -/
def reportSuppressions (P : Program) (suppressors : List Suppressor)
    (diagnostics : List Diagnostic) (token : CancellationToken) :
    Except BatchError (List Suppression) × CancellationToken :=
  match answers? P suppressors token diagnostics with
  | (none, token) => (.error .cancelled, token)
  | (some answers, token) =>
    if token.isCancelled then (.error .cancelled, token) else (.ok (answers.filterMap id), token)

end ClosedSwitch
