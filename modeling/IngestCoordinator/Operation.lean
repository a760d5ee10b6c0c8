-- SUMMARY: Operations on a state that may fail, run on a part of a larger state.
import IngestCoordinator.Error

/-!
# Operations

An operation on a state gives an answer or an error, and the next state in both
cases: what was done before the error stays done. An operation on a part of a
state is an operation on the whole that leaves the rest alone.
-/

namespace IngestCoordinator

/-- A step from one state to the next that gives an answer or an error. -/
abbrev Operation (σ α : Type) := EStateM Error σ α

namespace Operation

/-- Runs an operation on a part of the state. -/
def onPart (part : σ → τ) (replace : σ → τ → σ) (operation : Operation τ α) : Operation σ α :=
  fun s =>
    match operation (part s) with
    | .ok a t => .ok a (replace s t)
    | .error e t => .error e (replace s t)

/-- The answer or error of an operation as an answer that is always there. -/
def attempt (operation : Operation σ α) : StateM σ (Except Error α) := fun s =>
  match operation s with
  | .ok a s => (.ok a, s)
  | .error e s => (.error e, s)

/-- A step that cannot fail is an operation. -/
def ofStep (step : StateM σ α) : Operation σ α := fun s =>
  let (a, s) := step s
  .ok a s

/-- A step on a part of the state. -/
def stepOnPart (part : σ → τ) (replace : σ → τ → σ) (step : StateM τ α) : StateM σ α := fun s =>
  let (a, t) := step (part s)
  (a, replace s t)

@[simp] theorem onPart_ok {part : σ → τ} {replace : σ → τ → σ} {operation : Operation τ α}
    {s : σ} {a : α} {t : τ} (h : operation (part s) = .ok a t) :
    onPart part replace operation s = .ok a (replace s t) := by
  simp [onPart, h]

@[simp] theorem onPart_error {part : σ → τ} {replace : σ → τ → σ} {operation : Operation τ α}
    {s : σ} {e : Error} {t : τ} (h : operation (part s) = .error e t) :
    onPart part replace operation s = .error e (replace s t) := by
  simp [onPart, h]

end Operation

end IngestCoordinator
