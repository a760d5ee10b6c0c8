-- SUMMARY: Operations that never look at what a view of the state leaves out, and their rules.
import IngestCoordinator.Proofs.Operation

/-!
# Views of the state

A view leaves a part of the state out. An operation is blind to this part if it has the
same answer in any two states that look the same, and leaves states that look the same.
What is put together from such operations is blind as well, as long as nothing that is
read on the way depends on the part.
-/

namespace IngestCoordinator.Operation

variable {σ τ ρ ρ' α β : Type} {view : σ → ρ} {operation : Operation σ α} {step : StateM σ α}

/-- A step that cannot fail is blind to what the view leaves out. -/
def StepBlind (view : σ → ρ) (step : StateM σ α) : Prop :=
  ∀ s t, view s = view t → (step s).1 = (step t).1 ∧ view (step s).2 = view (step t).2

/-- The operation is blind to what the view leaves out. -/
def Blind (view : σ → ρ) (operation : Operation σ α) : Prop :=
  StepBlind view operation.attempt

/-! ## Steps that cannot fail -/

theorem StepBlind.pure (value : α) : StepBlind view (pure value) :=
  fun _ _ h => ⟨rfl, h⟩

theorem StepBlind.modify {f : σ → σ} (hf : ∀ s t, view s = view t → view (f s) = view (f t)) :
    StepBlind view (modify f : StateM σ PUnit) :=
  fun s t h => ⟨rfl, hf s t h⟩

theorem StepBlind.bind {f : α → StateM σ β} (h : StepBlind view step)
    (hf : ∀ value, StepBlind view (f value)) : StepBlind view (step >>= f) := by
  intro s t hview
  obtain ⟨hvalue, hafter⟩ := h s t hview
  rw [step_bind, step_bind, hvalue]
  exact hf _ _ _ hafter

/-- What is read of the state must be what the view shows. -/
theorem StepBlind.get_bind {f : σ → StateM σ β} (hf : ∀ s, StepBlind view (f s))
    (hsame : ∀ s t, view s = view t → f s = f t) :
    StepBlind view ((get : StateM σ σ) >>= f) := by
  intro s t hview
  rw [step_bind, step_bind, step_get, step_get, hsame s t hview]
  exact hf t s t hview

/-! ## Operations -/

theorem Blind.pure (value : α) : Blind view (pure value : Operation σ α) :=
  fun _ _ h => ⟨rfl, h⟩

/-- Where everything is shown there is nothing to be blind to. -/
theorem Blind.self (operation : Operation σ α) : Blind (fun s => s) operation := by
  rintro s t rfl
  exact ⟨rfl, rfl⟩

theorem Blind.throw (error : Error) : Blind view (throw error : Operation σ α) :=
  fun _ _ h => ⟨rfl, h⟩

theorem Blind.ofExcept (result : Except Error α) :
    Blind view (ofExcept result : Operation σ α) := by
  cases result with
  | ok value => exact .pure value
  | error error => exact .throw error

theorem Blind.modify {f : σ → σ} (hf : ∀ s t, view s = view t → view (f s) = view (f t)) :
    Blind view (modify f : Operation σ PUnit) :=
  fun s t h => ⟨rfl, hf s t h⟩

theorem attempt_bind (f : α → Operation σ β) (s : σ) : (operation >>= f).attempt s =
    match operation.attempt s with
    | (.ok value, t) => (f value).attempt t
    | (.error error, t) => (.error error, t) := by
  have hbind : (operation >>= f) s = EStateM.bind operation f s := rfl
  unfold attempt
  rw [hbind]
  unfold EStateM.bind
  cases operation s with
  | ok value t => rfl
  | error error t => rfl

theorem Blind.bind {f : α → Operation σ β} (h : Blind view operation)
    (hf : ∀ value, Blind view (f value)) : Blind view (operation >>= f) := by
  intro s t hview
  obtain ⟨hresult, hafter⟩ := h s t hview
  rw [attempt_bind, attempt_bind]
  generalize operation.attempt s = first at hresult hafter ⊢
  generalize operation.attempt t = second at hresult hafter ⊢
  obtain ⟨result, s'⟩ := first
  obtain ⟨_, t'⟩ := second
  obtain rfl : result = _ := hresult
  cases result with
  | ok value => exact hf value s' t' hafter
  | error error => exact ⟨rfl, hafter⟩

/-- What is read of the state must be what the view shows. -/
theorem Blind.get_bind {f : σ → Operation σ β} (hf : ∀ s, Blind view (f s))
    (hsame : ∀ s t, view s = view t → f s = f t) :
    Blind view ((get : Operation σ σ) >>= f) := by
  intro s t hview
  change ((f s).attempt s).1 = ((f t).attempt t).1 ∧
    view ((f s).attempt s).2 = view ((f t).attempt t).2
  rw [hsame s t hview]
  exact hf t s t hview

theorem StepBlind.ofStep (h : StepBlind view step) : Blind view (ofStep step) := by
  intro s t hview
  obtain ⟨hvalue, hafter⟩ := h s t hview
  exact ⟨congrArg Except.ok hvalue, hafter⟩

theorem attempt_onPart {part : σ → τ} {replace : σ → τ → σ} {operation : Operation τ α} (s : σ) :
    (onPart part replace operation).attempt s =
      ((operation.attempt (part s)).1, replace s (operation.attempt (part s)).2) := by
  unfold attempt
  cases hresult : operation (part s) with
  | ok value p => rw [onPart_ok hresult]
  | error error p => rw [onPart_error hresult]

/-- On a part of the state, with a view of the part that goes with the one of the whole. -/
theorem Blind.onPart {part : σ → τ} {replace : σ → τ → σ} {viewPart : τ → ρ'}
    {operation : Operation τ α} (h : Blind viewPart operation)
    (hpart : ∀ s t, view s = view t → viewPart (part s) = viewPart (part t))
    (hreplace : ∀ s t p q, view s = view t → viewPart p = viewPart q →
      view (replace s p) = view (replace t q)) : Blind view (onPart part replace operation) := by
  intro s t hview
  obtain ⟨hresult, hafter⟩ := h _ _ (hpart s t hview)
  rw [attempt_onPart, attempt_onPart]
  exact ⟨hresult, hreplace s t _ _ hview hafter⟩

end IngestCoordinator.Operation
