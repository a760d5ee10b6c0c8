-- SUMMARY: Statements about both outcomes of an operation, and the rules that take operations apart.
import IngestCoordinator.Operation

/-!
# Outcomes of operations

An operation ends with an answer or with an error, and leaves a state in both
cases. `Ensures` states what holds of either end; its rules follow the way
operations are put together, so a statement about an operation turns into
statements about its parts.
-/

namespace IngestCoordinator

namespace Operation

variable {σ τ α β : Type}

/-- What holds of the answer or the error of an operation and of the state that it leaves. -/
def Ensures (operation : Operation σ α) (s : σ) (done : α → σ → Prop)
    (failed : Error → σ → Prop) : Prop :=
  match operation s with
  | .ok a t => done a t
  | .error e t => failed e t

variable {operation : Operation σ α} {s t : σ} {done done' : α → σ → Prop}
  {failed failed' : Error → σ → Prop}

theorem Ensures.imp (h : Ensures operation s done failed)
    (hdone : ∀ a t, done a t → done' a t) (hfailed : ∀ e t, failed e t → failed' e t) :
    Ensures operation s done' failed' := by
  unfold Ensures at *
  split at h
  · exact hdone _ _ h
  · exact hfailed _ _ h

theorem Ensures.and (h : Ensures operation s done failed)
    (h' : Ensures operation s done' failed') :
    Ensures operation s (fun a t => done a t ∧ done' a t) (fun e t => failed e t ∧ failed' e t) := by
  unfold Ensures at *
  split at h
  · rename_i heq
    exact ⟨h, by simpa only [heq] using h'⟩
  · rename_i heq
    exact ⟨h, by simpa only [heq] using h'⟩

theorem Ensures.ok {a : α} (h : Ensures operation s done failed) (hrun : operation s = .ok a t) :
    done a t := by
  simpa only [Ensures, hrun] using h

theorem Ensures.error {e : Error} (h : Ensures operation s done failed)
    (hrun : operation s = .error e t) : failed e t := by
  simpa only [Ensures, hrun] using h

theorem ensures_of_ok {a : α} (hrun : operation s = .ok a t) :
    Ensures operation s done failed ↔ done a t := by
  simp only [Ensures, hrun]

theorem ensures_of_error {e : Error} (hrun : operation s = .error e t) :
    Ensures operation s done failed ↔ failed e t := by
  simp only [Ensures, hrun]

/-- An operation of which everything is known. -/
theorem eq_ok_of_ensures {a : α}
    (h : Ensures operation s (fun a' t' => a' = a ∧ t' = t) (fun _ _ => False)) :
    operation s = .ok a t := by
  unfold Ensures at h
  split at h
  · rename_i heq
    rw [heq, h.1, h.2]
  · exact h.elim

theorem eq_error_of_ensures {e : Error}
    (h : Ensures operation s (fun _ _ => False) (fun e' t' => e' = e ∧ t' = t)) :
    operation s = .error e t := by
  unfold Ensures at h
  split at h
  · exact h.elim
  · rename_i heq
    rw [heq, h.1, h.2]

/-- An operation that cannot fail ends with an answer. -/
theorem exists_ok_of_ensures (h : Ensures operation s done fun _ _ => False) :
    ∃ a t, operation s = .ok a t ∧ done a t := by
  unfold Ensures at h
  split at h
  · rename_i heq
    exact ⟨_, _, heq, h⟩
  · exact h.elim

/-- An operation ends as it ends. -/
theorem Ensures.self (operation : Operation σ α) (s : σ) : Ensures operation s
    (fun a t => operation s = .ok a t) (fun e t => operation s = .error e t) := by
  unfold Ensures
  split
  · assumption
  · assumption

theorem Ensures.of_forall (hdone : ∀ a t, done a t) (hfailed : ∀ e t, failed e t) :
    Ensures operation s done failed := by
  unfold Ensures
  split
  · exact hdone _ _
  · exact hfailed _ _

/-! ## Rules -/

@[simp] theorem ensures_pure {a : α} : Ensures (pure a) s done failed ↔ done a s := Iff.rfl

@[simp] theorem ensures_throw {e : Error} :
    Ensures (throw e : Operation σ α) s done failed ↔ failed e s := Iff.rfl

@[simp] theorem ensures_get {done : σ → σ → Prop} :
    Ensures (get : Operation σ σ) s done failed ↔ done s s := Iff.rfl

@[simp] theorem ensures_set {done : PUnit → σ → Prop} :
    Ensures (set t : Operation σ PUnit) s done failed ↔ done ⟨⟩ t := Iff.rfl

@[simp] theorem ensures_modify {f : σ → σ} {done : PUnit → σ → Prop} :
    Ensures (modify f : Operation σ PUnit) s done failed ↔ done ⟨⟩ (f s) := Iff.rfl

@[simp] theorem ensures_bind {f : α → Operation σ β} {done : β → σ → Prop} :
    Ensures (operation >>= f) s done failed ↔
      Ensures operation s (fun a t => Ensures (f a) t done failed) failed := by
  change (match EStateM.bind operation f s with | .ok a t => done a t | .error e t => failed e t) ↔ _
  unfold Ensures EStateM.bind
  cases operation s with
  | ok a t => exact Iff.rfl
  | error e t => exact Iff.rfl

@[simp] theorem ensures_map {f : α → β} {done : β → σ → Prop} :
    Ensures (f <$> operation) s done failed ↔
      Ensures operation s (fun a t => done (f a) t) failed := by
  change (match EStateM.map f operation s with | .ok a t => done a t | .error e t => failed e t) ↔ _
  unfold Ensures EStateM.map
  cases operation s with
  | ok a t => exact Iff.rfl
  | error e t => exact Iff.rfl

@[simp] theorem ensures_ofExcept {result : Except Error α} :
    Ensures (ofExcept result : Operation σ α) s done failed ↔
      (∀ a, result = .ok a → done a s) ∧ (∀ e, result = .error e → failed e s) := by
  cases result with
  | ok a => simp [ofExcept]
  | error e => simp [ofExcept]

@[simp] theorem ensures_onPart {part : σ → τ} {replace : σ → τ → σ}
    {operation : Operation τ α} :
    Ensures (onPart part replace operation) s done failed ↔
      Ensures operation (part s) (fun a t => done a (replace s t))
        (fun e t => failed e (replace s t)) := by
  unfold Ensures onPart
  cases operation (part s) with
  | ok a t => exact Iff.rfl
  | error e t => exact Iff.rfl

@[simp] theorem ensures_ofStep {step : StateM σ α} :
    Ensures (ofStep step) s done failed ↔ done (step s).1 (step s).2 := Iff.rfl

/-! ## Steps that cannot fail -/

theorem step_bind (step : StateM σ α) (f : α → StateM σ β) (s : σ) :
    (step >>= f) s = f (step s).1 (step s).2 := rfl

theorem step_pure (a : α) (s : σ) : (pure a : StateM σ α) s = (a, s) := rfl

theorem step_get (s : σ) : (get : StateM σ σ) s = (s, s) := rfl

theorem step_modify (f : σ → σ) (s : σ) : (modify f : StateM σ PUnit) s = (⟨⟩, f s) := rfl

/-- What holds after an attempt, by what has come of it. -/
def Outcome (done : α → σ → Prop) (failed : Error → σ → Prop) : Except Error α → σ → Prop
  | .ok a, t => done a t
  | .error e, t => failed e t

/-- An attempt always has an answer: that of the operation or its error. -/
theorem Ensures.attempt (h : Ensures operation s done failed) :
    Outcome done failed (operation.attempt s).1 (operation.attempt s).2 := by
  unfold Ensures at h
  unfold Operation.attempt
  cases hresult : operation s with
  | ok a t =>
    rw [hresult] at h
    exact h
  | error e t =>
    rw [hresult] at h
    exact h

theorem Ensures.attempt_snd {p : σ → Prop}
    (h : Ensures operation s (fun _ t => p t) (fun _ t => p t)) : p (operation.attempt s).2 := by
  have hattempt := h.attempt
  cases hresult : (operation.attempt s).1 with
  | ok a =>
    rw [hresult] at hattempt
    exact hattempt
  | error e =>
    rw [hresult] at hattempt
    exact hattempt

theorem Ensures.of_attempt_snd {p : σ → Prop} (h : p (operation.attempt s).2) :
    Ensures operation s (fun _ t => p t) (fun _ t => p t) := by
  unfold Operation.attempt at h
  unfold Ensures
  cases hresult : operation s with
  | ok a t =>
    rw [hresult] at h
    exact h
  | error e t =>
    rw [hresult] at h
    exact h

/-- What holds of an answer holds of it after an attempt that has it. -/
theorem Ensures.attempt_ok (h : Ensures operation s done failed) {a : α}
    (hok : (operation.attempt s).1 = .ok a) : done a (operation.attempt s).2 := by
  have hattempt := h.attempt
  rw [hok] at hattempt
  exact hattempt

/-- An operation that cannot fail answers. -/
theorem Ensures.attempt_done (h : Ensures operation s done fun _ _ => False) :
    ∃ a, (operation.attempt s).1 = .ok a ∧ done a (operation.attempt s).2 := by
  have hattempt := h.attempt
  cases hresult : (operation.attempt s).1 with
  | ok a =>
    rw [hresult] at hattempt
    exact ⟨a, rfl, hattempt⟩
  | error e =>
    rw [hresult] at hattempt
    exact hattempt.elim

theorem eq_ok_of_attempt {a : α} (h : (operation.attempt s).1 = .ok a) :
    operation s = .ok a (operation.attempt s).2 := by
  unfold Operation.attempt at h ⊢
  cases hresult : operation s with
  | ok b t =>
    rw [hresult] at h
    cases h
    rfl
  | error e t =>
    rw [hresult] at h
    cases h

theorem eq_error_of_attempt {e : Error} (h : (operation.attempt s).1 = .error e) :
    operation s = .error e (operation.attempt s).2 := by
  unfold Operation.attempt at h ⊢
  cases hresult : operation s with
  | ok a t =>
    rw [hresult] at h
    cases h
  | error e' t =>
    rw [hresult] at h
    cases h
    rfl

/-! ## Invariants -/

/-- The operation preserves a property of the state, wherever it stops. -/
def Preserves (p : σ → Prop) (operation : Operation σ α) : Prop :=
  ∀ s, p s → Ensures operation s (fun _ t => p t) (fun _ t => p t)

section

variable {p : σ → Prop}

theorem Preserves.pure (value : α) : Preserves p (pure value : Operation σ α) :=
  fun _ h => h

theorem Preserves.throw (e : Error) : Preserves p (throw e : Operation σ α) :=
  fun _ h => h

theorem Preserves.get : Preserves p (get : Operation σ σ) :=
  fun _ h => h

theorem Preserves.ofExcept (result : Except Error α) :
    Preserves p (ofExcept result : Operation σ α) := fun _ h => by
  rw [ensures_ofExcept]
  exact ⟨fun _ _ => h, fun _ _ => h⟩

theorem Preserves.modify {f : σ → σ} (hf : ∀ s, p s → p (f s)) :
    Preserves p (modify f : Operation σ PUnit) :=
  fun s h => hf s h

theorem Preserves.bind {f : α → Operation σ β} (h : Preserves p operation)
    (hf : ∀ value, Preserves p (f value)) : Preserves p (operation >>= f) := fun s hs => by
  rw [ensures_bind]
  exact (h s hs).imp (fun value t ht => hf value t ht) fun _ _ ht => ht

theorem Preserves.attempt (h : Preserves p operation) (hs : p s) : p (operation.attempt s).2 :=
  (h s hs).attempt_snd

theorem Preserves.ofAttempt (h : Preserves p operation) :
    Preserves p (Operation.ofStep operation.attempt) :=
  fun _ hs => ensures_ofStep.2 (h.attempt hs)

/-- The same of a step that cannot fail. -/
def StepPreserves (p : σ → Prop) (step : StateM σ α) : Prop :=
  ∀ s, p s → p (step s).2

theorem StepPreserves.pure (value : α) : StepPreserves p (pure value : StateM σ α) :=
  fun _ h => h

theorem StepPreserves.get : StepPreserves p (get : StateM σ σ) :=
  fun _ h => h

theorem StepPreserves.modify {f : σ → σ} (hf : ∀ s, p s → p (f s)) :
    StepPreserves p (modify f : StateM σ PUnit) :=
  fun s h => hf s h

theorem StepPreserves.bind {step : StateM σ α} {f : α → StateM σ β} (h : StepPreserves p step)
    (hf : ∀ value, StepPreserves p (f value)) : StepPreserves p (step >>= f) :=
  fun s hs => hf _ _ (h s hs)

theorem Preserves.step (h : Preserves p operation) : StepPreserves p operation.attempt :=
  fun _ hs => h.attempt hs

theorem StepPreserves.ofStep {step : StateM σ α} (h : StepPreserves p step) :
    Preserves p (Operation.ofStep step) :=
  fun s hs => ensures_ofStep.2 (h s hs)

end

end Operation

end IngestCoordinator
