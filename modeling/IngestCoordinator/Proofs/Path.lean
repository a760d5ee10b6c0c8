-- SUMMARY: Paths of labelled steps, the invariants that hold along them, and what they list.

/-!
# Paths

A path is made of steps one after another; it lists their labels in order. What
holds at the start and is kept by every step holds at the end. Where each label is
a list itself, a course is a path that lists all that its steps list.
-/

namespace IngestCoordinator

variable {σ τ υ : Type} {step : σ → τ → σ → Prop} {s t u : σ} {labels labels' : List τ} {label : τ}

/-- Steps one after another. -/
inductive Path (step : σ → τ → σ → Prop) : σ → List τ → σ → Prop where
  | nil (s : σ) : Path step s [] s
  | snoc {s t u : σ} {labels : List τ} {label : τ} (h : Path step s labels t)
    (hstep : step t label u) : Path step s (labels ++ [label]) u

namespace Path

theorem single (h : step s label t) : Path step s [label] t :=
  (Path.nil s).snoc h

theorem append (h : Path step s labels t) (h' : Path step t labels' u) :
    Path step s (labels ++ labels') u := by
  induction h' with
  | nil => simpa using h
  | snoc _ hstep ih =>
    rw [← List.append_assoc]
    exact ih.snoc hstep

theorem invariant {p : σ → Prop} (hkeeps : ∀ s label t, p s → step s label t → p t)
    (h : Path step s labels t) (hs : p s) : p t := by
  induction h with
  | nil => exact hs
  | snoc _ hstep ih => exact hkeeps _ _ _ ih hstep

end Path

/-- Steps one after another, and all that they list in order. -/
def Course (step : σ → List τ → σ → Prop) (s : σ) (events : List τ) (t : σ) : Prop :=
  ∃ lists, Path step s lists t ∧ lists.flatten = events

namespace Course

variable {step : σ → List τ → σ → Prop} {events events' new : List τ}

theorem nil (s : σ) : Course step s [] s :=
  ⟨[], .nil s, rfl⟩

theorem snoc (h : Course step s events t) (hstep : step t new u) :
    Course step s (events ++ new) u := by
  obtain ⟨lists, hpath, rfl⟩ := h
  exact ⟨_, hpath.snoc hstep, List.flatten_concat⟩

theorem single (h : step s events t) : Course step s events t :=
  ⟨_, .single h, List.flatten_singleton⟩

theorem append (h : Course step s events t) (h' : Course step t events' u) :
    Course step s (events ++ events') u := by
  obtain ⟨lists, hpath, rfl⟩ := h
  obtain ⟨lists', hpath', rfl⟩ := h'
  exact ⟨_, hpath.append hpath', List.flatten_append⟩

theorem invariant {p : σ → Prop} (hkeeps : ∀ s new t, p s → step s new t → p t)
    (h : Course step s events t) (hs : p s) : p t :=
  h.elim fun _ hpath => hpath.1.invariant hkeeps hs

/-- Induction on the last step. -/
@[elab_as_elim]
theorem induct {motive : ∀ events t, Course step s events t → Prop} (nil : motive [] s (nil s))
    (snoc : ∀ {events new : List τ} {t u : σ} (h : Course step s events t) (hstep : step t new u),
      motive events t h → motive (events ++ new) u (h.snoc hstep))
    {events : List τ} {t : σ} (h : Course step s events t) : motive events t h := by
  obtain ⟨lists, hpath, hlists⟩ := h
  induction hpath generalizing events with
  | nil =>
    subst hlists
    exact nil
  | snoc hpath hstep ih =>
    rw [List.flatten_concat] at hlists
    subst hlists
    exact snoc ⟨_, hpath, rfl⟩ hstep (ih rfl)

end Course

end IngestCoordinator
