/-
  LayeredAccess.Agenda

  Work that begets work. An agenda is a list of tasks of which the first is
  always done next; the tasks it calls for go in front of the others, so a task
  is finished with everything it entails before the next one starts.

  `run_invariant` carries a property of single steps over to whole runs, and
  `run_of_le` says that a run that has come to an end is not changed by a
  larger bound.
-/

namespace LayeredAccess.Agenda

variable {σ τ : Type}

/-- Does the tasks of an agenda, at most a given number of them; returns the state and the tasks
left over. -/
def run (step : σ → τ → σ × List τ) : Nat → σ → List τ → σ × List τ
  | _, s, [] => (s, [])
  | 0, s, t :: rest => (s, t :: rest)
  | bound + 1, s, t :: rest =>
    let (s, more) := step s t
    run step bound s (more ++ rest)

variable {step : σ → τ → σ × List τ}

@[simp] theorem run_nil (bound : Nat) (s : σ) : run step bound s [] = (s, []) := by
  cases bound <;> rfl

theorem run_succ (bound : Nat) (s : σ) (t : τ) (rest : List τ) :
    run step (bound + 1) s (t :: rest) =
      run step bound (step s t).1 ((step s t).2 ++ rest) := rfl

/-- What every step keeps, a run keeps. -/
theorem run_invariant {P : σ → Prop} (hstep : ∀ s t, P s → P (step s t).1) (bound : Nat) :
    ∀ (s : σ) (tasks : List τ), P s → P (run step bound s tasks).1 := by
  induction bound with
  | zero => intro s tasks h; cases tasks <;> exact h
  | succ n ih =>
    intro s tasks h
    cases tasks with
    | nil => exact h
    | cons t rest => exact ih _ _ (hstep s t h)

/-- A run that leaves no task over gives the same under any larger bound. -/
theorem run_of_le {bound bound' : Nat} (h : bound ≤ bound') :
    ∀ (s : σ) (tasks : List τ), (run step bound s tasks).2 = [] →
      run step bound' s tasks = run step bound s tasks := by
  induction bound generalizing bound' with
  | zero =>
    intro s tasks hend
    cases tasks with
    | nil => simp
    | cons t rest => simp [run] at hend
  | succ n ih =>
    intro s tasks hend
    cases tasks with
    | nil => simp
    | cons t rest =>
      obtain ⟨m, rfl⟩ : ∃ m, bound' = m + 1 := ⟨bound' - 1, by omega⟩
      rw [run_succ] at hend ⊢
      rw [run_succ]
      exact ih (by omega) _ _ hend

end LayeredAccess.Agenda
