/-
  LayeredAccess.Proofs.Agenda

  When a run of an agenda comes to an end, and what holds there.

  `run_append` puts two finished runs together. `Finishes` tells of a finished
  run without a bound: each task is finished with everything that it leaves
  before the next one begins (`finishes_iff`). `exists_run_eq` is the way to
  show that a run ends: every task weighs more than the tasks it leaves, and a
  property of state and agenda is handed on from task to task. Several steps
  that belong together may count as one.
-/
import LayeredAccess.Agenda

namespace LayeredAccess.Agenda

variable {σ τ : Type} {step : σ → τ → σ × List τ}

/-- What every step with a task of some sort keeps, a run keeps, if such tasks only leave tasks of
that sort. -/
theorem run_invariant_of {P : σ → Prop} {Q : τ → Prop}
    (hstep : ∀ s t, P s → Q t → P (step s t).1 ∧ ∀ u ∈ (step s t).2, Q u) (bound : Nat) :
    ∀ (s : σ) (tasks : List τ), P s → (∀ t ∈ tasks, Q t) → P (run step bound s tasks).1 := by
  induction bound with
  | zero =>
    intro s tasks h _
    cases tasks <;> exact h
  | succ n ih =>
    intro s tasks h htasks
    cases tasks with
    | nil => exact h
    | cons t rest =>
      obtain ⟨ht, hrest⟩ := List.forall_mem_cons.1 htasks
      obtain ⟨hs, hmore⟩ := hstep s t h ht
      exact ih _ _ hs (List.forall_mem_append.2 ⟨hmore, hrest⟩)

/-- If steps of two systems correspond and leave the same tasks, runs correspond. -/
theorem run_corresponds {σ' : Type} {step' : σ' → τ → σ' × List τ} {R : σ → σ' → Prop}
    (hstep : ∀ s s' t, R s s' → R (step s t).1 (step' s' t).1 ∧ (step' s' t).2 = (step s t).2)
    (bound : Nat) : ∀ s s' tasks, R s s' →
      R (run step bound s tasks).1 (run step' bound s' tasks).1 := by
  induction bound with
  | zero =>
    intro s s' tasks h
    cases tasks <;> exact h
  | succ n ih =>
    intro s s' tasks h
    cases tasks with
    | nil => exact h
    | cons t rest =>
      obtain ⟨hnext, hmore⟩ := hstep s s' t h
      rw [run_succ, run_succ, hmore]
      exact ih _ _ _ hnext

/-- The weights of all tasks of an agenda together. -/
def total (weight : τ → Nat) : List τ → Nat
  | [] => 0
  | t :: rest => weight t + total weight rest

@[simp] theorem total_nil (weight : τ → Nat) : total weight [] = 0 := rfl

@[simp] theorem total_cons (weight : τ → Nat) (t : τ) (rest : List τ) :
    total weight (t :: rest) = weight t + total weight rest := rfl

@[simp] theorem total_append (weight : τ → Nat) (xs ys : List τ) :
    total weight (xs ++ ys) = total weight xs + total weight ys := by
  induction xs with
  | nil => simp
  | cons t rest ih => simp [ih, Nat.add_assoc]

/-- Tasks of bounded weight weigh at most as much as their number allows. -/
theorem total_le_mul (weight : τ → Nat) (bound : Nat) (tasks : List τ)
    (h : ∀ t ∈ tasks, weight t ≤ bound) : total weight tasks ≤ tasks.length * bound := by
  induction tasks with
  | nil => simp
  | cons t rest ih =>
    have hhead := h t List.mem_cons_self
    have htail := ih fun u hu => h u (List.mem_cons_of_mem _ hu)
    rw [total_cons, List.length_cons, Nat.succ_mul]
    omega

/-- Two runs that come to an end, one after the other. -/
theorem run_append {b b' : Nat} {s s' s'' : σ} {xs ys : List τ}
    (hxs : run step b s xs = (s', [])) (hys : run step b' s' ys = (s'', [])) :
    run step (b + b') s (xs ++ ys) = (s'', []) := by
  -- By induction on the reserve of the first run; the second one starts when nothing is left of it.
  induction b generalizing s xs with
  | zero =>
    cases xs with
    | nil =>
      obtain rfl : s = s' := by simpa using hxs
      simpa using hys
    | cons t rest => simp [run] at hxs
  | succ n ih =>
    cases xs with
    | nil =>
      obtain rfl : s = s' := by simpa using hxs
      have hend : run step (n + 1 + b') s ys = run step b' s ys :=
        run_of_le (by omega) s ys (by rw [hys])
      rw [List.nil_append, hend, hys]
    | cons t rest =>
      rw [run_succ] at hxs
      rw [show n + 1 + b' = n + b' + 1 by omega, List.cons_append, run_succ, ← List.append_assoc]
      exact ih hxs

/-- A run of more steps goes on where one of fewer steps has stopped. -/
theorem run_add (b b' : Nat) (s : σ) (tasks : List τ) :
    run step (b + b') s tasks = run step b' (run step b s tasks).1 (run step b s tasks).2 := by
  induction b generalizing s tasks with
  | zero =>
    rw [Nat.zero_add]
    cases tasks <;> rfl
  | succ n ih =>
    cases tasks with
    | nil => simp
    | cons t rest =>
      rw [show n + 1 + b' = n + b' + 1 by omega, run_succ, run_succ, ih]

/-- While the first tasks of an agenda are done, the others wait. -/
theorem exists_run_append_eq {b : Nat} {s s' : σ} {xs : List τ} (h : run step b s xs = (s', []))
    (ys : List τ) : ∃ b' ≤ b, run step b' s (xs ++ ys) = (s', ys) := by
  induction b generalizing s xs with
  | zero =>
    cases xs with
    | nil => exact ⟨0, Nat.le_refl _, by cases ys <;> simpa [run] using h⟩
    | cons t rest => simp [run] at h
  | succ n ih =>
    cases xs with
    | nil => exact ⟨0, Nat.zero_le _, by cases ys <;> simpa [run] using h⟩
    | cons t rest =>
      rw [run_succ] at h
      obtain ⟨b', hle, hrun⟩ := ih h
      refine ⟨b' + 1, by omega, ?_⟩
      rw [List.cons_append, run_succ, ← List.append_assoc]
      exact hrun

/-! ## Nested runs -/

section Nested

variable {s s' s'' : σ} {xs ys tasks : List τ}

/-- Tasks are finished in nested order: each with everything that it leaves before the next. -/
inductive Finishes (step : σ → τ → σ × List τ) : σ → List τ → σ → Prop
  | nil {s : σ} : Finishes step s [] s
  | cons {s s' s'' : σ} {t : τ} {rest : List τ}
    (hleft : Finishes step (step s t).1 (step s t).2 s') (hrest : Finishes step s' rest s'') :
    Finishes step s (t :: rest) s''

theorem Finishes.append (hxs : Finishes step s xs s') (hys : Finishes step s' ys s'') :
    Finishes step s (xs ++ ys) s'' := by
  induction hxs with
  | nil => exact hys
  | cons hleft _ _ ih => exact .cons hleft (ih hys)

/-- Tasks that are finished in a row are finished in parts. -/
theorem Finishes.split (h : Finishes step s (xs ++ ys) s'') :
    ∃ s', Finishes step s xs s' ∧ Finishes step s' ys s'' := by
  induction xs generalizing s with
  | nil => exact ⟨s, .nil, h⟩
  | cons t rest ih =>
    cases h with
    | cons hleft hrest =>
      obtain ⟨s', hrest, hys⟩ := ih hrest
      exact ⟨s', .cons hleft hrest, hys⟩

theorem finishes_of_run {bound : Nat} (h : run step bound s tasks = (s', [])) :
    Finishes step s tasks s' := by
  induction bound generalizing s tasks with
  | zero =>
    cases tasks with
    | nil =>
      obtain rfl : s = s' := by simpa using h
      exact .nil
    | cons t rest => simp [run] at h
  | succ n ih =>
    cases tasks with
    | nil =>
      obtain rfl : s = s' := by simpa using h
      exact .nil
    | cons t rest =>
      obtain ⟨s₁, hleft, hrest⟩ := (ih (run_succ n s t rest ▸ h)).split
      exact .cons hleft hrest

theorem Finishes.exists_run (h : Finishes step s tasks s') :
    ∃ bound, run step bound s tasks = (s', []) := by
  induction h with
  | nil => exact ⟨0, rfl⟩
  | cons _ _ ih ih' =>
    obtain ⟨b, hleft⟩ := ih
    obtain ⟨b', hrest⟩ := ih'
    exact ⟨b + b' + 1, run_append hleft hrest⟩

/-- Tasks are finished in nested order if and only if a run of them leaves none over. -/
theorem finishes_iff : Finishes step s tasks s' ↔ ∃ bound, run step bound s tasks = (s', []) :=
  ⟨Finishes.exists_run, fun ⟨_, h⟩ => finishes_of_run h⟩

/-- The outcome of a nested run is determined. -/
theorem Finishes.unique (h : Finishes step s tasks s') (h' : Finishes step s tasks s'') :
    s' = s'' := by
  obtain ⟨b, hb⟩ := h.exists_run
  obtain ⟨b', hb'⟩ := h'.exists_run
  have hlong := run_of_le (Nat.le_add_right b b') s tasks (by rw [hb])
  have hlong' := run_of_le (Nat.le_add_left b' b) s tasks (by rw [hb'])
  rw [hb] at hlong
  rw [hb', hlong] at hlong'
  exact congrArg Prod.fst hlong'

end Nested

/-! ## Runs that end -/

/-- Some steps that begin with a task lead to another state and leave further tasks. -/
def Leads (step : σ → τ → σ × List τ) (n : Nat) (s : σ) (t : τ) (s' : σ) (more : List τ) : Prop :=
  ∀ bound rest, run step (n + bound) s (t :: rest) = run step bound s' (more ++ rest)

theorem leads_step (step : σ → τ → σ × List τ) (s : σ) (t : τ) :
    Leads step 1 s t (step s t).1 (step s t).2 := by
  intro bound rest
  rw [Nat.add_comm, run_succ]

theorem leads_of_step {s s' : σ} {t : τ} {more : List τ} (h : step s t = (s', more)) :
    Leads step 1 s t s' more := by
  have hleads := leads_step step s t
  rw [h] at hleads
  exact hleads

/-- Steps that leave a single task may be followed by those that begin with it. -/
theorem Leads.trans {n m : Nat} {s s' s'' : σ} {t u : τ} {more : List τ}
    (h : Leads step n s t s' [u]) (h' : Leads step m s' u s'' more) :
    Leads step (n + m) s t s'' more := by
  intro bound rest
  rw [Nat.add_assoc, h, List.singleton_append, h']

/-- A run ends within the weight of its agenda if the steps that a task takes and the tasks that
it leaves weigh no more than the task. A property that is handed on from task to task holds at the
end, where no task is left. -/
theorem exists_run_eq {P : σ → List τ → Prop} (weight : τ → Nat)
    (hstep : ∀ s t rest, P s (t :: rest) → ∃ n s' more, Leads step n s t s' more ∧ 0 < n ∧
      n + total weight more ≤ weight t ∧ P s' (more ++ rest)) :
    ∀ bound s tasks, P s tasks → total weight tasks ≤ bound →
      ∃ s', run step bound s tasks = (s', []) ∧ P s' [] := by
  intro bound
  -- Each step takes away at least one from the bound, and no more than its task weighs.
  induction bound using Nat.strongRecOn with
  | _ bound ih =>
    intro s tasks hP hle
    cases tasks with
    | nil => exact ⟨s, by simp, hP⟩
    | cons t rest =>
      obtain ⟨n, s', more, hleads, hpos, hweight, hnext⟩ := hstep s t rest hP
      rw [total_cons] at hle
      obtain ⟨left, rfl⟩ : ∃ left, bound = n + left := ⟨bound - n, by omega⟩
      have hle' : total weight (more ++ rest) ≤ left := by
        rw [total_append]
        omega
      rw [hleads]
      exact ih left (by omega) s' (more ++ rest) hnext hle'

end LayeredAccess.Agenda
