/-
  LayeredAccess.Proofs.Agenda.Moments

  A run of an agenda, step by step. `moments` lists the state and the task at
  the beginning of every step. Each of them is where a shorter run stops
  (`exists_run_of_mem_moments`), so an invariant of steps holds at all of them
  (`forall_mem_moments`); and the moments of a run that is cut in two are those
  of its parts (`moments_add`).
-/
import LayeredAccess.Proofs.Agenda

namespace LayeredAccess.Agenda

variable {σ τ : Type} {step : σ → τ → σ × List τ}

/-- The state and the task at the beginning of every step of a run. -/
def moments (step : σ → τ → σ × List τ) : Nat → σ → List τ → List (σ × τ)
  | _, _, [] => []
  | 0, _, _ :: _ => []
  | bound + 1, s, t :: rest => (s, t) :: moments step bound (step s t).1 ((step s t).2 ++ rest)

@[simp] theorem moments_nil (bound : Nat) (s : σ) : moments step bound s [] = [] := by
  cases bound <;> rfl

theorem moments_succ (bound : Nat) (s : σ) (t : τ) (rest : List τ) :
    moments step (bound + 1) s (t :: rest) =
      (s, t) :: moments step bound (step s t).1 ((step s t).2 ++ rest) := rfl

/-- What every step keeps, of the state and the agenda together, a run keeps. -/
theorem run_preserves {P : σ → List τ → Prop}
    (hstep : ∀ s t rest, P s (t :: rest) → P (step s t).1 ((step s t).2 ++ rest)) (bound : Nat) :
    ∀ s tasks, P s tasks → P (run step bound s tasks).1 (run step bound s tasks).2 := by
  induction bound with
  | zero =>
    intro s tasks h
    cases tasks <;> exact h
  | succ n ih =>
    intro s tasks h
    cases tasks with
    | nil => exact h
    | cons t rest => exact ih _ _ (hstep s t rest h)

/-- At the beginning of every step a shorter run has stopped. -/
theorem exists_run_of_mem_moments {bound : Nat} {s : σ} {tasks : List τ} {m : σ × τ}
    (h : m ∈ moments step bound s tasks) :
    ∃ n rest, n < bound ∧ run step n s tasks = (m.1, m.2 :: rest) := by
  induction bound generalizing s tasks with
  | zero => cases tasks <;> simp [moments] at h
  | succ n ih =>
    cases tasks with
    | nil => simp at h
    | cons t rest =>
      rcases List.mem_cons.1 (moments_succ n s t rest ▸ h) with rfl | h
      · exact ⟨0, rest, Nat.succ_pos n, rfl⟩
      · obtain ⟨i, rest', hi, hrun⟩ := ih h
        exact ⟨i + 1, rest', Nat.succ_lt_succ hi, hrun⟩

/-- What every step keeps holds at every moment of a run. -/
theorem forall_mem_moments {P : σ → List τ → Prop}
    (hstep : ∀ s t rest, P s (t :: rest) → P (step s t).1 ((step s t).2 ++ rest)) {bound : Nat}
    {s : σ} {tasks : List τ} (h : P s tasks) :
    ∀ m ∈ moments step bound s tasks, ∃ rest, P m.1 (m.2 :: rest) := by
  intro m hm
  obtain ⟨n, rest, -, hrun⟩ := exists_run_of_mem_moments hm
  have hkept := run_preserves hstep n s tasks h
  rw [hrun] at hkept
  exact ⟨rest, hkept⟩

/-- What a step keeps if something is the case at its moment holds at every moment of a run at all
of whose moments that is the case. -/
theorem forall_mem_moments_of {P : σ → List τ → Prop} {C : σ × τ → Prop}
    (hstep : ∀ s t rest, C (s, t) → P s (t :: rest) → P (step s t).1 ((step s t).2 ++ rest))
    {bound : Nat} {s : σ} {tasks : List τ} (h : P s tasks)
    (hcase : ∀ m ∈ moments step bound s tasks, C m) :
    ∀ m ∈ moments step bound s tasks, ∃ rest, P m.1 (m.2 :: rest) := by
  induction bound generalizing s tasks with
  | zero => cases tasks <;> simp [moments]
  | succ n ih =>
    cases tasks with
    | nil => simp
    | cons t rest =>
      rw [moments_succ, List.forall_mem_cons] at hcase ⊢
      exact ⟨⟨rest, h⟩, ih (hstep s t rest hcase.1 h) hcase.2⟩

/-- A longer run has the moments of a shorter one, and those of what is left then. -/
theorem moments_add (b b' : Nat) (s : σ) (tasks : List τ) :
    moments step (b + b') s tasks = moments step b s tasks ++
      moments step b' (run step b s tasks).1 (run step b s tasks).2 := by
  induction b generalizing s tasks with
  | zero =>
    rw [Nat.zero_add]
    cases tasks <;> rfl
  | succ n ih =>
    cases tasks with
    | nil => simp
    | cons t rest =>
      rw [show n + 1 + b' = n + b' + 1 by omega, moments_succ, moments_succ, run_succ, ih,
        List.cons_append]

/-- While the first tasks of an agenda are done, the moments are those of these tasks alone. -/
theorem exists_moments_append_eq {b : Nat} {s s' : σ} {xs : List τ}
    (h : run step b s xs = (s', [])) (ys : List τ) :
    ∃ b' ≤ b, run step b' s (xs ++ ys) = (s', ys) ∧
      moments step b' s (xs ++ ys) = moments step b s xs := by
  -- By induction on the reserve; what stands behind the first tasks is never looked at.
  induction b generalizing s xs with
  | zero =>
    cases xs with
    | nil => exact ⟨0, Nat.le_refl _, by cases ys <;> simpa [run] using h, by cases ys <;> rfl⟩
    | cons t rest => simp [run] at h
  | succ n ih =>
    cases xs with
    | nil =>
      refine ⟨0, Nat.zero_le _, by cases ys <;> simpa [run] using h, ?_⟩
      rw [moments_nil]
      cases ys <;> rfl
    | cons t rest =>
      rw [run_succ] at h
      obtain ⟨b', hle, hrun, hmoments⟩ := ih h
      refine ⟨b' + 1, by omega, ?_, ?_⟩
      · rw [List.cons_append, run_succ, ← List.append_assoc]
        exact hrun
      · rw [List.cons_append, moments_succ, moments_succ, ← List.append_assoc, hmoments]

/-- What the steps of a run keep, as they come, holds at all moments and at the end. -/
theorem forall_moments_of {I : σ → Prop} {bound : Nat} {s : σ} {tasks : List τ} (h : I s)
    (hstep : ∀ m ∈ moments step bound s tasks, I m.1 → I (step m.1 m.2).1) :
    (∀ m ∈ moments step bound s tasks, I m.1) ∧ I (run step bound s tasks).1 := by
  induction bound generalizing s tasks with
  | zero => cases tasks <;> exact ⟨by simp [moments], h⟩
  | succ n ih =>
    cases tasks with
    | nil => exact ⟨by simp, h⟩
    | cons t rest =>
      rw [moments_succ, List.forall_mem_cons] at hstep
      rw [moments_succ, run_succ, List.forall_mem_cons]
      obtain ⟨hfirst, hlater⟩ := hstep
      obtain ⟨hmoments, hend⟩ := ih (hfirst h) hlater
      exact ⟨⟨h, hmoments⟩, hend⟩

/-- The states after the steps of a run. -/
def path (step : σ → τ → σ × List τ) (bound : Nat) (s : σ) (tasks : List τ) : List σ :=
  (moments step bound s tasks).map fun m => (step m.1 m.2).1

@[simp] theorem path_nil (bound : Nat) (s : σ) : path step bound s [] = [] := by
  rw [path, moments_nil, List.map_nil]

theorem path_succ (bound : Nat) (s : σ) (t : τ) (rest : List τ) :
    path step (bound + 1) s (t :: rest) =
      (step s t).1 :: path step bound (step s t).1 ((step s t).2 ++ rest) := rfl

/-- The last state after a step is that in which the run stops. -/
theorem getLastD_path (bound : Nat) (s : σ) (tasks : List τ) :
    (path step bound s tasks).getLastD s = (run step bound s tasks).1 := by
  induction bound generalizing s tasks with
  | zero => cases tasks <;> rfl
  | succ n ih =>
    cases tasks with
    | nil => simp
    | cons t rest => rw [path_succ, List.getLastD_cons, ih, run_succ]

/-- A record to which every step adds what it has done tells of all steps of a run. -/
theorem run_recorded {ε : Type} {P : σ → List ε → Prop} (entry : σ × τ → Option ε)
    (hstep : ∀ s t es, P s es → P (step s t).1 (es ++ (entry (s, t)).toList)) (bound : Nat) :
    ∀ s tasks es, P s es →
      P (run step bound s tasks).1 (es ++ (moments step bound s tasks).filterMap entry) := by
  -- By induction on the reserve, for all records, since each step makes the record longer.
  induction bound with
  | zero =>
    intro s tasks es h
    cases tasks <;> simpa [moments, run] using h
  | succ n ih =>
    intro s tasks es h
    cases tasks with
    | nil => simpa using h
    | cons t rest =>
      have hrest := ih _ ((step s t).2 ++ rest) _ (hstep s t es h)
      rw [run_succ, moments_succ]
      cases hentry : entry (s, t) with
      | none =>
        rw [hentry, Option.toList_none, List.append_nil] at hrest
        rw [List.filterMap_cons_none hentry]
        exact hrest
      | some e =>
        rw [hentry, Option.toList_some, List.append_assoc, List.singleton_append] at hrest
        rw [List.filterMap_cons_some hentry]
        exact hrest

/-- A count that goes up with every task of some sort, and with no other, counts these tasks. -/
theorem count_of_moments {κ : Type} (count : σ → Nat) (sort : τ → Option κ) {bound : Nat} {s : σ}
    {tasks : List τ} (hstep : ∀ m ∈ moments step bound s tasks,
      count (step m.1 m.2).1 = count m.1 + (sort m.2).toList.length) :
    count (run step bound s tasks).1 =
      count s + ((moments step bound s tasks).filterMap fun m => sort m.2).length := by
  -- By induction on the reserve; each task counts for one if it is of the sort, and else for none.
  induction bound generalizing s tasks with
  | zero => cases tasks <;> simp [moments, run]
  | succ n ih =>
    cases tasks with
    | nil => simp
    | cons t rest =>
      rw [moments_succ, List.forall_mem_cons] at hstep
      obtain ⟨hfirst, hlater⟩ := hstep
      have hrest := ih hlater
      rw [moments_succ, run_succ, hrest, hfirst]
      cases hsort : sort t with
      | none => simp [hsort]
      | some k =>
        simp only [hsort, List.filterMap_cons, Option.toList_some, List.length_cons,
          List.length_nil]
        omega

/-! ## Tables that are filled -/

variable {κ β : Type} {P : σ → List τ → Prop} {table : σ → κ → Option β} {fills : τ → Option κ}

/-- Tasks of some sort fill an empty place of a table, and other tasks leave the table alone. -/
structure Filling (step : σ → τ → σ × List τ) (P : σ → List τ → Prop) (table : σ → κ → Option β)
    (fills : τ → Option κ) : Prop where
  next : ∀ s t rest, P s (t :: rest) → P (step s t).1 ((step s t).2 ++ rest)
  empty : ∀ s t rest k, P s (t :: rest) → fills t = some k → table s k = none
  filled : ∀ s t rest k, P s (t :: rest) → fills t = some k → (table (step s t).1 k).isSome = true
  other : ∀ s t rest k, P s (t :: rest) → fills t ≠ some k → table (step s t).1 k = table s k

/-- What is in the table stays there. -/
theorem Filling.kept (h : Filling step P table fills) (bound : Nat) {s : σ} {tasks : List τ}
    (hP : P s tasks) {k : κ} {x : β} (hx : table s k = some x) :
    table (run step bound s tasks).1 k = some x := by
  induction bound generalizing s tasks with
  | zero => cases tasks <;> exact hx
  | succ n ih =>
    cases tasks with
    | nil => exact hx
    | cons t rest =>
      refine ih (h.next s t rest hP) ?_
      -- The place is taken, so it is not the one that is filled.
      rw [h.other s t rest k hP fun hk => ?_, hx]
      rw [h.empty s t rest k hP hk] at hx
      simp at hx

/-- The places that are filled in a run are those that were empty before and are not afterwards,
and each is filled once. -/
theorem Filling.filled_spec (h : Filling step P table fills) (bound : Nat) {s : σ} {tasks : List τ}
    (hP : P s tasks) :
    let places := (moments step bound s tasks).filterMap fun m => fills m.2
    places.Nodup ∧ ∀ k, k ∈ places ↔
      table s k = none ∧ (table (run step bound s tasks).1 k).isSome = true := by
  induction bound generalizing s tasks with
  | zero =>
    cases tasks with
    | nil => simp
    | cons t rest => simp [moments, run]
  | succ n ih =>
    cases tasks with
    | nil => simp
    | cons t rest =>
      have hnext := h.next s t rest hP
      obtain ⟨hnodup, hmem⟩ := ih hnext
      rw [moments_succ, run_succ]
      cases hk : fills t with
      | none =>
        have hsame : table (step s t).1 = table s :=
          funext fun j => h.other s t rest j hP (by simp [hk])
        rw [List.filterMap_cons_none (by exact hk)]
        rw [hsame] at hmem
        exact ⟨hnodup, hmem⟩
      | some k =>
        have hempty := h.empty s t rest k hP hk
        -- From here on the place is taken, so it is not filled again.
        obtain ⟨x, hx⟩ := Option.isSome_iff_exists.1 (h.filled s t rest k hP hk)
        have hother : ∀ j, j ≠ k → table (step s t).1 j = table s j :=
          fun j hj => h.other s t rest j hP fun he => hj (Option.some.inj (he.symm.trans hk))
        have hend := h.kept n hnext hx
        rw [List.filterMap_cons_some (by exact hk)]
        refine ⟨List.nodup_cons.2 ⟨fun hin => ?_, hnodup⟩, fun j => ?_⟩
        · rw [hmem, hx] at hin
          simp at hin
        · rw [List.mem_cons, hmem]
          by_cases hj : j = k
          · subst hj
            simp [hempty, hend]
          · simp [hj, hother j hj]

/-- What is in the table at some moment is there in the end. -/
theorem Filling.kept_of_mem_moments (h : Filling step P table fills) {bound : Nat} {s : σ}
    {tasks : List τ} (hP : P s tasks) {m : σ × τ} (hm : m ∈ moments step bound s tasks) {k : κ}
    {x : β} (hx : table m.1 k = some x) : table (run step bound s tasks).1 k = some x := by
  obtain ⟨n, rest, hn, hrun⟩ := exists_run_of_mem_moments hm
  obtain ⟨left, rfl⟩ := Nat.exists_eq_add_of_lt hn
  have hnow := run_preserves h.next n s tasks hP
  rw [hrun] at hnow
  rw [Nat.add_assoc, run_add, hrun]
  exact h.kept (left + 1) hnow hx

end LayeredAccess.Agenda
