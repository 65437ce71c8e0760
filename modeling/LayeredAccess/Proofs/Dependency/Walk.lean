/-
  LayeredAccess.Proofs.Dependency.Walk

  The walk that looks for a cycle, step by step, in any graph.

  `Step` lists what one step of a walk can do, and `Ends` how a walk comes to
  its end. `findCycle?` takes steps until the walk ends (`exists_run`), and
  since every step uses up some of what there is to do (`Step.effort_lt`), a
  walk has no more steps than there are nodes and dependencies to look at
  (`Run.le_effort`). What every step keeps holds when the walk ends
  (`exists_ended`).
-/
import LayeredAccess.Dependency.Graph

namespace LayeredAccess.DependencyGraph

/-- A walk under way: the nodes that have not been entered, and the current path, last node
first. -/
structure Walk where
  unexplored : KeyMap String (List String)
  path : List Frame

namespace Walk

/-! ## Steps -/

/-- What one step of a walk can do. -/
inductive Step : Walk → Walk → Prop
  /-- A node is left when all its dependencies have been looked at. -/
  | leave {unexplored : KeyMap String (List String)} {node : String} {rest : List Frame} :
      Step ⟨unexplored, (node, []) :: rest⟩ ⟨unexplored, rest⟩
  /-- A dependency that has not been entered before is entered. -/
  | enter {unexplored : KeyMap String (List String)} {node d : String} {ds below : List String}
      {rest : List Frame} : d ∉ node :: rest.map (·.1) → KeyMap.find? unexplored d = some below →
      Step ⟨unexplored, (node, d :: ds) :: rest⟩
        ⟨KeyMap.erase unexplored d, (d, below) :: (node, ds) :: rest⟩
  /-- A dependency that has been left before, or is not in the graph, is passed over. -/
  | pass {unexplored : KeyMap String (List String)} {node d : String} {ds : List String}
      {rest : List Frame} : d ∉ node :: rest.map (·.1) → KeyMap.find? unexplored d = none →
      Step ⟨unexplored, (node, d :: ds) :: rest⟩ ⟨unexplored, (node, ds) :: rest⟩

/-- How a walk comes to its end, and with which result. -/
inductive Ends : Walk → Option (List String) → Prop
  /-- Every node has been left. -/
  | through {unexplored : KeyMap String (List String)} : Ends ⟨unexplored, []⟩ none
  /-- A dependency lies on the path: from there on the path is a cycle. -/
  | closed {unexplored : KeyMap String (List String)} {node d : String} {ds : List String}
      {rest : List Frame} : d ∈ node :: rest.map (·.1) →
      Ends ⟨unexplored, (node, d :: ds) :: rest⟩
        (some (d :: ((node :: rest.map (·.1)).takeWhile (· ≠ d)).reverse ++ [d]))

/-- A number of steps that lead from one walk to another. -/
inductive Run : Nat → Walk → Walk → Prop
  | refl {w : Walk} : Run 0 w w
  | step {n : Nat} {w w' w'' : Walk} : Step w w' → Run n w' w'' → Run (n + 1) w w''

/-- What every step keeps, a run keeps. -/
theorem Run.preserves {P : Walk → Prop} (hstep : ∀ {w w'}, Step w w' → P w → P w') {n : Nat}
    {w w' : Walk} (h : Run n w w') (hw : P w) : P w' := by
  induction h with
  | refl => exact hw
  | step hs _ ih => exact ih (hstep hs hw)

/-! ## How long a walk can be -/

/-- What there is to do at most: to enter the nodes that are unexplored, to look at their
dependencies and at those that remain on the path, and to leave every node. -/
def effort (w : Walk) : Nat := extent w.unexplored + extent w.path

/-- Every step leaves less to do. -/
theorem Step.effort_lt {w w' : Walk} (h : Step w w') : w'.effort < w.effort := by
  cases h with
  | leave =>
    simp only [effort, extent_cons, List.length_nil]
    omega
  | enter _ hbelow =>
    have hlt := extent_erase_lt hbelow
    simp only [effort, extent_cons, List.length_cons]
    omega
  | pass =>
    simp only [effort, extent_cons, List.length_cons]
    omega

/-- No run has more steps than there is to do. -/
theorem Run.le_effort {n : Nat} {w w' : Walk} (h : Run n w w') : n ≤ w.effort := by
  induction h with
  | refl => exact Nat.zero_le _
  | step hs _ ih =>
    have hlt := hs.effort_lt
    omega

/-! ## The search as a run -/

/-- Of the search: a walk that has not ended goes on by a step. -/
theorem step_or_ends (w : Walk) :
    (∃ w', Step w w' ∧ findCycle? w.unexplored w.path = findCycle? w'.unexplored w'.path) ∨
      Ends w (findCycle? w.unexplored w.path) := by
  obtain ⟨unexplored, path⟩ := w
  -- One case for each shape of the path, as the search tells them apart.
  match path with
  | [] =>
    right
    rw [findCycle?]
    exact .through
  | (node, []) :: rest =>
    left
    refine ⟨_, .leave, ?_⟩
    rw [findCycle?]
  | (node, d :: ds) :: rest =>
    by_cases hmem : d ∈ node :: rest.map (·.1)
    · right
      rw [findCycle?, if_pos hmem]
      exact .closed hmem
    · left
      cases hbelow : KeyMap.find? unexplored d with
      | some below =>
        refine ⟨_, .enter hmem hbelow, ?_⟩
        rw [findCycle?, if_neg hmem]
        split
        · next below' hbelow' => rw [Option.some.inj (hbelow.symm.trans hbelow')]
        · next hnone => exact absurd (hbelow.symm.trans hnone) (Option.some_ne_none below)
      | none =>
        refine ⟨_, .pass hmem hbelow, ?_⟩
        rw [findCycle?, if_neg hmem]
        split
        · next below hbelow' => exact absurd (hbelow'.symm.trans hbelow) (Option.some_ne_none below)
        · rfl

/-- The search takes steps until its walk ends. -/
theorem exists_run (w : Walk) :
    ∃ n w', Run n w w' ∧ Ends w' (findCycle? w.unexplored w.path) := by
  rcases step_or_ends w with ⟨w', hstep, hnext⟩ | hends
  · -- The search goes on from a walk that has less to do.
    have hlt := hstep.effort_lt
    obtain ⟨n, w'', hrun, hends⟩ := exists_run w'
    rw [hnext]
    exact ⟨n + 1, w'', .step hstep hrun, hends⟩
  · exact ⟨0, w, .refl, hends⟩
termination_by w.effort

/-- What every step keeps still holds where the walk of the search ends. -/
theorem exists_ended {P : Walk → Prop} (hstep : ∀ {w w'}, Step w w' → P w → P w') {w : Walk}
    (h : P w) : ∃ w', P w' ∧ Ends w' (findCycle? w.unexplored w.path) := by
  obtain ⟨n, w', hrun, hends⟩ := exists_run w
  exact ⟨w', hrun.preserves hstep h, hends⟩

end Walk

end LayeredAccess.DependencyGraph
