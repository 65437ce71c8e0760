/-
  LayeredAccess.Proofs.Dependency.Decision

  What the check of a node decides in any graph. The registry keeps its graph
  free of cycles, and there a new cycle passes the new node
  (`LayeredAccess.Proofs.Dependency.Fault`). Here nothing is asked of the graph:
  it may have cycles already, and list nodes that it does not hold.

  The check comes to its end (`run_start_le`, `exists_check_run`), passes a node
  exactly if there is nothing to be said against it alone and it leads to no
  cycle (`check_eq_ok_iff_acyclic`), and the cycle that it reports is one that
  the node leads to (`exists_cycle_of_check`). `decides_check` has it all.
-/
import LayeredAccess.Proofs.Dependency.Fault

namespace LayeredAccess.DependencyGraph

open Relation

/-- Does a node lead to a cycle, once it has the given dependencies? -/
def LeadsToCycle (g : DependencyGraph) (key : String) (ds : List String) : Prop :=
  ∃ c, ReflTransGen (g.insert key ds).DependsOn key c ∧ TransGen (g.insert key ds).DependsOn c c

/-- What the check says of a node when its walk has ended. -/
def verdict : Option (List String) → Except GraphError Unit
  | some cycle => .error (.circular cycle)
  | none => .ok ()

variable (g : DependencyGraph) (key : String) (ds : List String)

/-! ## The walk of a check -/

/-- The check of the node alone, and then what its walk ends with. -/
theorem check_eq_verdict : g.check key ds =
    (validate key ds).bind fun _ =>
      verdict (findCycle? (KeyMap.erase g.edges key) [(key, ds)]) := by
  rw [check_eq]
  cases validate key ds with
  | error e => rfl
  | ok u =>
    cases findCycle? (KeyMap.erase g.edges key) [(key, ds)] with
    | none => rfl
    | some cycle => rfl

variable {g key ds}

/-- The walk of a check enters no node twice and looks at no dependency twice. -/
theorem run_start_le {n : Nat} {w : Walk} (h : Walk.Run n (Walk.start g key ds) w) :
    n ≤ Walk.extent g.edges + ds.length + 1 := by
  have hle := h.le_effort
  have herase := Walk.extent_erase_le g.edges key
  simp only [Walk.effort, Walk.start, Walk.extent_cons, Walk.extent_nil] at hle
  omega

variable (g key ds)

/-- The check takes the steps of a walk that ends, and says what it has ended with. -/
theorem exists_check_run : ∃ n w found, Walk.Run n (Walk.start g key ds) w ∧ w.Ends found ∧
    g.check key ds = (validate key ds).bind fun _ => verdict found := by
  obtain ⟨n, w, hrun, hends⟩ := Walk.exists_run (Walk.start g key ds)
  exact ⟨n, w, _, hrun, hends, check_eq_verdict g key ds⟩

/-! ## What is passed and what is refused -/

/-- A node passes exactly if it has a key, lists neither itself nor a dependency twice, and leads
to no cycle. -/
theorem check_eq_ok_iff_acyclic : g.check key ds = .ok () ↔
    key ≠ "" ∧ key ∉ ds ∧ ds.Nodup ∧ ¬ g.LeadsToCycle key ds := by
  constructor
  · intro h
    obtain ⟨hne, hkey, hnodup⟩ := (validate_eq_ok_iff key ds).1 (validate_of_check h)
    refine ⟨hne, hkey, hnodup, ?_⟩
    rintro ⟨c, hreach, hcycle⟩
    exact (searching_start g key ds).acyclic (findCycle?_of_check h) hreach hcycle
  · rintro ⟨hne, hkey, hnodup, hacyclic⟩
    have hvalid := (validate_eq_ok_iff key ds).2 ⟨hne, hkey, hnodup⟩
    rw [check_eq_verdict, hvalid]
    cases hc : findCycle? (KeyMap.erase g.edges key) [(key, ds)] with
    | none => rfl
    | some cycle =>
      -- A walk that is reported would be a cycle.
      obtain ⟨c, middle, rfl, -, -, hchain, hreach⟩ :=
        (searching_start g key ds).exists_cycle hc
      exact absurd ⟨c, hreach, transGen_of_isChain hchain⟩ hacyclic

variable {g key ds}

/-- A node that is not refused for itself alone is refused for a cycle that it leads to. -/
theorem exists_cycle_of_check {e : GraphError} (hvalid : validate key ds = .ok ())
    (h : g.check key ds = .error e) :
    ∃ c middle, e = .circular (c :: middle ++ [c]) ∧ (c :: middle).Nodup ∧
      (c :: middle ++ [c]).IsChain (g.insert key ds).DependsOn ∧
      ReflTransGen (g.insert key ds).DependsOn key c := by
  rw [check_eq_verdict, hvalid] at h
  cases hc : findCycle? (KeyMap.erase g.edges key) [(key, ds)] with
  | none =>
    rw [hc] at h
    cases h
  | some cycle =>
    obtain ⟨c, middle, rfl, hnodup, -, hchain, hreach⟩ :=
      (searching_start g key ds).exists_cycle hc
    rw [hc] at h
    cases h
    exact ⟨c, middle, rfl, hnodup, hchain, hreach⟩

/-! ## The decision -/

/-- What the check of a node with some dependencies decides. -/
structure Decides (g : DependencyGraph) (key : String) (ds : List String) : Prop where
  /-- No walk of the check has more steps than there are nodes and dependencies. -/
  bounded : ∀ n w, Walk.Run n (Walk.start g key ds) w →
    n ≤ Walk.extent g.edges + ds.length + 1
  /-- The walk ends, and what it ends with is what the check says. -/
  ends : ∃ n w found, Walk.Run n (Walk.start g key ds) w ∧ w.Ends found ∧
    g.check key ds = (validate key ds).bind fun _ => verdict found
  /-- A node passes exactly if it has a key, lists neither itself nor a dependency twice, and
  leads to no cycle. -/
  passes_iff : g.check key ds = .ok () ↔
    key ≠ "" ∧ key ∉ ds ∧ ds.Nodup ∧ ¬ g.LeadsToCycle key ds
  /-- What is refused for more than the node alone is refused for a cycle: the names that are
  reported are those of different nodes, then the first one again; each lists the next one, and
  the node leads to the first one. -/
  cycle : validate key ds = .ok () → ∀ e, g.check key ds = .error e →
    ∃ c middle, e = .circular (c :: middle ++ [c]) ∧ (c :: middle).Nodup ∧
      (c :: middle ++ [c]).IsChain (g.insert key ds).DependsOn ∧
      ReflTransGen (g.insert key ds).DependsOn key c

/-- The check decides of any node and any graph whether the node leads to a cycle. -/
theorem decides_check (g : DependencyGraph) (key : String) (ds : List String) :
    g.Decides key ds where
  bounded _ _ h := run_start_le h
  ends := exists_check_run g key ds
  passes_iff := check_eq_ok_iff_acyclic g key ds
  cycle hvalid _ h := exists_cycle_of_check hvalid h

/-- A cycle that the new node is not on. -/
example : DependencyGraph.check ⟨[("a", ["b"]), ("b", ["c"]), ("c", ["b"])]⟩ "new" ["a"] =
    .error (.circular ["b", "c", "b"]) := by
  decide +kernel

end LayeredAccess.DependencyGraph
