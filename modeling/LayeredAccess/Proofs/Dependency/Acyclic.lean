/-
  LayeredAccess.Proofs.Dependency.Acyclic

  Graphs without cycles, given by ranks: every dependency has a smaller rank
  than the node that lists it.

  If a walk finds no cycle, what the new node leads to holds its dependencies,
  is closed under dependencies, and does not hold the new node. Lifting
  everything else above it gives ranks for the graph with the new node
  (`Ranked.insert`).
-/
import LayeredAccess.Proofs.Dependency.Search

namespace LayeredAccess.DependencyGraph

open Relation

/-- The dependencies of a node, none if it has not been entered. -/
def below (g : DependencyGraph) (key : String) : List String := (g.dependencies? key).getD []

/-- Dependencies have smaller ranks under some ranking, so that no walk comes back. -/
def Ranked (g : DependencyGraph) : Prop :=
  ∃ rank : String → Nat, ∀ k, ∀ d ∈ g.below k, rank d < rank k

@[simp] theorem below_empty (k : String) : ({} : DependencyGraph).below k = [] := rfl

theorem below_insert (g : DependencyGraph) (key k : String) (ds : List String) :
    (g.insert key ds).below k = if key = k then ds else g.below k := by
  simp only [below, dependencies?, insert, KeyMap.find?_insert]
  split <;> rfl

theorem below_erase (g : DependencyGraph) (key k : String) :
    (g.erase key).below k = if key = k then [] else g.below k := by
  simp only [below, dependencies?, erase, KeyMap.find?_erase]
  split <;> rfl

theorem ranked_empty : ({} : DependencyGraph).Ranked := ⟨fun _ => 0, by simp⟩

/-- Taking a node out keeps the ranks. -/
theorem Ranked.erase {g : DependencyGraph} (h : g.Ranked) (key : String) :
    (g.erase key).Ranked := by
  obtain ⟨rank, hrank⟩ := h
  refine ⟨rank, fun k d hd => ?_⟩
  rw [below_erase] at hd
  split at hd
  · simp at hd
  · exact hrank k d hd

/-! ## Entering a node -/

/-- What a successful check says of the node alone. -/
theorem validate_of_check {g : DependencyGraph} {key : String} {ds : List String}
    (h : g.check key ds = .ok ()) : validate key ds = .ok () := by
  unfold check at h
  cases hv : validate key ds with
  | error e => simp [hv, bind, Except.bind] at h
  | ok u => rfl

theorem findCycle?_of_check {g : DependencyGraph} {key : String} {ds : List String}
    (h : g.check key ds = .ok ()) :
    findCycle? (KeyMap.erase g.edges key) [(key, ds)] = none := by
  have hv := validate_of_check h
  unfold check at h
  cases hc : findCycle? (KeyMap.erase g.edges key) [(key, ds)] with
  | none => rfl
  | some cycle => simp [hv, hc, bind, Except.bind, throw, throwThe, MonadExceptOf.throw] at h

/-- Before the walk of a check, all that counts as explored is what is not in the graph. -/
theorem below_of_explored {g : DependencyGraph} {key x : String} {ds : List String}
    (h : Explored (KeyMap.erase g.edges key) [(key, ds)] x) : (g.insert key ds).below x = [] := by
  have hne : key ≠ x := fun he => h.2 (by simp [he])
  have hnone : KeyMap.find? g.edges x = none := by
    simpa [KeyMap.find?_erase, hne] using h.1
  rw [below_insert, if_neg hne, below, dependencies?, hnone, Option.getD_none]

/-- The walk that a check makes begins at the new node, with everything else unexplored. -/
theorem walking_start (g : DependencyGraph) (key : String) (ds : List String) :
    Walking (g.insert key ds).below (KeyMap.erase g.edges key) [(key, ds)] := by
  refine ⟨fun x ds' hx => ?_, by simp, fun x hx => ?_, fun x hx d hd => ?_, ?_, trivial⟩
  · rw [KeyMap.find?_erase] at hx
    split at hx
    · simp at hx
    · next hne => rw [below_insert, if_neg hne, below, dependencies?, hx, Option.getD_some]
  · obtain rfl : x = key := by simpa using hx
    simp [KeyMap.find?_erase]
  · rw [below_of_explored hx] at hd
    simp at hd
  · intro d hd
    exact .inl (by simpa [below_insert] using hd)

/-- The walk that a check makes. -/
def Walk.start (g : DependencyGraph) (key : String) (ds : List String) : Walk :=
  ⟨KeyMap.erase g.edges key, [(key, ds)]⟩

theorem searching_start (g : DependencyGraph) (key : String) (ds : List String) :
    Searching (g.insert key ds).below key (Walk.start g key ds) := by
  refine ⟨walking_start g key ds, ⟨.singleton key, ?_⟩, ⟨fun _ => 0, fun x hx d hd => ?_⟩,
    ?_, ?_, ?_⟩
  · intro frame hframe
    obtain rfl : frame = (key, ds) := List.mem_singleton.1 hframe
    intro d hd
    rwa [below_insert, if_pos rfl]
  · rw [below_of_explored hx] at hd
    simp at hd
  · rw [Walk.start, KeyMap.find?_erase, if_pos rfl]
  · intro x hx
    exact (Option.some.inj hx).symm
  · intro x hx
    rw [List.mem_singleton.1 hx]

/-- A node that passes the check can be entered: ranks for the graph with it exist. -/
theorem Ranked.insert {g : DependencyGraph} (hg : g.Ranked) {key : String} {ds : List String}
    (h : g.check key ds = .ok ()) : (g.insert key ds).Ranked := by
  classical
  obtain ⟨rank, hrank⟩ := hg
  obtain ⟨top, htop⟩ := exists_rank_le rank ds
  let edges := (g.insert key ds).below
  -- What the new node leads to: everything else is lifted above it.
  let closed := TransGen (fun a b => b ∈ edges a) key
  have hkey : ¬ closed key :=
    (searching_start g key ds).acyclic (findCycle?_of_check h) .refl
  have hdeps : ∀ d ∈ ds, closed d := by
    intro d hd
    have hedge : d ∈ edges key := by simpa [edges, below_insert] using hd
    exact .single hedge
  have hclosed : ∀ x, closed x → ∀ d ∈ edges x, closed d := fun x hx d hd => hx.tail hd
  refine ⟨fun x => if closed x then rank x else top + 1 + rank x, fun k d hd => ?_⟩
  by_cases hk : key = k
  · subst hk
    have hd' : d ∈ ds := by simpa [below_insert] using hd
    have := htop d hd'
    simp only [hkey, hdeps d hd', if_true, if_false]
    omega
  · have hlt := hrank k d (by simpa [below_insert, hk] using hd)
    by_cases hck : closed k
    · simpa [hck, hclosed k hck d hd] using hlt
    · simp only [hck, if_false]
      split <;> omega

end LayeredAccess.DependencyGraph
