/-
  LayeredAccess.Proofs.Dependency.Fault

  What the check of a node finds fault with. The check is exact: it refuses a
  node exactly if there is a fault in the list of its dependencies, and the
  error that it gives tells of a fault (`fault_of_check`, `check_eq_ok_iff`).

  A walk that the check reports really is one, and since the graph had no cycle
  before, it begins and ends at the new node (`closedWalk_of_findCycle?`). If
  none is reported, there is none (`not_reaches_of_findCycle?`).
-/
import LayeredAccess.Proofs.Dependency.Acyclic

namespace LayeredAccess.DependencyGraph

open Relation

/-- Does one node list another as a dependency? -/
def DependsOn (g : DependencyGraph) (a b : String) : Prop := b ∈ g.below a

/-! ## Graphs without cycles -/

/-- Where dependencies have smaller ranks, no walk comes back. -/
theorem Ranked.acyclic {g : DependencyGraph} (h : g.Ranked) (k : String) :
    ¬ TransGen g.DependsOn k k := by
  obtain ⟨rank, hrank⟩ := h
  have hlt : ∀ {a b}, TransGen g.DependsOn a b → rank b < rank a := by
    intro a b hab
    induction hab with
    | single hd => exact hrank _ _ hd
    | tail _ hd ih => exact Nat.lt_trans (hrank _ _ hd) ih
  exact fun hk => Nat.lt_irrefl _ (hlt hk)

variable {g : DependencyGraph} {key : String} {ds : List String}

theorem dependsOn_insert (a b : String) :
    (g.insert key ds).DependsOn a b ↔ if a = key then b ∈ ds else g.DependsOn a b := by
  rw [DependsOn, below_insert]
  by_cases ha : a = key
  · simp [ha]
  · simp only [ha, Ne.symm ha, if_false]
    rfl

/-- What the new node lists does not matter to walks that end at it. -/
theorem reaches_insert_iff (a : String) :
    ReflTransGen (g.insert key ds).DependsOn a key ↔ ReflTransGen g.DependsOn a key := by
  constructor <;> intro h
  all_goals
    induction h using ReflTransGen.head_induction_on with
    | refl => exact .refl
    | @head a b hab _ ih =>
      by_cases ha : a = key
      · rw [ha]
      · refine .head ?_ ih
        simpa [dependsOn_insert, ha] using hab

/-- A cycle through the new node is there if one of its dependencies leads back. -/
theorem cycle_iff_reaches : TransGen (g.insert key ds).DependsOn key key ↔
    ∃ d ∈ ds, ReflTransGen g.DependsOn d key := by
  rw [TransGen.head'_iff]
  simp only [dependsOn_insert, if_true, reaches_insert_iff]

/-- A graph without cycles gets one only through the new node. -/
theorem exists_cycle_iff (hg : g.Ranked) : (∃ x, TransGen (g.insert key ds).DependsOn x x) ↔
    ∃ d ∈ ds, ReflTransGen g.DependsOn d key := by
  refine ⟨fun ⟨x, hx⟩ => ?_, fun h => ⟨key, cycle_iff_reaches.2 h⟩⟩
  -- A walk passes the new node, or is one of the graph before.
  have hpasses : ∀ {a b}, TransGen (g.insert key ds).DependsOn a b → TransGen g.DependsOn a b ∨
      ReflTransGen (g.insert key ds).DependsOn a key ∧
        TransGen (g.insert key ds).DependsOn key b := by
    intro a b hab
    induction hab with
    | single hd =>
      by_cases ha : a = key
      · subst ha
        exact .inr ⟨.refl, .single hd⟩
      · exact .inl (.single (by simpa [dependsOn_insert, ha] using hd))
    | @tail b c hab hd ih =>
      by_cases hb : b = key
      · subst hb
        exact .inr ⟨hab.to_reflTransGen, .single hd⟩
      · rcases ih with ih | ⟨hto, hfrom⟩
        · exact .inl (.tail ih (by simpa [dependsOn_insert, hb] using hd))
        · exact .inr ⟨hto, .tail hfrom hd⟩
  rcases hpasses hx with h | ⟨hto, hfrom⟩
  · exact absurd h (hg.acyclic x)
  · exact cycle_iff_reaches.1 (hfrom.trans_left hto)

/-! ## The node alone -/

theorem badDependency?_eq_none_iff (key : String) (seen ds : List String) :
    badDependency? key seen ds = none ↔ key ∉ ds ∧ ds.Nodup ∧ ∀ d ∈ ds, d ∉ seen := by
  induction ds generalizing seen with
  | nil => simp [badDependency?]
  | cons d rest ih =>
    rw [badDependency?]
    split
    · next hd => simp [hd]
    · next hd =>
      split
      · next hseen => simp [hseen]
      · next hseen =>
        simp only [ih, List.mem_cons, not_or, List.nodup_cons, forall_eq_or_imp]
        constructor
        · rintro ⟨hkey, hnodup, hfresh⟩
          exact ⟨⟨Ne.symm hd, hkey⟩, ⟨fun h => (hfresh d h).1 rfl, hnodup⟩, hseen,
            fun e he => (hfresh e he).2⟩
        · rintro ⟨⟨-, hkey⟩, ⟨hd', hnodup⟩, -, hfresh⟩
          exact ⟨hkey, hnodup, fun e he => ⟨fun heq => hd' (heq ▸ he), hfresh e he⟩⟩

/-- The first bad dependency, with the good ones ahead of it. -/
theorem exists_of_badDependency? {key : String} {seen ds : List String} {e : GraphError}
    (h : badDependency? key seen ds = some e) : ∃ before d after, ds = before ++ d :: after ∧
      key ∉ before ∧ before.Nodup ∧ (∀ b ∈ before, b ∉ seen) ∧
      ((d = key ∧ e = .circular [key, key]) ∨
        (d ≠ key ∧ (d ∈ before ∨ d ∈ seen) ∧ e = .duplicate key d)) := by
  -- By induction on the dependencies, for all those that have been seen before them.
  induction ds generalizing seen with
  | nil => simp [badDependency?] at h
  | cons d rest ih =>
    rw [badDependency?] at h
    split at h
    -- The node itself.
    · next hd =>
      exact ⟨[], d, rest, rfl, by simp, by simp, by simp, .inl ⟨hd, by simpa [eq_comm] using h⟩⟩
    · next hd =>
      split at h
      -- One that has been seen.
      · next hseen =>
        exact ⟨[], d, rest, rfl, by simp, by simp, by simp,
          .inr ⟨hd, .inr hseen, by simpa [eq_comm] using h⟩⟩
      -- A good one: the first bad one is among the rest.
      · next hseen =>
        obtain ⟨before, b, after, rfl, hkey, hnodup, hfresh, hbad⟩ := ih h
        refine ⟨d :: before, b, after, rfl, ?_, ?_, ?_, hbad.imp id ?_⟩
        · simp [Ne.symm hd, hkey]
        · exact List.nodup_cons.2 ⟨fun hmem => hfresh d hmem List.mem_cons_self, hnodup⟩
        · intro x hx
          rcases List.mem_cons.1 hx with rfl | hx
          · exact hseen
          · exact fun hs => hfresh x hx (List.mem_cons_of_mem _ hs)
        · rintro ⟨hb, hmem, he⟩
          refine ⟨hb, ?_, he⟩
          rcases hmem with hmem | hmem
          · exact .inl (List.mem_cons_of_mem _ hmem)
          · rcases List.mem_cons.1 hmem with rfl | hmem
            · exact .inl List.mem_cons_self
            · exact .inr hmem

/-- Nothing can be said against a node alone that has a key, does not list itself, and lists no
dependency twice. -/
theorem validate_eq_ok_iff (key : String) (ds : List String) :
    validate key ds = .ok () ↔ key ≠ "" ∧ key ∉ ds ∧ ds.Nodup := by
  have hbad := badDependency?_eq_none_iff key [] ds
  unfold validate
  split
  · next hempty => simpa using fun h => absurd hempty (by simpa using h)
  · next hempty =>
    have hne : key ≠ "" := by simpa using hempty
    cases h : badDependency? key [] ds with
    | some e =>
      rw [h] at hbad
      simpa [hne] using hbad
    | none => simpa [hne] using hbad.1 h

/-! ## Walks that are reported -/

theorem transGen_of_isChain {α : Type} {R : α → α → Prop} {a b : α} {l : List α}
    (h : (a :: l ++ [b]).IsChain R) : TransGen R a b := by
  induction l generalizing a with
  | nil => exact .single (List.isChain_pair.1 h)
  | cons c rest ih =>
    obtain ⟨hac, hrest⟩ := List.isChain_cons_cons.1 h
    exact .head hac (ih hrest)

/-- In a graph that had no cycle, a walk that is reported begins and ends at the new node. -/
theorem closedWalk_of_findCycle? (hg : g.Ranked) {cycle : List String}
    (h : findCycle? (KeyMap.erase g.edges key) [(key, ds)] = some cycle) :
    ∃ middle, cycle = key :: middle ++ [key] ∧ key ∉ middle ∧
      cycle.IsChain (g.insert key ds).DependsOn := by
  obtain ⟨d, middle, rfl, -, hkey, hchain, -⟩ := (searching_start g key ds).exists_cycle h
  have hchain : (d :: middle ++ [d]).IsChain (g.insert key ds).DependsOn := hchain
  by_cases hd : d = key
  · exact ⟨middle, by rw [hd], hkey, hchain⟩
  · -- A walk that does not pass the new node was there before.
    have hbefore : (d :: middle ++ [d]).IsChain g.DependsOn := by
      refine hchain.imp_of_mem_imp fun a b ha _ hab => ?_
      have hne : a ≠ key := by
        rintro rfl
        simp [Ne.symm hd, hkey] at ha
      exact (by simpa [hne] using (dependsOn_insert a b).1 hab)
    exact absurd (transGen_of_isChain hbefore) (hg.acyclic d)

/-- If no walk is reported, no dependency of the new node leads back to it. -/
theorem not_reaches_of_findCycle? (h : findCycle? (KeyMap.erase g.edges key) [(key, ds)] = none) :
    ¬ ∃ d ∈ ds, ReflTransGen g.DependsOn d key := by
  have hkey : ¬ TransGen (g.insert key ds).DependsOn key key :=
    (searching_start g key ds).acyclic h .refl
  exact fun hreach => hkey (cycle_iff_reaches.2 hreach)

/-! ## Faults -/

/-- What there is to be said against a node with some dependencies, as far as the graph goes. The
first fault in the order of the constructors counts. -/
inductive Fault (g : DependencyGraph) (key : String) (ds : List String) : EngineError → Prop
  | nameless : key = "" → Fault g key ds (.invalidDefinition "Invalid node: key must not be empty")
  | itself {before after : List String} : key ≠ "" → ds = before ++ key :: after →
      key ∉ before → before.Nodup →
      Fault g key ds (.cyclicDependency (GraphError.walkText [key, key]))
  | repeated {before after : List String} {d : String} : key ≠ "" → ds = before ++ d :: after →
      key ∉ before → before.Nodup → d ≠ key → d ∈ before →
      Fault g key ds (.invalidDefinition
        ("Node [\"" ++ key ++ "\"] lists \"" ++ d ++ "\" more than once"))
  | circular {middle : List String} : key ≠ "" → key ∉ ds → ds.Nodup → key ∉ middle →
      (key :: middle ++ [key]).IsChain (g.insert key ds).DependsOn →
      Fault g key ds (.cyclicDependency (GraphError.walkText (key :: middle ++ [key])))

/-- The check in two steps: the node alone, and the walk. -/
theorem check_eq (g : DependencyGraph) (key : String) (ds : List String) : g.check key ds =
    match validate key ds with
    | .error e => .error e
    | .ok () =>
      match findCycle? (KeyMap.erase g.edges key) [(key, ds)] with
      | some cycle => .error (.circular cycle)
      | none => .ok () := by
  unfold check
  cases validate key ds with
  | error e => rfl
  | ok u =>
    cases findCycle? (KeyMap.erase g.edges key) [(key, ds)] <;> rfl

theorem fault_of_validate {e : GraphError} (h : validate key ds = .error e) :
    g.Fault key ds e.toEngineError := by
  unfold validate at h
  split at h
  · next hempty =>
    obtain rfl := Except.error.inj h
    exact .nameless (by simpa using hempty)
  · next hempty =>
    have hne : key ≠ "" := by simpa using hempty
    cases hbad : badDependency? key [] ds with
    | none => simp [hbad] at h
    | some e' =>
      rw [hbad] at h
      obtain rfl := Except.error.inj h
      obtain ⟨before, d, after, hds, hkey, hnodup, -, hcase⟩ := exists_of_badDependency? hbad
      rcases hcase with ⟨rfl, rfl⟩ | ⟨hd, hmem, rfl⟩
      · exact .itself hne hds hkey hnodup
      · exact .repeated hne hds hkey hnodup hd (by simpa using hmem)

/-- The error of a check tells of a fault. -/
theorem fault_of_check (hg : g.Ranked) {e : GraphError} (h : g.check key ds = .error e) :
    g.Fault key ds e.toEngineError := by
  rw [check_eq] at h
  cases hv : validate key ds with
  | error e' =>
    rw [hv] at h
    obtain rfl := Except.error.inj h
    exact fault_of_validate hv
  | ok u =>
    obtain ⟨hne, hkey, hnodup⟩ := (validate_eq_ok_iff key ds).1 hv
    rw [hv] at h
    cases hc : findCycle? (KeyMap.erase g.edges key) [(key, ds)] with
    | none => simp [hc] at h
    | some cycle =>
      simp only [hc] at h
      obtain rfl := Except.error.inj h
      obtain ⟨middle, rfl, hmiddle, hchain⟩ := closedWalk_of_findCycle? hg hc
      exact .circular hne hkey hnodup hmiddle hchain

/-- A node passes the check exactly if it has a key, lists no dependency twice, does not list
itself, and no dependency leads back to it. -/
theorem check_eq_ok_iff (hg : g.Ranked) : g.check key ds = .ok () ↔
    key ≠ "" ∧ ds.Nodup ∧ key ∉ ds ∧ ¬ ∃ d ∈ ds, ReflTransGen g.DependsOn d key := by
  constructor
  · intro h
    obtain ⟨hne, hkey, hnodup⟩ := (validate_eq_ok_iff key ds).1 (validate_of_check h)
    exact ⟨hne, hnodup, hkey, not_reaches_of_findCycle? (findCycle?_of_check h)⟩
  · rintro ⟨hne, hnodup, hkey, hreach⟩
    rw [check_eq, (validate_eq_ok_iff key ds).2 ⟨hne, hkey, hnodup⟩]
    cases hc : findCycle? (KeyMap.erase g.edges key) [(key, ds)] with
    | none => rfl
    | some cycle =>
      obtain ⟨middle, rfl, -, hchain⟩ := closedWalk_of_findCycle? hg hc
      exact absurd (cycle_iff_reaches.1 (transGen_of_isChain hchain)) hreach

/-- What has a fault does not pass the check. -/
theorem Fault.check_ne_ok (hg : g.Ranked) {e : EngineError} (h : g.Fault key ds e) :
    g.check key ds ≠ .ok () := by
  rw [Ne, check_eq_ok_iff hg]
  rintro ⟨hne, hnodup, hkey, hreach⟩
  cases h with
  | nameless h => exact hne h
  | itself _ hds => exact hkey (by simp [hds])
  | repeated _ hds _ _ _ hmem =>
    rw [hds] at hnodup
    exact (List.nodup_append.1 hnodup).2.2 _ hmem _ List.mem_cons_self rfl
  | circular _ _ _ _ hchain => exact hreach (cycle_iff_reaches.1 (transGen_of_isChain hchain))

/-- The faults that a list of dependencies can have. -/
theorem exists_fault_iff (hg : g.Ranked) : (∃ e, g.Fault key ds e) ↔
    key = "" ∨ ¬ ds.Nodup ∨ key ∈ ds ∨ ∃ d ∈ ds, ReflTransGen g.DependsOn d key := by
  have hfault : (∃ e, g.Fault key ds e) ↔ g.check key ds ≠ .ok () := by
    refine ⟨fun ⟨e, he⟩ => he.check_ne_ok hg, fun h => ?_⟩
    cases hc : g.check key ds with
    | ok u => exact absurd hc h
    | error e => exact ⟨_, fault_of_check hg hc⟩
  rw [hfault, Ne, check_eq_ok_iff hg]
  simp only [ne_eq, not_and_or, not_not]

end LayeredAccess.DependencyGraph
