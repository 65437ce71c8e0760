/-
  LayeredAccess.Proofs.Registry.Definitions

  What users have made of a registry, apart from how far its nodes have come:
  which nodes are registered, what they are made from, and what they depend on.

  It does not matter for this when or where values are compiled. Cascades and
  values that arrive leave it alone, and operations do the same to registries
  that are the same in this respect.
-/
import LayeredAccess.Proofs.Agenda
import LayeredAccess.Proofs.Node.Bare
import LayeredAccess.Proofs.Registry.Operation
import LayeredAccess.Proofs.Registry.Steps
import LayeredAccess.Registry.Drive

namespace LayeredAccess.Registry

variable {ν : Type} [Node ν]

/-- Two registries have the same nodes, apart from how far these have come. -/
structure Same (r r' : Registry ν) : Prop where
  bare_eq : ∀ k, (r.get? k).map Node.bare = (r'.get? k).map Node.bare
  graph_eq : r.graph = r'.graph

/-- A registry in which nothing has happened but that nodes have come further, or less far. -/
structure Onward (r r' : Registry ν) : Prop extends Same r r' where
  generation_le : r.generation ≤ r'.generation

variable {r r' r'' : Registry ν}

theorem Same.symm (h : Same r r') : Same r' r := ⟨fun k => (h.bare_eq k).symm, h.graph_eq.symm⟩

theorem Same.trans (h : Same r r') (h' : Same r' r'') : Same r r'' :=
  ⟨fun k => (h.bare_eq k).trans (h'.bare_eq k), h.graph_eq.trans h'.graph_eq⟩

theorem Same.contains_eq (h : Same r r') (k : String) : r.contains k = r'.contains k := by
  have hsome := congrArg Option.isSome (h.bare_eq k)
  rwa [Option.isSome_map, Option.isSome_map] at hsome

theorem Onward.refl (r : Registry ν) : Onward r r := ⟨⟨fun _ => rfl, rfl⟩, Nat.le_refl _⟩

theorem Onward.trans (h : Onward r r') (h' : Onward r' r'') : Onward r r'' :=
  ⟨h.toSame.trans h'.toSame, Nat.le_trans h.generation_le h'.generation_le⟩

/-- What leaves the nodes alone and takes no generation back leads onward. -/
theorem Onward.of_nodes (hnodes : r'.nodes = r.nodes) (hgraph : r'.graph = r.graph)
    (hgeneration : r.generation ≤ r'.generation) : Onward r r' := by
  refine ⟨⟨fun k => ?_, hgraph.symm⟩, hgeneration⟩
  rw [get?, get?, hnodes]

theorem Silent.onward (h : Silent r r') : Onward r r' := by
  obtain ⟨published, rfl⟩ := h
  exact .of_nodes rfl rfl (Nat.le_refl _)

/-- A node is registered in both registries or in neither. -/
theorem Same.get?_cases (h : Same r r') (k : String) : (r.get? k = none ∧ r'.get? k = none) ∨
    ∃ n n', r.get? k = some n ∧ r'.get? k = some n' ∧ Node.bare n = Node.bare n' := by
  have hbare := h.bare_eq k
  cases hn : r.get? k with
  | none =>
    rw [hn, Option.map_none] at hbare
    exact .inl ⟨rfl, Option.map_eq_none_iff.1 hbare.symm⟩
  | some n =>
    rw [hn, Option.map_some] at hbare
    obtain ⟨n', hn', he⟩ := Option.map_eq_some_iff.1 hbare.symm
    exact .inr ⟨n, n', rfl, hn', he.symm⟩

/-- Nodes with the same bare form are put in the same place. -/
theorem Same.set {r₁ r₁' : Registry ν} (h : Same r r') {k : String} {n n' : ν}
    (hbare : Node.bare n = Node.bare n') (hnodes : r₁.nodes = KeyMap.insert r.nodes k n)
    (hnodes' : r₁'.nodes = KeyMap.insert r'.nodes k n') (hgraph : r₁.graph = r₁'.graph) :
    Same r₁ r₁' := by
  refine ⟨fun j => ?_, hgraph⟩
  rw [get?, get?, hnodes, hnodes', KeyMap.find?_insert, KeyMap.find?_insert]
  split
  · exact congrArg some hbare
  · exact h.bare_eq j

/-- A node may take the place of another with the same bare form. -/
theorem Onward.set {k : String} {n n' : ν} (hn : r.get? k = some n)
    (hbare : Node.bare n' = Node.bare n) (hnodes : r'.nodes = KeyMap.insert r.nodes k n')
    (hgraph : r'.graph = r.graph) (hgeneration : r'.generation = r.generation) : Onward r r' := by
  refine ⟨⟨fun j => ?_, hgraph.symm⟩, Nat.le_of_eq hgeneration.symm⟩
  rw [get?, get?, hnodes, KeyMap.find?_insert]
  split
  · next hj =>
    rw [← hj, show KeyMap.find? r.nodes k = some n from hn]
    exact congrArg some hbare.symm
  · rfl

/-! ## Cascades -/

/-- The tasks by which users change nothing. -/
def Task.Plain : Task → Prop
  | .tell _ notice => notice.Plain
  | .perform _ effect => effect.Plain

/-- Telling a node puts the node that it has become into its place. -/
theorem tell_some {k : String} {n : ν} (hn : r.get? k = some n) (notice : Notice) :
    (r.tell k notice).1.nodes = KeyMap.insert r.nodes k (answer n notice).2 ∧
      (r.tell k notice).1.graph = r.graph ∧ (r.tell k notice).1.generation = r.generation := by
  simp only [tell, hn]
  exact ⟨nodes_reshape r k n _, graph_reshape r k n _, generation_reshape r k n _⟩

/-- Where no node is registered, nobody is told. -/
theorem tell_none {k : String} (hn : r.get? k = none) (notice : Notice) :
    r.tell k notice = (r, []) := by
  simp only [tell, hn]

omit [Node ν] in
/-- Listeners are told a plain signal by plain notices. -/
theorem plain_dispatch (r : Registry ν) (channel : String) {s : Signal} (hs : s.Plain)
    (origin : Origin) : ∀ t ∈ r.dispatch channel s origin, t.Plain := by
  intro t ht
  obtain ⟨l, -, rfl⟩ := List.mem_map.1 ht
  cases l with
  | owner key => exact hs
  | dependent key => trivial

variable [NodeKind ν] [BareNode ν]

/-- Plain tasks follow from every task but the effects that are not plain. -/
theorem Steps.plain {t : Task} {more : List Task} (h : Steps r t r' more)
    (ht : ∀ k e, t = .perform k e → e.Plain) : ∀ u ∈ more, u.Plain := by
  cases h with
  | told =>
    intro u hu
    obtain ⟨e, he, rfl⟩ := List.mem_map.1 hu
    exact BareNode.plain_answer _ _ e he
  | broadcast => exact plain_dispatch _ _ (ht _ _ rfl) _
  | validated | compiled => simp [Task.Plain, Notice.Plain, Signal.Plain]
  | absent | valueless | announced | rejected | unregistered | lacking | queued | uncached => simp

theorem Steps.onward {t : Task} {more : List Task} (h : Steps r t r' more) (ht : t.Plain) :
    Onward r r' := by
  cases h with
  | told hn =>
    exact .set hn (BareNode.bare_answer _ ht) (nodes_reshape ..) (graph_reshape ..)
      (generation_reshape ..)
  | absent | valueless | validated | unregistered => exact .refl r
  | broadcast => exact (silent_publishSignal r _ _ _).onward
  | announced | rejected | lacking => exact .of_nodes rfl rfl (Nat.le_refl _)
  -- A new job takes the next generation, whatever becomes of it.
  | queued | uncached | compiled => exact .of_nodes rfl rfl (Nat.le_succ _)

/-- Whatever a node is told, only plain tasks follow. -/
theorem plain_tell (r : Registry ν) (k : String) (notice : Notice) :
    ∀ t ∈ (r.tell k notice).2, t.Plain := (steps_tell r k notice).plain (by simp)

/-- A plain task leads onward, and leaves plain tasks. -/
theorem onward_step (r : Registry ν) {t : Task} (ht : t.Plain) :
    Onward r (r.step t).1 ∧ ∀ u ∈ (r.step t).2, u.Plain := by
  refine ⟨(steps_step r t).onward ht, (steps_step r t).plain ?_⟩
  rintro k e rfl
  exact ht

theorem onward_run (bound : Nat) {r : Registry ν} {tasks : List Task}
    (htasks : ∀ t ∈ tasks, t.Plain) : Onward r (Agenda.run step bound r tasks).1 := by
  refine Agenda.run_invariant_of (Q := Task.Plain) (fun s t hs ht => ?_) bound r tasks (.refl r)
    htasks
  obtain ⟨honward, hmore⟩ := onward_step s ht
  exact ⟨hs.trans honward, hmore⟩

/-- What follows from plain tasks leads onward. -/
theorem onward_settle {r : Registry ν} {tasks : List Task} (htasks : ∀ t ∈ tasks, t.Plain) :
    Onward r (r.settle tasks) := onward_run _ htasks

/-- What a node is told by the registry may change it; what follows leads onward. -/
theorem onward_deliver (r : Registry ν) (k : String) (s : Signal) :
    Onward (r.tell k (.own s .registry)).1 (r.deliver k s) := by
  obtain ⟨bound, hbound⟩ : ∃ bound, r.cascadeBound [.tell k (.own s .registry)] = bound + 1 :=
    Nat.exists_eq_add_one.2 (Nat.mul_pos (by simp) (Nat.pow_pos (by omega)))
  rw [deliver, settle, hbound, Agenda.run_succ, List.append_nil]
  exact onward_run bound (plain_tell r k _)

theorem Same.tell (h : Same r r') (k : String) (notice : Notice) :
    Same (r.tell k notice).1 (r'.tell k notice).1 := by
  rcases h.get?_cases k with ⟨hn, hn'⟩ | ⟨n, n', hn, hn', hbare⟩
  · rw [tell_none hn, tell_none hn']
    exact h
  · obtain ⟨hnodes, hgraph, -⟩ := tell_some hn notice
    obtain ⟨hnodes', hgraph', -⟩ := tell_some hn' notice
    exact h.set (BareNode.answer_congr notice hbare) hnodes hnodes'
      (hgraph.trans (h.graph_eq.trans hgraph'.symm))

theorem Same.deliver (h : Same r r') (k : String) (s : Signal) :
    Same (r.deliver k s) (r'.deliver k s) :=
  (onward_deliver r k s).toSame.symm.trans
    ((h.tell k (.own s .registry)).trans (onward_deliver r' k s).toSame)

theorem generation_le_deliver (r : Registry ν) (k : String) (s : Signal) :
    r.generation ≤ (r.deliver k s).generation := by
  refine Nat.le_trans (Nat.le_of_eq ?_) (onward_deliver r k s).generation_le
  cases hn : r.get? k with
  | none => rw [tell_none hn]
  | some n => exact (tell_some hn _).2.2.symm

/-! ## Operations -/

omit [NodeKind ν] [BareNode ν] in
theorem Same.silent {r₁ r₁' : Registry ν} (h : Same r r') (hr : Silent r r₁)
    (hr' : Silent r' r₁') : Same r₁ r₁' :=
  hr.onward.toSame.symm.trans (h.trans hr'.onward.toSame)

omit [BareNode ν] in
theorem dependencies_congr [BareNode ν] {n n' : ν} (h : Node.bare n = Node.bare n') :
    Node.dependencies n = Node.dependencies n' :=
  congrArg NodeInputs.dependencies (BareNode.inputs_congr h)

omit [NodeKind ν] [BareNode ν] in
theorem install_eq (r : Registry ν) (n : ν) :
    (∃ readiness, (r.install n).nodes =
      KeyMap.insert r.nodes (Node.key n) (Node.setReadiness n readiness)) ∧
    (r.install n).graph = r.graph.insert (Node.key n) (Node.dependencies n) ∧
    (r.install n).generation = r.generation := by
  obtain ⟨ls, hinstall⟩ := exists_install r n
  rw [hinstall]
  exact ⟨⟨_, rfl⟩, rfl, rfl⟩

theorem Same.add (h : Same r r') (n : ν) : Same (r.add n).2 (r'.add n).2 := by
  simp only [Registry.add, h.contains_eq, h.graph_eq]
  split
  · exact h.silent ⟨_, rfl⟩ ⟨_, rfl⟩
  · split
    · exact h.silent ⟨_, rfl⟩ ⟨_, rfl⟩
    · obtain ⟨⟨readiness, hnodes⟩, hgraph, -⟩ := install_eq r n
      obtain ⟨⟨readiness', hnodes'⟩, hgraph', -⟩ := install_eq r' n
      have hinstall : Same (r.install n) (r'.install n) := by
        refine h.set ?_ hnodes hnodes' ?_
        · rw [BareNode.bare_setReadiness, BareNode.bare_setReadiness]
        · rw [hgraph, hgraph', h.graph_eq]
      exact (hinstall.silent (silent_publishSignal _ _ _ _)
        (silent_publishSignal _ _ _ _)).deliver _ _

omit [NodeKind ν] [BareNode ν] in
theorem relink_eq (r : Registry ν) (k : String) (previous : List String) (n : ν) :
    (∃ readiness, (r.relink k previous n).nodes =
      KeyMap.insert r.nodes k (Node.setReadiness n readiness)) ∧
    (r.relink k previous n).graph = r.graph.insert k (Node.dependencies n) ∧
    (r.relink k previous n).generation = r.generation := by
  obtain ⟨ls, hrelink⟩ := exists_relink r k previous n
  rw [hrelink]
  exact ⟨⟨_, rfl⟩, rfl, rfl⟩

theorem Same.relink (h : Same r r') (k : String) (previous previous' : List String) {n n' : ν}
    (hbare : Node.bare n = Node.bare n') :
    Same (r.relink k previous n) (r'.relink k previous' n') := by
  obtain ⟨⟨readiness, hnodes⟩, hgraph, -⟩ := relink_eq r k previous n
  obtain ⟨⟨readiness', hnodes'⟩, hgraph', -⟩ := relink_eq r' k previous' n'
  refine h.set ?_ hnodes hnodes' ?_
  · rw [BareNode.bare_setReadiness, BareNode.bare_setReadiness, hbare]
  · rw [hgraph, hgraph', h.graph_eq, dependencies_congr hbare]

theorem Same.update (h : Same r r') (k : String) (patch : Node.Patch ν) :
    Same (r.update k patch).2 (r'.update k patch).2 := by
  -- Both registries make the same checks, and so take the same branch.
  rcases h.get?_cases k with ⟨hn, hn'⟩ | ⟨n, n', hn, hn', hbare⟩
  · simp only [Registry.update, hn, hn']
    exact h.silent ⟨_, rfl⟩ ⟨_, rfl⟩
  · have hcheck : r.checkUpdate k n patch = r'.checkUpdate k n' patch := by
      simp only [checkUpdate, BareNode.checkUpdate_congr hbare, h.graph_eq]
    obtain ⟨houtcome, hafter⟩ := BareNode.applyPatch_congr patch hbare
    simp only [Registry.update, hn, hn', hcheck, houtcome]
    split
    · exact h.silent ⟨_, rfl⟩ ⟨_, rfl⟩
    · have hset : Same (r.setNode k (Node.applyPatch n patch).2)
          (r'.setNode k (Node.applyPatch n' patch).2) := h.set hafter rfl rfl h.graph_eq
      -- The tables are changed in both registries or in neither.
      have hpatched : Same
          (if (Node.applyPatch n' patch).1.dependenciesChanged then
            (r.setNode k (Node.applyPatch n patch).2).relink k (Node.dependencies n)
              (Node.applyPatch n patch).2
          else r.setNode k (Node.applyPatch n patch).2)
          (if (Node.applyPatch n' patch).1.dependenciesChanged then
            (r'.setNode k (Node.applyPatch n' patch).2).relink k (Node.dependencies n')
              (Node.applyPatch n' patch).2
          else r'.setNode k (Node.applyPatch n' patch).2) := by
        split
        · exact hset.relink k _ _ hafter
        · exact hset
      split
      · exact ((hpatched.silent ⟨_, rfl⟩ ⟨_, rfl⟩).silent ⟨_, rfl⟩ ⟨_, rfl⟩).deliver _ _
      · exact hpatched.silent ⟨_, rfl⟩ ⟨_, rfl⟩

omit [Node ν] [NodeKind ν] [BareNode ν] in
theorem uninstall_eq (r : Registry ν) (k : String) (dependencies : List String) :
    (r.uninstall k dependencies).nodes = KeyMap.erase r.nodes k ∧
    (r.uninstall k dependencies).graph = r.graph.erase k ∧
    (r.uninstall k dependencies).generation = r.generation := by
  obtain ⟨ls, huninstall⟩ := exists_uninstall r k dependencies
  rw [huninstall]
  exact ⟨rfl, rfl, rfl⟩

/-- Telling everybody of a removal leads onward. -/
theorem onward_farewell (r : Registry ν) (k : String) :
    Onward r ((r.publishSignal k .deleted true).settle
      ((r.publishSignal k .deleted true).dispatch k .deleted .registry)) :=
  (silent_publishSignal r k .deleted true).onward.trans
    (onward_settle (plain_dispatch _ k (show Signal.deleted.Plain from trivial) _))

theorem Same.delete (h : Same r r') (k : String) : Same (r.delete k).2 (r'.delete k).2 := by
  rcases h.get?_cases k with ⟨hn, hn'⟩ | ⟨n, n', hn, hn', hbare⟩
  · simp only [Registry.delete, hn, hn']
    exact h.silent ⟨_, rfl⟩ ⟨_, rfl⟩
  · simp only [Registry.delete, hn, hn', BareNode.checkDelete_congr hbare]
    split
    · exact h.silent ⟨_, rfl⟩ ⟨_, rfl⟩
    -- What the farewell leaves behind is the same again, and the node may be gone by then.
    · have hsettled :=
        (onward_farewell r k).toSame.symm.trans (h.trans (onward_farewell r' k).toSame)
      generalize (r.publishSignal k .deleted true).settle _ = s at hsettled ⊢
      generalize (r'.publishSignal k .deleted true).settle _ = s' at hsettled ⊢
      rcases hsettled.get?_cases k with ⟨hm, hm'⟩ | ⟨m, m', hm, hm', -⟩
      · simp only [hm, hm']
        exact hsettled
      · simp only [hm, hm']
        obtain ⟨hnodes, hgraph, -⟩ := uninstall_eq s k (Node.dependencies m)
        obtain ⟨hnodes', hgraph', -⟩ := uninstall_eq s' k (Node.dependencies m')
        refine ⟨fun j => ?_, ?_⟩
        · rw [get?, get?, hnodes, hnodes', KeyMap.find?_erase, KeyMap.find?_erase]
          split
          · rfl
          · exact hsettled.bare_eq j
        · rw [hgraph, hgraph', hsettled.graph_eq]

theorem Same.customize (h : Same r r') (k : String) (flags : Flags) :
    Same (r.customize k flags).2 (r'.customize k flags).2 := by
  simp only [Registry.customize, h.contains_eq]
  split
  · exact (h.silent (silent_publishSignal _ _ _ _) (silent_publishSignal _ _ _ _)).deliver _ _
  · exact h.silent ⟨_, rfl⟩ ⟨_, rfl⟩

/-- Dropping all values and compiling anew leads onward. -/
theorem onward_clearCache (r : Registry ν) : Onward r r.clearCache := by
  have hreset : Onward r r.resetAll := by
    refine ⟨⟨fun k => ?_, rfl⟩, Nat.le_refl _⟩
    show _ = (KeyMap.find? (KeyMap.mapValues Node.reset r.nodes) k).map Node.bare
    rw [KeyMap.find?_mapValues, Option.map_map]
    exact Option.map_congr fun n _ => (BareNode.bare_reset n).symm
  refine hreset.trans (onward_settle fun t ht => ?_)
  obtain ⟨k, -, rfl⟩ := List.mem_map.1 ht
  trivial

/-- An operation does the same to registries that are the same. -/
theorem Same.operate (h : Same r r') (operation : Operation ν) :
    Same (r.operate operation) (r'.operate operation) := by
  cases operation with
  | add definition => exact h.add _
  | update k patch => exact h.update k patch
  | delete k => exact h.delete k
  | customize k flags => exact h.customize k flags
  | clearCache =>
    exact (onward_clearCache r).toSame.symm.trans (h.trans (onward_clearCache r').toSame)

/-! ## Values compiled elsewhere -/

theorem onward_applyOutcome (r : Registry ν) (k : String) (outcome : CompileOutcome) :
    Onward r (r.applyOutcome k outcome) := by
  unfold applyOutcome
  split
  · cases outcome with
    | failed g missing => exact .of_nodes rfl rfl (Nat.le_succ _)
    | compiled g x =>
      dsimp only
      split
      · refine Onward.trans ?_ (onward_settle fun t ht => ?_)
        · exact .of_nodes rfl rfl (Nat.le_succ _)
        · obtain rfl := List.mem_singleton.1 ht
          trivial
      · exact .of_nodes rfl rfl (Nat.le_succ _)
  · exact .refl r

theorem onward_applyAll (outcomes : List (String × Except EngineError CompileOutcome)) :
    ∀ (r : Registry ν) (count : Nat), Onward r (r.applyAll count outcomes).2 := by
  induction outcomes with
  | nil => exact fun r count => .refl r
  | cons first rest ih =>
    intro r count
    obtain ⟨k, result⟩ := first
    cases result with
    | error e => exact .refl r
    | ok outcome => exact (onward_applyOutcome r k outcome).trans (ih _ _)

variable {σ : Type} (remote : RemoteCompiler σ)

theorem onward_driveRound (r : Registry ν) (s : σ) (count : Nat) :
    Onward r (r.driveRound remote s count).2.1 := by
  have htaken : Onward r r.takeOutbox.2 := .of_nodes rfl rfl (Nat.le_refl _)
  simp only [driveRound]
  split
  · exact htaken
  · exact htaken.trans (onward_applyAll _ _ _)

theorem onward_driveRounds (bound : Nat) : ∀ (r : Registry ν) (s : σ) (count : Nat),
    Onward r (driveRounds remote bound r s count).2.1 := by
  induction bound with
  | zero => exact fun r s count => .refl r
  | succ bound ih =>
    intro r s count
    rw [driveRounds]
    split
    · exact .refl r
    · have hround := onward_driveRound remote r s count
      split
      · next heq =>
        rw [heq] at hround
        exact hround.trans (ih _ _ _)
      · next heq =>
        rw [heq] at hround
        exact hround

/-- Driving a registry leads onward, whatever the compiler elsewhere does. -/
theorem onward_drive (r : Registry ν) (s : σ) : Onward r (r.drive remote s).2.1 :=
  onward_driveRounds remote _ r s 0

/-! ## Generations -/

theorem generation_le_add (r : Registry ν) (n : ν) : r.generation ≤ (r.add n).2.generation := by
  simp only [Registry.add]
  split
  · exact Nat.le_refl _
  · split
    · exact Nat.le_refl _
    · obtain ⟨-, -, hgeneration⟩ := install_eq r n
      refine Nat.le_trans ?_ (generation_le_deliver _ _ .added)
      rw [← hgeneration]
      exact (silent_publishSignal _ _ _ _).onward.generation_le

theorem generation_le_update (r : Registry ν) (k : String) (patch : Node.Patch ν) :
    r.generation ≤ (r.update k patch).2.generation := by
  simp only [Registry.update]
  split
  · exact Nat.le_refl _
  · next n hn =>
    split
    · exact Nat.le_refl _
    · have hpatched : (if (Node.applyPatch n patch).1.dependenciesChanged then
          (r.setNode k (Node.applyPatch n patch).2).relink k (Node.dependencies n)
            (Node.applyPatch n patch).2
          else r.setNode k (Node.applyPatch n patch).2).generation = r.generation := by
        split
        · exact (relink_eq _ _ _ _).2.2
        · rfl
      split
      · refine Nat.le_trans ?_ (generation_le_deliver _ _ .updated)
        exact Nat.le_of_eq hpatched.symm
      · exact Nat.le_of_eq hpatched.symm

theorem generation_le_delete (r : Registry ν) (k : String) :
    r.generation ≤ (r.delete k).2.generation := by
  simp only [Registry.delete]
  split
  · exact Nat.le_refl _
  · split
    · exact Nat.le_refl _
    · have hle := (onward_farewell r k).generation_le
      split
      · exact hle
      · rw [(uninstall_eq _ _ _).2.2]
        exact hle

/-- No operation takes a generation back. -/
theorem generation_le_operate (r : Registry ν) (operation : Operation ν) :
    r.generation ≤ (r.operate operation).generation := by
  cases operation with
  | add definition => exact generation_le_add r _
  | update k patch => exact generation_le_update r k patch
  | delete k => exact generation_le_delete r k
  | customize k flags =>
    simp only [operate, Registry.customize]
    split
    · refine Nat.le_trans ?_ (generation_le_deliver _ _ _)
      exact (silent_publishSignal _ _ _ _).onward.generation_le
    · exact Nat.le_refl _
  | clearCache => exact (onward_clearCache r).generation_le

end LayeredAccess.Registry
