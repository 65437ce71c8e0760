/-
  LayeredAccess.Proofs.Registry.Structure

  The three tables of a registry, its nodes, its channels and its graph, agree
  whatever is done to it. Here nodes may be entered in any state, outcomes of
  jobs may be made up, and the cache may be changed by others that share it: a
  cascade may then run anywhere, but it touches none of the tables
  (`linked_settle`), and what does touch them keeps them in step
  (`Structured.call`).
-/
import LayeredAccess.Proofs.Dependency.Fault
import LayeredAccess.Proofs.Node.Bare
import LayeredAccess.Proofs.Registry.Operation
import LayeredAccess.Proofs.Registry.Steps

namespace LayeredAccess

/-! ## Nodes keep their links -/

/-- Whatever a node is told, it keeps its key and its dependencies. -/
class LinkedNode (ν : Type) [Node ν] : Prop where
  key_answer (n : ν) (notice : Notice) : Node.key (Registry.answer n notice).2 = Node.key n
  dependencies_answer (n : ν) (notice : Notice) :
    Node.dependencies (Registry.answer n notice).2 = Node.dependencies n

namespace EntitlementNode

theorem entitlement_onSignal (n : EntitlementNode) (s : Signal) (origin : Origin) :
    (n.onSignal s origin).2.entitlement = n.entitlement := by
  unfold onSignal
  split
  · rfl
  · cases s <;> rfl

theorem entitlement_onDependencySignal (n : EntitlementNode) (d : String) (s : Signal) :
    (n.onDependencySignal d s).2.entitlement = n.entitlement := by
  cases s <;> simp only [onDependencySignal]
  all_goals first | rfl | split <;> rfl

theorem entitlement_answer (n : EntitlementNode) (notice : Notice) :
    (Registry.answer n notice).2.entitlement = n.entitlement := by
  cases notice with
  | own s origin => exact entitlement_onSignal n s origin
  | dependency d s => exact entitlement_onDependencySignal n d s

instance : LinkedNode EntitlementNode where
  key_answer n notice := congrArg Entitlement.id (entitlement_answer n notice)
  dependencies_answer n notice := congrArg Entitlement.dependencies (entitlement_answer n notice)

end EntitlementNode

instance : LinkedNode ProfileNode where
  key_answer n notice := congrArg Profile.name (ProfileNode.profile_answer n notice)
  dependencies_answer n notice :=
    congrArg Profile.dependencies (ProfileNode.profile_answer n notice)

namespace Registry

variable {ν : Type} [Node ν] [NodeKind ν] {r r' : Registry ν}

/-! ## Cascades touch no table -/

/-- The tables stay as they are, apart from what nodes hold besides their links. -/
structure Linked (r r' : Registry ν) : Prop extends Frame r r' where
  links?_eq : ∀ k, r'.links? k = r.links? k

theorem Linked.refl (r : Registry ν) : Linked r r := ⟨.refl r, fun _ => rfl⟩

theorem Linked.trans {r'' : Registry ν} (h : Linked r r') (h' : Linked r' r'') : Linked r r'' :=
  ⟨h.toFrame.trans h'.toFrame, fun k => (h'.links?_eq k).trans (h.links?_eq k)⟩

/-- What leaves the nodes alone, and the tables, leaves the links alone. -/
theorem linked_of_nodes (hconfig : r'.config = r.config) (hverifier : r'.verifier = r.verifier)
    (hlisteners : r'.listeners = r.listeners) (hgraph : r'.graph = r.graph)
    (hnodes : r'.nodes = r.nodes) : Linked r r' := by
  have hsorted : KeyMap.Sorted r.nodes → KeyMap.Sorted r'.nodes ∧ r'.size = r.size := by
    rw [size, size, hnodes]
    exact fun h => ⟨h, rfl⟩
  refine ⟨⟨hconfig, hverifier, hlisteners, hgraph, hsorted⟩, fun k => ?_⟩
  rw [links?, view?_congr_nodes hnodes, links?]

theorem linked_of_silent (h : Silent r r') : Linked r r' := by
  obtain ⟨published, rfl⟩ := h
  exact linked_of_nodes rfl rfl rfl rfl rfl

/-- A node takes the place of one with the same key and the same dependencies. -/
theorem linked_setNode {k : String} {n n' : ν} (hn : r.get? k = some n)
    (hkey : Node.key n' = Node.key n) (hdeps : Node.dependencies n' = Node.dependencies n) :
    Linked r (r.setNode k n') := by
  have hsize (hs : KeyMap.Sorted r.nodes) : (r.setNode k n').size = r.size :=
    KeyMap.length_insert hs (by rw [show KeyMap.find? r.nodes k = some n from hn]; rfl) n'
  refine ⟨⟨rfl, rfl, rfl, rfl, fun hs => ⟨KeyMap.sorted_insert k n' hs, hsize hs⟩⟩, fun j => ?_⟩
  rw [links?, view?_setNode, links?]
  split
  · next hj =>
    rw [hj, view?_of_get? hn, Option.map_some, Option.map_some]
    exact congrArg some (Prod.ext hkey hdeps)
  · rfl

/-- A node takes another shape with the same key and the same dependencies. -/
theorem linked_reshape {k : String} {n n' : ν} (hn : r.get? k = some n)
    (hkey : Node.key n' = Node.key n) (hdeps : Node.dependencies n' = Node.dependencies n) :
    Linked r (r.reshape k n n') := by
  have hset := linked_setNode hn hkey hdeps
  unfold reshape
  split
  -- The value that is lost is in no table.
  · exact hset.trans (linked_of_nodes rfl rfl rfl rfl rfl)
  · exact hset

variable [LinkedNode ν]

/-- Only a node that is told of something changes, and it keeps its links. -/
theorem Steps.linked {t : Task} {more : List Task} (h : Steps r t r' more) : Linked r r' := by
  cases h with
  | told hn =>
    exact linked_reshape hn (LinkedNode.key_answer _ _) (LinkedNode.dependencies_answer _ _)
  | absent | valueless | validated | unregistered => exact .refl r
  | broadcast => exact linked_of_silent (silent_publishSignal r _ _ _)
  | announced | rejected | lacking | queued | uncached | compiled =>
    exact linked_of_nodes rfl rfl rfl rfl rfl

theorem linked_step (r : Registry ν) (t : Task) : Linked r (r.step t).1 := (steps_step r t).linked

/-- A cascade touches no table, wherever it runs. -/
theorem linked_run (bound : Nat) (r : Registry ν) (tasks : List Task) :
    Linked r (Agenda.run step bound r tasks).1 :=
  Agenda.run_invariant (P := Linked r) (fun s t h => h.trans (linked_step s t)) bound r tasks
    (.refl r)

theorem linked_settle (r : Registry ν) (tasks : List Task) : Linked r (r.settle tasks) :=
  linked_run _ r tasks

theorem linked_deliver (r : Registry ν) (k : String) (s : Signal) : Linked r (r.deliver k s) :=
  linked_settle r _

omit [LinkedNode ν]

/-! ## Structured registries -/

/-- Every channel in the table has listeners. -/
def Occupied (r : Registry ν) : Prop := ∀ c, KeyMap.find? r.listeners c ≠ some []

/-- The tables agree, no list of dependencies names one twice, every key says something, and only
channels with listeners are kept. -/
structure Structured (r : Registry ν) : Prop extends Wired r where
  nodup_links : ∀ k e, r.links? k = some e → e.2.Nodup
  ne_empty : ∀ k e, r.links? k = some e → k ≠ ""
  occupied : r.Occupied

omit [Node ν] [NodeKind ν] in
theorem occupied_subscribe (h : r.Occupied) (c : String) (l : Listener) :
    (r.subscribe c l).Occupied := by
  intro c'
  unfold subscribe
  dsimp only
  split
  · exact h c'
  · rw [KeyMap.find?_insert]
    split
    · simp
    · exact h c'

omit [Node ν] [NodeKind ν] in
theorem occupied_unsubscribe (h : r.Occupied) (c : String) (l : Listener) :
    (r.unsubscribe c l).Occupied := by
  intro c'
  unfold unsubscribe
  split
  · exact h c'
  · split
    · rw [KeyMap.find?_erase]
      split
      · simp
      · exact h c'
    · next remaining hne =>
      rw [KeyMap.find?_insert]
      split
      · simpa using hne
      · exact h c'

omit [Node ν] [NodeKind ν] in
theorem occupied_subscribeAll (h : r.Occupied) (k : String) (ds : List String) :
    (r.subscribeAll k ds).Occupied := by
  induction ds generalizing r with
  | nil => exact h
  | cons d rest ih => exact ih (occupied_subscribe h d (.dependent k))

omit [Node ν] [NodeKind ν] in
theorem occupied_unsubscribeAll (h : r.Occupied) (k : String) (ds : List String) :
    (r.unsubscribeAll k ds).Occupied := by
  induction ds generalizing r with
  | nil => exact h
  | cons d rest ih => exact ih (occupied_unsubscribe h d (.dependent k))

theorem Structured.of_linked (h : Structured r) (hl : Linked r r') : Structured r' := by
  refine ⟨h.toWired.of_frame hl.toFrame hl.links?_eq, fun k e he => ?_, fun k e he => ?_, ?_⟩
  · exact h.nodup_links k e (by rwa [← hl.links?_eq])
  · exact h.ne_empty k e (by rwa [← hl.links?_eq])
  · intro c
    rw [hl.listeners_eq]
    exact h.occupied c

/-- A node that has passed the check takes its place. -/
theorem Structured.of_placed (h : Structured r) (hw : Wired r') (ho : r'.Occupied) {k : String}
    {v : NodeView} (hview : ∀ j, r'.view? j = if j = k then some v else r.view? j)
    (hcheck : r.graph.check k v.inputs.dependencies = .ok ()) : Structured r' := by
  obtain ⟨hne, hnodup, -⟩ := (DependencyGraph.check_eq_ok_iff h.ranked).1 hcheck
  refine ⟨hw, fun j e he => ?_, fun j e he => ?_, ho⟩
  all_goals
    rw [links?, hview] at he
    split at he
  · obtain rfl := Option.some.inj he
    exact hnodup
  · exact h.nodup_links j e he
  · next hj => exact hj ▸ hne
  · exact h.ne_empty j e he

variable [LawfulNode ν]

theorem Structured.install (h : Structured r) {n : ν} (hnew : r.contains (Node.key n) = false)
    (hcheck : r.graph.check (Node.key n) (Node.dependencies n) = .ok ()) :
    Structured (r.install n) := by
  obtain ⟨hw, hview, -⟩ := install_spec h.toWired hnew hcheck
  refine h.of_placed hw ?_ hview hcheck
  let m := Node.setReadiness n (Readiness.snapshot (Node.dependencies n) r.isDependable)
  have ho : Occupied ({ r.setNode (Node.key n) m with
      graph := r.graph.insert (Node.key n) (Node.dependencies n) } : Registry ν) := h.occupied
  exact occupied_subscribeAll (occupied_subscribe ho _ _) _ _

theorem Structured.relink (h : Structured r) {k : String} {n m : ν} (hn : r.get? k = some n)
    (hkey : Node.key m = k) (hcheck : r.graph.check k (Node.dependencies m) = .ok ()) :
    Structured ((r.setNode k m).relink k (Node.dependencies n) m) := by
  obtain ⟨hw, hview, -⟩ := relink_spec h.toWired (view?_of_get? hn) hkey hcheck
  refine h.of_placed hw ?_ hview hcheck
  have ho : Occupied (r.setNode k m) := h.occupied
  have hlisteners := occupied_subscribeAll (occupied_unsubscribeAll ho k (Node.dependencies n)) k
    (Node.dependencies m)
  exact hlisteners

omit [LawfulNode ν] in
theorem Structured.uninstall (h : Structured r) {k : String} {n : ν} (hn : r.get? k = some n) :
    Structured (r.uninstall k (Node.dependencies n)) ∧
    ∀ j, (r.uninstall k (Node.dependencies n)).links? j = if j = k then none else r.links? j := by
  obtain ⟨hw, hview, -⟩ := uninstall_spec h.toWired (view?_of_get? hn)
  -- Nothing but the node is gone, and its subscriptions with it.
  have hlinks : ∀ j, (r.uninstall k (Node.dependencies n)).links? j =
      if j = k then none else r.links? j := by
    intro j
    refine (congrArg (Option.map _) (hview j)).trans ?_
    split <;> rfl
  refine ⟨⟨hw, fun j e he => ?_, fun j e he => ?_, ?_⟩, hlinks⟩
  · rw [hlinks] at he
    split at he
    · simp at he
    · exact h.nodup_links j e he
  · rw [hlinks] at he
    split at he
    · simp at he
    · exact h.ne_empty j e he
  · have ho : Occupied ({ r with nodes := KeyMap.erase r.nodes k } : Registry ν) := h.occupied
    have hlisteners := occupied_unsubscribeAll (occupied_unsubscribe ho k (.owner k)) k
      (Node.dependencies n)
    exact hlisteners

/-! ## Operations -/

omit [LawfulNode ν] in
theorem linked_refuse {α : Type} (r : Registry ν) (label key : String) (e : EngineError) :
    Linked r (r.refuse (α := α) label key e).2 :=
  linked_of_silent ⟨_, rfl⟩

variable [LinkedNode ν]

theorem Structured.add (h : Structured r) (n : ν) : Structured (r.add n).2 := by
  unfold Registry.add
  dsimp only
  split
  · exact h.of_linked (linked_refuse r _ _ _)
  · next hnew =>
    split
    · exact h.of_linked (linked_refuse r _ _ _)
    · next hcheck =>
      refine (h.install (by simpa using hnew) hcheck).of_linked ?_
      exact (linked_of_silent (silent_publishSignal _ _ _ _)).trans (linked_deliver _ _ _)

omit [LawfulNode ν] in
/-- A node that may be deleted is still there when its channel has been told. -/
theorem exists_delete {k : String} {n : ν} (hn : r.get? k = some n)
    (hcheck : Node.checkDelete n = .ok ()) :
    let told := r.publishSignal k .deleted true
    let r₁ := told.settle (told.dispatch k .deleted .registry)
    Linked r r₁ ∧ ∃ m, r₁.get? k = some m ∧
      r.delete k = (.ok m, r₁.uninstall k (Node.dependencies m)) := by
  intro told r₁
  have hl : Linked r r₁ :=
    (linked_of_silent (silent_publishSignal r k .deleted true)).trans (linked_settle _ _)
  have hlinks := hl.links?_eq k
  rw [links?, links?, view?_of_get? hn, Option.map_some] at hlinks
  obtain ⟨v, hv, -⟩ := Option.map_eq_some_iff.1 hlinks
  obtain ⟨m, hm, -⟩ := exists_get? hv
  refine ⟨hl, m, hm, ?_⟩
  simp only [delete, hn, hcheck]
  rw [show (told.settle _).get? k = some m from hm]

omit [LawfulNode ν] in
theorem Structured.delete (h : Structured r) (k : String) : Structured (r.delete k).2 := by
  cases hn : r.get? k with
  | none =>
    have hrefused : r.delete k = r.refuse "Delete Error" k (.notFound k) := by
      simp only [Registry.delete, hn]
    exact hrefused ▸ h.of_linked (linked_refuse r _ _ _)
  | some n =>
    cases hcheck : Node.checkDelete n with
    | error e =>
      have hrefused : r.delete k = r.refuse "Delete Error" k e := by
        simp only [Registry.delete, hn, hcheck]
      exact hrefused ▸ h.of_linked (linked_refuse r _ _ _)
    | ok u =>
      obtain ⟨hl, m, hm, heq⟩ := exists_delete hn hcheck
      exact heq ▸ ((h.of_linked hl).uninstall hm).1

omit [LinkedNode ν] in
/-- A permitted patch replaces a node, which moves its subscriptions if need be. -/
theorem Structured.patched (h : Structured r) {k : String} {n : ν} {patch : Node.Patch ν}
    (hn : r.get? k = some n) (hcheck : r.checkUpdate k n patch = .ok ()) :
    let after := (Node.applyPatch n patch).2
    Structured (if (Node.applyPatch n patch).1.dependenciesChanged then
      (r.setNode k after).relink k (Node.dependencies n) after else r.setNode k after) := by
  intro after
  obtain ⟨⟨inputs, hview, -⟩, hinstalled, hsame, -⟩ := LawfulNode.patched n patch
  have hkey : Node.key after = Node.key n :=
    show (Node.view after).key = (Node.view n).key by rw [hview]
  split
  · next hchanged =>
    exact h.relink hn (hkey.trans (h.key_eq k _ (view?_of_get? hn)))
      (check_of_checkUpdate hcheck (hinstalled hchanged))
  · next hchanged =>
    exact h.of_linked (linked_setNode hn hkey (hsame (by simpa using hchanged)))

theorem Structured.update (h : Structured r) (k : String) (patch : Node.Patch ν) :
    Structured (r.update k patch).2 := by
  unfold Registry.update
  split
  · exact h.of_linked (linked_refuse r _ _ _)
  · next n hn =>
    split
    · exact h.of_linked (linked_refuse r _ _ _)
    · next hcheck =>
      have hpatched := h.patched hn hcheck
      dsimp only at hpatched ⊢
      generalize (if (Node.applyPatch n patch).1.dependenciesChanged = true then _ else _) = r₁
        at hpatched ⊢
      have hwide : Linked r₁ (r₁.publishWide k .updated) := linked_of_silent ⟨_, rfl⟩
      split
      · have hnarrow : Linked (r₁.publishWide k .updated)
            ((r₁.publishWide k .updated).publishNarrow k .updated) := linked_of_silent ⟨_, rfl⟩
        exact hpatched.of_linked ((hwide.trans hnarrow).trans (linked_deliver _ _ _))
      · exact hpatched.of_linked hwide

omit [LawfulNode ν] in
theorem linked_customize (r : Registry ν) (k : String) (flags : Flags) :
    Linked r (r.customize k flags).2 := by
  unfold customize
  split
  · exact (linked_of_silent (silent_publishSignal r k _ true)).trans (linked_deliver _ _ _)
  · exact linked_refuse r _ _ _

omit [LinkedNode ν] in
theorem linked_resetAll (r : Registry ν) : Linked r r.resetAll := by
  have hsorted (hs : KeyMap.Sorted r.nodes) :
      KeyMap.Sorted r.resetAll.nodes ∧ r.resetAll.size = r.size :=
    ⟨List.pairwise_map.2 hs, List.length_map _⟩
  refine ⟨⟨rfl, rfl, rfl, rfl, hsorted⟩, fun k => ?_⟩
  rw [links?, view?_resetAll, Option.map_map]
  rfl

theorem linked_clearCache (r : Registry ν) : Linked r r.clearCache :=
  (linked_resetAll r).trans (linked_settle _ _)

omit [LawfulNode ν] in
theorem linked_applyOutcome (r : Registry ν) (k : String) (outcome : CompileOutcome) :
    Linked r (r.applyOutcome k outcome) := by
  unfold applyOutcome
  split
  · cases outcome with
    | failed g missing => exact linked_of_nodes rfl rfl rfl rfl rfl
    | compiled g x =>
      dsimp only
      split
      · refine Linked.trans ?_ (linked_settle _ _)
        exact linked_of_nodes rfl rfl rfl rfl rfl
      · exact linked_of_nodes rfl rfl rfl rfl rfl
  · exact .refl r

end Registry

/-! ## Calls -/

/-- A call of a registry from outside. Nodes may be entered in any state, and outcomes may belong
to no job. -/
inductive Call (ν : Type) [Node ν] where
  | add (node : ν)
  | update (key : String) (patch : Node.Patch ν)
  | delete (key : String)
  | customize (key : String) (flags : Flags)
  | clearCache
  | apply (key : String) (outcome : CompileOutcome)
  | takeOutbox
  | collect
  /-- Others that share the compiler have changed it. -/
  | share (compiler : Compiler)

namespace Registry

variable {ν : Type} [Node ν] [NodeKind ν] {r : Registry ν}

/-- Carries out a call, whether it is refused or not. -/
def call (r : Registry ν) : Call ν → Registry ν
  | .add n => (r.add n).2
  | .update key patch => (r.update key patch).2
  | .delete key => (r.delete key).2
  | .customize key flags => (r.customize key flags).2
  | .clearCache => r.clearCache
  | .apply key outcome => r.applyOutcome key outcome
  | .takeOutbox => r.takeOutbox.2
  | .collect => r.collect.2
  | .share compiler => { r with compiler }

/-- The registry that some calls lead to. -/
def reached (config : EngineConfig) (verifier : Option Verifier) (calls : List (Call ν)) :
    Registry ν :=
  calls.foldl call (fresh config verifier)

theorem structured_fresh (config : EngineConfig) (verifier : Option Verifier) :
    Structured (fresh config verifier : Registry ν) := by
  have hlinks : ∀ k, (fresh config verifier : Registry ν).links? k = none := fun _ => rfl
  refine ⟨wired_empty config verifier, fun k e he => ?_, fun k e he => ?_, fun c => ?_⟩
  · simp [hlinks] at he
  · simp [hlinks] at he
  · simp [fresh]

variable [LawfulNode ν] [LinkedNode ν]

theorem Structured.call (h : Structured r) (c : Call ν) : Structured (r.call c) := by
  cases c with
  | add n => exact h.add n
  | update key patch => exact h.update key patch
  | delete key => exact h.delete key
  | customize key flags => exact h.of_linked (linked_customize r key flags)
  | clearCache => exact h.of_linked (linked_clearCache r)
  | apply key outcome => exact h.of_linked (linked_applyOutcome r key outcome)
  | takeOutbox | collect | share =>
    exact h.of_linked (linked_of_nodes rfl rfl rfl rfl rfl)

theorem structured_reached (config : EngineConfig) (verifier : Option Verifier)
    (calls : List (Call ν)) : Structured (reached config verifier calls) := by
  have hcalls : ∀ r : Registry ν, Structured r → Structured (calls.foldl Registry.call r) := by
    induction calls with
    | nil => exact fun _ h => h
    | cons c rest ih => exact fun r h => ih (r.call c) (h.call c)
  exact hcalls _ (structured_fresh config verifier)

end Registry

/-! ## In terms of the tables -/

namespace Registry

open Relation

variable {ν : Type} [Node ν]

/-- Does a registered node depend on another directly? -/
def DependsOn (r : Registry ν) (a b : String) : Prop :=
  ∃ n, r.get? a = some n ∧ b ∈ Node.dependencies n

/-- The tables of a registry agree. The graph has the registered keys with the dependencies that
the nodes list, and the channels are listened to by just those whom they concern. -/
structure Consistent (r : Registry ν) : Prop where
  key_eq : ∀ k n, r.get? k = some n → Node.key n = k
  dependencies?_eq : ∀ k, r.graph.dependencies? k = (r.get? k).map Node.dependencies
  acyclic : ∀ k, ¬ TransGen r.DependsOn k k
  nodup_dependencies : ∀ k n, r.get? k = some n → (Node.dependencies n).Nodup
  ne_empty : ∀ k, r.contains k = true → k ≠ ""
  owner_iff : ∀ c k, .owner k ∈ r.listenersOf c ↔ c = k ∧ r.contains k = true
  dependent_iff : ∀ c k, .dependent k ∈ r.listenersOf c ↔ r.DependsOn k c
  nodup_listeners : ∀ c, (r.listenersOf c).Nodup
  occupied : ∀ c, KeyMap.find? r.listeners c ≠ some []

variable [NodeKind ν] {r r' : Registry ν}

theorem Wired.dependsOn_iff (h : Wired r) (a b : String) :
    r.graph.DependsOn a b ↔ r.DependsOn a b := by
  rw [DependencyGraph.DependsOn, DependencyGraph.below, h.dependencies?_eq, view?, DependsOn]
  cases r.get? a with
  | none => simp
  | some n =>
    simp only [Option.map_some, Option.getD_some, Option.some.injEq, exists_eq_left']
    rfl

theorem Wired.dependsOn_eq (h : Wired r) : r.graph.DependsOn = r.DependsOn := by
  funext a b
  exact propext (h.dependsOn_iff a b)

/-- Who depends on whom is a matter of links. -/
theorem dependsOn_iff (r : Registry ν) (a b : String) :
    r.DependsOn a b ↔ ∃ e, r.links? a = some e ∧ b ∈ e.2 := by
  constructor
  · rintro ⟨n, hn, hb⟩
    exact ⟨_, by rw [links?, view?_of_get? hn, Option.map_some], hb⟩
  · rintro ⟨e, he, hb⟩
    obtain ⟨v, hv, rfl⟩ := Option.map_eq_some_iff.1 he
    obtain ⟨n, hn, rfl⟩ := exists_get? hv
    exact ⟨n, hn, hb⟩

theorem dependsOn_congr {a : String} (h : r'.links? a = r.links? a) (b : String) :
    r'.DependsOn a b ↔ r.DependsOn a b := by
  rw [dependsOn_iff, dependsOn_iff, h]

theorem contains_iff (r : Registry ν) (k : String) :
    r.contains k = true ↔ (r.view? k).isSome = true := by
  rw [contains, view?, Option.isSome_map]

theorem Structured.consistent (h : Structured r) : r.Consistent where
  key_eq k n hn := h.key_eq k _ (view?_of_get? hn)
  dependencies?_eq k := by
    rw [h.dependencies?_eq, view?, Option.map_map]
    rfl
  acyclic k := h.dependsOn_eq ▸ h.ranked.acyclic k
  nodup_dependencies k n hn := h.nodup_links k _ (by rw [links?, view?_of_get? hn]; rfl)
  ne_empty k hk := by
    obtain ⟨v, hv⟩ := Option.isSome_iff_exists.1 ((contains_iff r k).1 hk)
    exact h.ne_empty k _ (by rw [links?, hv]; rfl)
  owner_iff c k := by
    rw [h.mem_listenersOf, Listens, contains_iff, eq_comm]
  dependent_iff c k := by
    rw [h.mem_listenersOf, Listens, DependsOn]
    constructor
    · rintro ⟨v, hv, hc⟩
      obtain ⟨n, hn, rfl⟩ := exists_get? hv
      exact ⟨n, hn, hc⟩
    · rintro ⟨n, hn, hc⟩
      exact ⟨_, view?_of_get? hn, hc⟩
  nodup_listeners := h.nodup
  occupied := h.occupied

/-- A node is gone without a trace, and the subscriptions of all others are as before, be it to
its own channel. -/
structure Unlinked (r r' : Registry ν) (k : String) : Prop where
  gone : r'.contains k = false
  no_owner : ∀ c, .owner k ∉ r'.listenersOf c
  no_dependent : ∀ c, .dependent k ∉ r'.listenersOf c
  others : ∀ c l, l ≠ .owner k → l ≠ .dependent k → (l ∈ r'.listenersOf c ↔ l ∈ r.listenersOf c)

theorem Wired.unlinked (h : Wired r) (h' : Wired r') {k : String}
    (hlinks : ∀ j, r'.links? j = if j = k then none else r.links? j) : Unlinked r r' k := by
  have hgone : r'.links? k = none := by rw [hlinks, if_pos rfl]
  refine ⟨?_, fun c => ?_, fun c => ?_, fun c l hl hl' => ?_⟩
  · have hview : (r'.view? k).isSome = false := by
      rw [← Option.isSome_map, show (r'.view? k).map _ = none from hgone]
      rfl
    rw [Bool.eq_false_iff, Ne, contains_iff, hview]
    simp
  · rw [h'.mem_listenersOf, listens_iff]
    simp [hgone]
  · rw [h'.mem_listenersOf, listens_iff]
    simp [hgone]
  · rw [h'.mem_listenersOf, h.mem_listenersOf, listens_iff, listens_iff]
    cases l with
    | owner j => simp only [hlinks, if_neg (show j ≠ k from fun he => hl (he ▸ rfl))]
    | dependent j => simp only [hlinks, if_neg (show j ≠ k from fun he => hl' (he ▸ rfl))]

variable [LawfulNode ν] [LinkedNode ν]

omit [LawfulNode ν] in
theorem Structured.unlinked_delete (h : Structured r) {k : String} {n : ν}
    (hok : (r.delete k).1 = .ok n) : Unlinked r (r.delete k).2 k := by
  cases hn : r.get? k with
  | none => simp [Registry.delete, hn, refuse] at hok
  | some n =>
    cases hcheck : Node.checkDelete n with
    | error e => simp [Registry.delete, hn, hcheck, refuse] at hok
    | ok u =>
      obtain ⟨hl, m, hm, heq⟩ := exists_delete hn hcheck
      obtain ⟨hs, hlinks⟩ := (h.of_linked hl).uninstall hm
      rw [heq]
      refine h.toWired.unlinked hs.toWired fun j => ?_
      rw [hlinks, hl.links?_eq]

/-- In every registry that calls can lead to, be it one of entitlements or of profiles, the tables
agree; and a node that is deleted leaves no subscription behind, while those who depend on it go on
listening to its channel. -/
theorem consistent_reached (config : EngineConfig) (verifier : Option Verifier) :
    (∀ calls : List (Call EntitlementNode),
      let r := reached config verifier calls
      r.Consistent ∧ ∀ k n, (r.delete k).1 = .ok n → Unlinked r (r.delete k).2 k) ∧
    (∀ calls : List (Call ProfileNode),
      let r := reached config verifier calls
      r.Consistent ∧ ∀ k n, (r.delete k).1 = .ok n → Unlinked r (r.delete k).2 k) := by
  constructor
  · intro calls r
    have h : Structured r := structured_reached config verifier calls
    exact ⟨h.consistent, fun k n hok => h.unlinked_delete hok⟩
  · intro calls r
    have h : Structured r := structured_reached config verifier calls
    exact ⟨h.consistent, fun k n hok => h.unlinked_delete hok⟩

end Registry

end LayeredAccess
