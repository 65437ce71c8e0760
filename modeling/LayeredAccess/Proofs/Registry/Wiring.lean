/-
  LayeredAccess.Proofs.Registry.Wiring

  Who listens to whom. In a wired registry the graph of dependencies and the
  channels say the same as the nodes themselves, and the graph has no cycle.

  Cascades keep the wiring (`Wired.of_frame`); entering, relinking and removing
  a node keep it too. From a wired registry heights can be read off, which are
  bounded by the number of nodes and fall from dependencies to dependents
  (`Wired.exists_height`).
-/
import LayeredAccess.Proofs.Dependency.Acyclic
import LayeredAccess.Proofs.KeyMap
import LayeredAccess.Proofs.Registry.Readings
import LayeredAccess.Registry.Operations

namespace LayeredAccess

namespace Registry

variable {ν : Type}

/-! ## Subscriptions -/

theorem listenersOf_insert (r : Registry ν) (c c' : String) (ls : List Listener) :
    ({ r with listeners := KeyMap.insert r.listeners c ls } : Registry ν).listenersOf c' =
      if c = c' then ls else r.listenersOf c' := by
  simp only [listenersOf, KeyMap.find?_insert]
  split <;> rfl

/-- Subscribing adds the listener to the channel, if it is not there. -/
theorem listenersOf_subscribe (r : Registry ν) (c c' : String) (l : Listener) :
    (r.subscribe c l).listenersOf c' =
      if c = c' ∧ l ∉ r.listenersOf c then r.listenersOf c ++ [l] else r.listenersOf c' := by
  unfold subscribe
  by_cases h : l ∈ r.listenersOf c
  · simp [h]
  · simp only [h, if_false, listenersOf_insert, not_false_eq_true, and_true]

/-- Unsubscribing takes the listener off the channel. -/
theorem listenersOf_unsubscribe (r : Registry ν) (c c' : String) (l : Listener) :
    (r.unsubscribe c l).listenersOf c' =
      if c = c' then (r.listenersOf c).filter (· ≠ l) else r.listenersOf c' := by
  unfold unsubscribe
  cases hfind : KeyMap.find? r.listeners c with
  | none =>
    by_cases hc : c = c'
    · subst hc
      simp [listenersOf, hfind]
    · simp [hc]
  -- A channel that is left empty is dropped, which makes no difference to who listens.
  | some present =>
    have hpresent : r.listenersOf c = present := by rw [listenersOf, hfind]; rfl
    rw [hpresent]
    dsimp only
    split
    · next hnil =>
      rw [hnil]
      simp only [listenersOf, KeyMap.find?_erase]
      split <;> rfl
    · exact listenersOf_insert r c c' _

theorem mem_listenersOf_subscribe (r : Registry ν) (c c' : String) (l l' : Listener) :
    l' ∈ (r.subscribe c l).listenersOf c' ↔ l' ∈ r.listenersOf c' ∨ (c = c' ∧ l' = l) := by
  rw [listenersOf_subscribe]
  by_cases hc : c = c'
  · subst hc
    by_cases hl : l ∈ r.listenersOf c
    · simp only [hl, not_true_eq_false, and_false, if_false, true_and]
      exact ⟨.inl, fun h => h.elim id fun h => h ▸ hl⟩
    · simp [hl]
  · simp [hc]

theorem mem_listenersOf_unsubscribe (r : Registry ν) (c c' : String) (l l' : Listener) :
    l' ∈ (r.unsubscribe c l).listenersOf c' ↔ l' ∈ r.listenersOf c' ∧ ¬ (c = c' ∧ l' = l) := by
  rw [listenersOf_unsubscribe]
  by_cases hc : c = c'
  · subst hc
    simp
  · simp [hc]

theorem nodup_listenersOf_subscribe {r : Registry ν} (h : ∀ c, (r.listenersOf c).Nodup)
    (c : String) (l : Listener) (c' : String) : ((r.subscribe c l).listenersOf c').Nodup := by
  rw [listenersOf_subscribe]
  split
  · next hl =>
    refine List.nodup_append.2 ⟨h c, by simp, fun a ha b hb hab => ?_⟩
    obtain rfl : b = l := by simpa using hb
    exact hl.2 (hab ▸ ha)
  · exact h c'

theorem nodup_listenersOf_unsubscribe {r : Registry ν} (h : ∀ c, (r.listenersOf c).Nodup)
    (c : String) (l : Listener) (c' : String) : ((r.unsubscribe c l).listenersOf c').Nodup := by
  rw [listenersOf_unsubscribe]
  split
  · exact (h c).filter _
  · exact h c'

/-- Subscribing and unsubscribing only concern the channels. -/
theorem exists_subscribe (r : Registry ν) (c : String) (l : Listener) :
    ∃ listeners, r.subscribe c l = { r with listeners } := by
  unfold subscribe
  dsimp only
  split
  · exact ⟨r.listeners, rfl⟩
  · exact ⟨_, rfl⟩

theorem exists_unsubscribe (r : Registry ν) (c : String) (l : Listener) :
    ∃ listeners, r.unsubscribe c l = { r with listeners } := by
  unfold unsubscribe
  split
  · exact ⟨r.listeners, rfl⟩
  · split <;> exact ⟨_, rfl⟩

/-- Making a node listen only changes who listens. -/
theorem exists_subscribeAll (r : Registry ν) (k : String) (ds : List String) :
    ∃ listeners, r.subscribeAll k ds = { r with listeners } := by
  induction ds generalizing r with
  | nil => exact ⟨r.listeners, rfl⟩
  | cons d rest ih =>
    obtain ⟨ls, heq⟩ := ih (r.subscribe d (.dependent k))
    obtain ⟨ls', heq'⟩ := exists_subscribe r d (.dependent k)
    refine ⟨ls, ?_⟩
    show (r.subscribe d (.dependent k)).subscribeAll k rest = _
    rw [heq, heq']

/-- Making a node stop listening only changes who listens. -/
theorem exists_unsubscribeAll (r : Registry ν) (k : String) (ds : List String) :
    ∃ listeners, r.unsubscribeAll k ds = { r with listeners } := by
  induction ds generalizing r with
  | nil => exact ⟨r.listeners, rfl⟩
  | cons d rest ih =>
    obtain ⟨ls, heq⟩ := ih (r.unsubscribe d (.dependent k))
    obtain ⟨ls', heq'⟩ := exists_unsubscribe r d (.dependent k)
    refine ⟨ls, ?_⟩
    show (r.unsubscribe d (.dependent k)).unsubscribeAll k rest = _
    rw [heq, heq']

/-- A node with a new key that fits is entered, and told so. -/
theorem add_of_check [Node ν] {r : Registry ν} {n : ν} (hnew : r.contains (Node.key n) = false)
    (hcheck : r.graph.check (Node.key n) (Node.dependencies n) = .ok ()) :
    r.add n = (.ok (),
      ((r.install n).publishSignal (Node.key n) .added true).deliver (Node.key n) .added) := by
  simp only [Registry.add, hnew, hcheck, Bool.false_eq_true, if_false]

/-- Entering a node changes the nodes, the graph and who listens, but nothing else. -/
theorem exists_install [Node ν] (r : Registry ν) (n : ν) : ∃ listeners, r.install n =
    { r.setNode (Node.key n)
        (Node.setReadiness n (Readiness.snapshot (Node.dependencies n) r.isDependable)) with
      listeners, graph := r.graph.insert (Node.key n) (Node.dependencies n) } := by
  let r₁ : Registry ν :=
    { r.setNode (Node.key n)
        (Node.setReadiness n (Readiness.snapshot (Node.dependencies n) r.isDependable)) with
      graph := r.graph.insert (Node.key n) (Node.dependencies n) }
  obtain ⟨ls, hls⟩ := exists_subscribe r₁ (Node.key n) (.owner (Node.key n))
  obtain ⟨ls', hls'⟩ :=
    exists_subscribeAll (r₁.subscribe (Node.key n) (.owner (Node.key n))) (Node.key n)
      (Node.dependencies n)
  refine ⟨ls', Eq.trans hls' ?_⟩
  rw [hls]

/-- Moving the subscriptions of a node changes the node, the graph and who listens, but nothing
else. -/
theorem exists_relink [Node ν] (r : Registry ν) (k : String) (previous : List String) (n : ν) :
    ∃ listeners, r.relink k previous n =
      { r.setNode k
          (Node.setReadiness n (Readiness.snapshot (Node.dependencies n) r.isDependable)) with
        listeners, graph := r.graph.insert k (Node.dependencies n) } := by
  obtain ⟨ls, hls⟩ := exists_unsubscribeAll r k previous
  obtain ⟨ls', hls'⟩ := exists_subscribeAll (r.unsubscribeAll k previous) k (Node.dependencies n)
  refine ⟨ls', ?_⟩
  simp only [relink]
  rw [hls', hls]
  rfl

/-- Taking out a node forgets all that the registry has of it. -/
theorem exists_uninstall (r : Registry ν) (k : String) (ds : List String) : ∃ listeners,
    r.uninstall k ds = Registry.evict
      { r with
        nodes := KeyMap.erase r.nodes k, listeners, graph := r.graph.erase k
        generations := KeyMap.erase r.generations k
        outbox := r.outbox.filter fun c => !c.isCompileOf k } k := by
  let r₁ : Registry ν := { r with nodes := KeyMap.erase r.nodes k }
  obtain ⟨ls, hls⟩ := exists_unsubscribe r₁ k (.owner k)
  obtain ⟨ls', hls'⟩ := exists_unsubscribeAll (r₁.unsubscribe k (.owner k)) k ds
  have hr₂ : (r₁.unsubscribe k (.owner k)).unsubscribeAll k ds = { r₁ with listeners := ls' } := by
    refine Eq.trans hls' ?_
    rw [hls]
  refine ⟨ls', ?_⟩
  show Registry.evict { (r₁.unsubscribe k (.owner k)).unsubscribeAll k ds with
    graph := _, generations := _, outbox := _ } k = _
  rw [hr₂]

/-- Making a node listen to some channels. -/
theorem subscribeAll_spec (r : Registry ν) (k : String) (ds : List String)
    (h : ∀ c, (r.listenersOf c).Nodup) :
    (∀ c, ((r.subscribeAll k ds).listenersOf c).Nodup) ∧
    ∀ c l, l ∈ (r.subscribeAll k ds).listenersOf c ↔
      l ∈ r.listenersOf c ∨ (c ∈ ds ∧ l = .dependent k) := by
  induction ds generalizing r with
  | nil => exact ⟨h, by simp [subscribeAll]⟩
  | cons d rest ih =>
    obtain ⟨hnodup, hmem⟩ :=
      ih (r.subscribe d (.dependent k)) (nodup_listenersOf_subscribe h d _)
    refine ⟨hnodup, fun c l => ?_⟩
    show l ∈ ((r.subscribe d (.dependent k)).subscribeAll k rest).listenersOf c ↔ _
    rw [hmem, mem_listenersOf_subscribe, List.mem_cons, or_assoc, or_and_right, eq_comm (a := d)]

/-- Making a node stop listening to some channels. -/
theorem unsubscribeAll_spec (r : Registry ν) (k : String) (ds : List String)
    (h : ∀ c, (r.listenersOf c).Nodup) :
    (∀ c, ((r.unsubscribeAll k ds).listenersOf c).Nodup) ∧
    ∀ c l, l ∈ (r.unsubscribeAll k ds).listenersOf c ↔
      l ∈ r.listenersOf c ∧ ¬ (c ∈ ds ∧ l = .dependent k) := by
  induction ds generalizing r with
  | nil => exact ⟨h, by simp [unsubscribeAll]⟩
  | cons d rest ih =>
    obtain ⟨hnodup, hmem⟩ :=
      ih (r.unsubscribe d (.dependent k)) (nodup_listenersOf_unsubscribe h d _)
    refine ⟨hnodup, fun c l => ?_⟩
    show l ∈ ((r.unsubscribe d (.dependent k)).unsubscribeAll k rest).listenersOf c ↔ _
    rw [hmem, mem_listenersOf_unsubscribe, List.mem_cons, and_assoc, ← not_or, or_and_right,
      eq_comm (a := d)]

/-- Who listens once a node has been entered. -/
theorem listenersOf_install [Node ν] (r : Registry ν) (n : ν)
    (h : ∀ c, (r.listenersOf c).Nodup) :
    (∀ c, ((r.install n).listenersOf c).Nodup) ∧
    ∀ c l, l ∈ (r.install n).listenersOf c ↔
      (l ∈ r.listenersOf c ∨ (c = Node.key n ∧ l = .owner (Node.key n))) ∨
        (c ∈ Node.dependencies n ∧ l = .dependent (Node.key n)) := by
  let r₁ : Registry ν :=
    { r.setNode (Node.key n)
        (Node.setReadiness n (Readiness.snapshot (Node.dependencies n) r.isDependable)) with
      graph := r.graph.insert (Node.key n) (Node.dependencies n) }
  obtain ⟨hnodup, hmem⟩ :=
    subscribeAll_spec (r₁.subscribe (Node.key n) (.owner (Node.key n))) (Node.key n)
      (Node.dependencies n) (nodup_listenersOf_subscribe (r := r₁) h _ _)
  refine ⟨hnodup, fun c l => (hmem c l).trans ?_⟩
  rw [mem_listenersOf_subscribe, eq_comm (a := Node.key n)]
  rfl

/-- Who listens once the subscriptions of a node have been moved. -/
theorem listenersOf_relink [Node ν] (r : Registry ν) (k : String) (previous : List String) (n : ν)
    (h : ∀ c, (r.listenersOf c).Nodup) :
    (∀ c, ((r.relink k previous n).listenersOf c).Nodup) ∧
    ∀ c l, l ∈ (r.relink k previous n).listenersOf c ↔
      (l ∈ r.listenersOf c ∧ ¬ (c ∈ previous ∧ l = .dependent k)) ∨
        (c ∈ Node.dependencies n ∧ l = .dependent k) := by
  obtain ⟨hnodup, hmem⟩ := unsubscribeAll_spec r k previous h
  obtain ⟨hnodup', hmem'⟩ :=
    subscribeAll_spec (r.unsubscribeAll k previous) k (Node.dependencies n) hnodup
  exact ⟨hnodup', fun c l => (hmem' c l).trans (or_congr_left (hmem c l))⟩

/-- Who listens once a node has been taken out. -/
theorem listenersOf_uninstall (r : Registry ν) (k : String) (ds : List String)
    (h : ∀ c, (r.listenersOf c).Nodup) :
    (∀ c, ((r.uninstall k ds).listenersOf c).Nodup) ∧
    ∀ c l, l ∈ (r.uninstall k ds).listenersOf c ↔
      (l ∈ r.listenersOf c ∧ ¬ (c = k ∧ l = .owner k)) ∧ ¬ (c ∈ ds ∧ l = .dependent k) := by
  let r₁ : Registry ν := { r with nodes := KeyMap.erase r.nodes k }
  obtain ⟨hnodup, hmem⟩ := unsubscribeAll_spec (r₁.unsubscribe k (.owner k)) k ds
    (nodup_listenersOf_unsubscribe (r := r₁) h _ _)
  refine ⟨hnodup, fun c l => (hmem c l).trans ?_⟩
  rw [mem_listenersOf_unsubscribe, eq_comm (a := k)]
  rfl

/-! ## Wired registries -/

variable [Node ν] [NodeKind ν]

/-- Who is to listen on a channel: its node, and every node that depends on it. -/
def Listens (r : Registry ν) (c : String) : Listener → Prop
  | .owner k => k = c ∧ (r.view? k).isSome
  | .dependent k => ∃ v, r.view? k = some v ∧ c ∈ v.inputs.dependencies

/-- Graph and channels say what the nodes say, and the graph has no cycle. -/
structure Wired (r : Registry ν) : Prop where
  sorted : KeyMap.Sorted r.nodes
  key_eq : ∀ k v, r.view? k = some v → v.key = k
  dependencies?_eq : ∀ k, r.graph.dependencies? k = (r.view? k).map (·.inputs.dependencies)
  ranked : r.graph.Ranked
  mem_listenersOf : ∀ c l, l ∈ r.listenersOf c ↔ r.Listens c l
  nodup : ∀ c, (r.listenersOf c).Nodup

/-- An empty registry is wired. -/
theorem wired_empty (config : EngineConfig) (verifier : Option Verifier) :
    Wired ({ config, verifier } : Registry ν) := by
  refine ⟨KeyMap.sorted_nil, ?_, fun k => rfl, DependencyGraph.ranked_empty, ?_, ?_⟩
  · intro k v h
    simp [view?, get?] at h
  · intro c l
    cases l <;> simp [listenersOf, Listens, view?, get?]
  · intro c
    simp [listenersOf]

variable {r r' : Registry ν}

/-- The node with its key and dependencies, which is all that the wiring is about. -/
def links? (r : Registry ν) (k : String) : Option (String × List String) :=
  (r.view? k).map fun v => (v.key, v.inputs.dependencies)

theorem listens_iff (c : String) (l : Listener) : r.Listens c l ↔
    match l with
    | .owner k => k = c ∧ (r.links? k).isSome
    | .dependent k => ∃ e, r.links? k = some e ∧ c ∈ e.2 := by
  cases l with
  | owner k => simp [Listens, links?]
  | dependent k =>
    constructor
    · rintro ⟨v, hv, hc⟩
      exact ⟨(v.key, v.inputs.dependencies), by rw [links?, hv]; rfl, hc⟩
    · rintro ⟨e, he, hc⟩
      obtain ⟨v, hv, rfl⟩ := Option.map_eq_some_iff.1 he
      exact ⟨v, hv, hc⟩

/-- What leaves the keys and the dependencies of all nodes alone keeps the wiring. -/
theorem Wired.of_frame (h : Wired r) (hf : Frame r r') (hlinks : ∀ k, r'.links? k = r.links? k) :
    Wired r' := by
  have hlisteners : ∀ c, r'.listenersOf c = r.listenersOf c := by
    intro c
    rw [listenersOf, hf.listeners_eq, listenersOf]
  refine ⟨(hf.sorted h.sorted).1, fun k v hv => ?key_eq, fun k => ?dependencies_eq, ?ranked,
    fun c l => ?mem_listenersOf, fun c => ?nodup⟩
  case key_eq =>
    have hk := hlinks k
    simp only [links?, hv, Option.map_some] at hk
    obtain ⟨w, hw, he⟩ := Option.map_eq_some_iff.1 hk.symm
    rw [← h.key_eq k w hw]
    exact (congrArg Prod.fst he).symm
  case dependencies_eq =>
    have hk := congrArg (Option.map Prod.snd) (hlinks k)
    simp only [links?, Option.map_map] at hk
    rw [hf.graph_eq, h.dependencies?_eq]
    exact hk.symm
  case ranked =>
    rw [hf.graph_eq]
    exact h.ranked
  case mem_listenersOf =>
    rw [hlisteners, h.mem_listenersOf, listens_iff, listens_iff]
    simp only [hlinks]
  case nodup =>
    rw [hlisteners]
    exact h.nodup c

/-- A changed node that keeps its key and its dependencies keeps the wiring. -/
theorem Wired.of_changes {k : String} {v v' : NodeView} (h : Wired r) (hc : Changes r r' k v v')
    (hkey : v'.key = v.key) (hdeps : v'.inputs.dependencies = v.inputs.dependencies) :
    Wired r' := by
  refine h.of_frame hc.toFrame fun j => ?_
  simp only [links?, hc.view?_eq]
  split
  · next hj => rw [hj, hc.before, Option.map_some, Option.map_some, hkey, hdeps]
  · rfl

/-- The dependencies of a registered node, as the graph has them. -/
theorem Wired.below_eq (h : Wired r) {k : String} {v : NodeView} (hv : r.view? k = some v) :
    r.graph.below k = v.inputs.dependencies := by
  rw [DependencyGraph.below, h.dependencies?_eq, hv]
  rfl

/-- A node does not depend on itself. -/
theorem Wired.not_mem_self (h : Wired r) {k : String} {v : NodeView} (hv : r.view? k = some v) :
    k ∉ v.inputs.dependencies := by
  obtain ⟨rank, hrank⟩ := h.ranked
  intro hk
  have := hrank k k (by rw [h.below_eq hv]; exact hk)
  omega

omit [Node ν] [NodeKind ν] in
/-- Of the keys above a rank there are fewer than of those above a smaller one, if the larger is
the rank of a key. -/
theorem countP_lt_countP_of_mem {ks : List String} {rank : String → Nat} {a b : String}
    (ha : a ∈ ks) (hlt : rank b < rank a) :
    ks.countP (fun j => rank a < rank j) < ks.countP (fun j => rank b < rank j) := by
  induction ks with
  | nil => simp at ha
  | cons j rest ih =>
    have hle : rest.countP (fun j => rank a < rank j) ≤ rest.countP (fun j => rank b < rank j) :=
      List.countP_mono_left fun x _ hx => by simp at hx ⊢; omega
    simp only [List.countP_cons, decide_eq_true_eq]
    rcases List.mem_cons.1 ha with rfl | ha
    · rw [if_neg (by omega), if_pos hlt]
      omega
    · have := ih ha
      split <;> split <;> omega

/-- Heights fall from dependencies to dependents, and are bounded by the number of nodes. -/
theorem Wired.exists_height (h : Wired r) : ∃ height : String → Nat, (∀ k, height k ≤ r.size) ∧
    ∀ k v, r.view? k = some v → ∀ d ∈ v.inputs.dependencies, height k < height d := by
  obtain ⟨rank, hrank⟩ := h.ranked
  -- The height of a node is the number of registered nodes of larger rank.
  refine ⟨fun k => r.keys.countP fun j => rank k < rank j, fun k => ?_, fun k v hv d hd => ?_⟩
  · have := List.countP_le_length (p := fun j => decide (rank k < rank j)) (l := r.keys)
    simpa [keys, KeyMap.keys, size] using this
  · have hlt := hrank k d (by rw [h.below_eq hv]; exact hd)
    have hmem : k ∈ r.keys := by
      rw [keys, KeyMap.mem_keys_iff]
      obtain ⟨n, hn, -⟩ := exists_get? hv
      rw [show KeyMap.find? r.nodes k = some n from hn]
      rfl
    exact countP_lt_countP_of_mem hmem hlt

/-! ## Entering, relinking and removing a node -/

theorem view?_congr_nodes (h : r'.nodes = r.nodes) : r'.view? = r.view? := by
  funext k
  rw [view?, get?, h]
  rfl

/-- A node takes its place with the dependencies that it lists. -/
theorem wired_of_replaced (h : Wired r) {k : String} {v' : NodeView} (hkey : v'.key = k)
    (hview : ∀ j, r'.view? j = if j = k then some v' else r.view? j)
    (hsorted : KeyMap.Sorted r'.nodes)
    (hgraph : r'.graph = r.graph.insert k v'.inputs.dependencies)
    (hcheck : r.graph.check k v'.inputs.dependencies = .ok ())
    (hnodup : ∀ c, (r'.listenersOf c).Nodup)
    (hmem : ∀ c l, l ∈ r'.listenersOf c ↔
      (l ≠ .dependent k ∧ (l ∈ r.listenersOf c ∨ (c = k ∧ l = .owner k))) ∨
        (l = .dependent k ∧ c ∈ v'.inputs.dependencies)) : Wired r' := by
  refine ⟨hsorted, fun j v hv => ?_, fun j => ?_, ?_, fun c l => ?_, hnodup⟩
  · rw [hview] at hv
    split at hv
    · next hj =>
      obtain rfl : v' = v := by simpa using hv
      rw [hkey, hj]
    · exact h.key_eq j v hv
  · have hold := h.dependencies?_eq j
    simp only [DependencyGraph.dependencies?] at hold
    simp only [hgraph, hview, DependencyGraph.dependencies?, DependencyGraph.insert,
      KeyMap.find?_insert]
    by_cases hj : j = k
    · simp [hj]
    · simp [hj, Ne.symm hj, hold]
  · rw [hgraph]
    exact h.ranked.insert hcheck
  -- Owners listen to their own channels, and dependents to what they list.
  · rw [hmem, h.mem_listenersOf]
    cases l with
    | owner j =>
      simp only [Listens, hview, ne_eq, reduceCtorEq, not_false_eq_true, true_and, false_and,
        or_false, Listener.owner.injEq]
      by_cases hj : j = k
      · subst hj
        by_cases hc : c = j
        · simp [hc]
        · simp [hc, Ne.symm hc]
      · simp [hj]
    | dependent j =>
      simp only [Listens, hview, ne_eq, Listener.dependent.injEq, reduceCtorEq, and_false, or_false]
      by_cases hj : j = k
      · subst hj
        simp
      · simp [hj]

/-- A node is taken out, and does not listen any more. -/
theorem wired_of_removed (h : Wired r) {k : String} {v : NodeView} (hv : r.view? k = some v)
    (hview : ∀ j, r'.view? j = if j = k then none else r.view? j)
    (hsorted : KeyMap.Sorted r'.nodes) (hgraph : r'.graph = r.graph.erase k)
    (hnodup : ∀ c, (r'.listenersOf c).Nodup)
    (hmem : ∀ c l, l ∈ r'.listenersOf c ↔
      (l ∈ r.listenersOf c ∧ ¬ (c = k ∧ l = .owner k)) ∧
        ¬ (c ∈ v.inputs.dependencies ∧ l = .dependent k)) : Wired r' := by
  refine ⟨hsorted, fun j w hw => ?_, fun j => ?_, ?_, fun c l => ?_, hnodup⟩
  · rw [hview] at hw
    split at hw
    · simp at hw
    · exact h.key_eq j w hw
  · rw [hview, hgraph]
    have hold := h.dependencies?_eq j
    simp only [DependencyGraph.dependencies?, DependencyGraph.erase, KeyMap.find?_erase] at hold ⊢
    by_cases hj : j = k
    · simp [hj]
    · simp [hj, Ne.symm hj, hold]
  · rw [hgraph]
    exact h.ranked.erase k
  -- The others listen as before, and the node that is gone listens to nothing.
  · rw [hmem, h.mem_listenersOf]
    cases l with
    | owner j =>
      simp only [Listens, hview, reduceCtorEq, and_false, not_false_eq_true, and_true,
        Listener.owner.injEq]
      by_cases hj : j = k
      · subst hj
        by_cases hc : j = c
        · simp [hc]
        · simp [hc]
      · simp [hj]
    | dependent j =>
      simp only [Listens, hview, reduceCtorEq, and_false, not_false_eq_true, and_true,
        Listener.dependent.injEq]
      by_cases hj : j = k
      · subst hj
        simp [hv]
      · simp [hj]

variable [LawfulNode ν]

/-- A node that is given a snapshot of readiness is told of all its dependencies. -/
theorem view_snapshot (n : ν) (ready : String → Bool) :
    Node.view (Node.setReadiness n (Readiness.snapshot (Node.dependencies n) ready)) =
      (Node.view n).informed ready := by
  have hfind : KeyMap.find? (Readiness.snapshot (Node.dependencies n) ready) =
      fun d => if d ∈ Node.dependencies n then some (ready d) else none :=
    funext fun d => KeyMap.find?_ofList_map ready (Node.dependencies n) d
  rw [LawfulNode.view_setReadiness, hfind]
  rfl

/-- Entering a node that passes the check. -/
theorem install_spec (h : Wired r) {n : ν} (hnew : r.contains (Node.key n) = false)
    (hcheck : r.graph.check (Node.key n) (Node.dependencies n) = .ok ()) :
    Wired (r.install n) ∧
    (∀ j, (r.install n).view? j =
      if j = Node.key n then some ((Node.view n).informed r.isDependable) else r.view? j) ∧
    ∃ nodes listeners graph, r.install n = { r with nodes, listeners, graph } := by
  obtain ⟨ls, hinstall⟩ := exists_install r n
  obtain ⟨hnodup, hmem⟩ := listenersOf_install r n h.nodup
  have hview : ∀ j, (r.install n).view? j =
      if j = Node.key n then some ((Node.view n).informed r.isDependable) else r.view? j := by
    intro j
    rw [congrFun (view?_congr_nodes (congrArg Registry.nodes hinstall)) j]
    exact (view?_setNode _ _ _ _).trans (by rw [view_snapshot])
  refine ⟨?_, hview, _, ls, _, hinstall⟩
  -- No node has listened to anything under the new key.
  have hold : ∀ c, Listener.dependent (Node.key n) ∉ r.listenersOf c := by
    intro c hin
    obtain ⟨v, hv, -⟩ := (h.mem_listenersOf c _).1 hin
    simp [view?_eq_none.2 hnew] at hv
  have hkey : ((Node.view n).informed r.isDependable).key = Node.key n := rfl
  refine wired_of_replaced h hkey hview ?_ ?_ hcheck hnodup fun c l => ?_
  · rw [hinstall]
    exact KeyMap.sorted_insert _ _ h.sorted
  · rw [hinstall]
    rfl
  · rw [hmem]
    show _ ↔ _ ∨ (_ ∧ c ∈ Node.dependencies n)
    by_cases hl : l = .dependent (Node.key n)
    · subst hl
      simp [hold]
    · simp [hl]

omit [LawfulNode ν] in
/-- A node that lists the same dependencies takes the place of the one before. -/
theorem setNode_spec (h : Wired r) {k : String} {v : NodeView} {n : ν} (hv : r.view? k = some v)
    (hkey : Node.key n = k) (hdeps : Node.dependencies n = v.inputs.dependencies) :
    Wired (r.setNode k n) := by
  obtain ⟨m, hm, -⟩ := exists_get? hv
  have hsize : (r.setNode k n).size = r.size :=
    KeyMap.length_insert h.sorted (by rw [show KeyMap.find? r.nodes k = some m from hm]; rfl) n
  refine h.of_frame ⟨rfl, rfl, rfl, rfl, fun hs => ⟨KeyMap.sorted_insert k n hs, hsize⟩⟩ fun j => ?_
  rw [links?, view?_setNode, links?]
  split
  · next hj =>
    rw [hj, hv, Option.map_some, Option.map_some, h.key_eq k v hv, ← hdeps, ← hkey]
    rfl
  · rfl

/-- A node that lists other dependencies than before takes its place and is told of these. -/
theorem relink_spec (h : Wired r) {k : String} {v : NodeView} {n : ν} (hv : r.view? k = some v)
    (hkey : Node.key n = k) (hcheck : r.graph.check k (Node.dependencies n) = .ok ()) :
    let r' := (r.setNode k n).relink k v.inputs.dependencies n
    Wired r' ∧
    (∀ j, r'.view? j =
      if j = k then some ((Node.view n).informed (r.setNode k n).isDependable) else r.view? j) ∧
    ∃ nodes listeners graph, r' = { r with nodes, listeners, graph } := by
  intro r'
  obtain ⟨ls, hrelink⟩ := exists_relink (r.setNode k n) k v.inputs.dependencies n
  obtain ⟨hnodup, hmem⟩ := listenersOf_relink (r.setNode k n) k v.inputs.dependencies n h.nodup
  -- The node is set and then informed, both under its key.
  have hview : ∀ j, r'.view? j =
      if j = k then some ((Node.view n).informed (r.setNode k n).isDependable) else r.view? j := by
    intro j
    rw [congrFun (view?_congr_nodes (congrArg Registry.nodes hrelink)) j]
    refine (view?_setNode _ _ _ _).trans ?_
    rw [view?_setNode, view_snapshot]
    split <;> rfl
  refine ⟨?_, hview, _, ls, _, hrelink⟩
  have hkey' : ((Node.view n).informed (r.setNode k n).isDependable).key = k := hkey
  refine wired_of_replaced h hkey' hview ?_ ?_ hcheck hnodup fun c l => ?_
  · rw [show r' = _ from hrelink]
    exact KeyMap.sorted_insert k _ (KeyMap.sorted_insert k n h.sorted)
  · rw [show r' = _ from hrelink]
    rfl
  · -- The node listened to its former dependencies alone, and goes on to listen to itself.
    have hold : Listener.dependent k ∈ r.listenersOf c → c ∈ v.inputs.dependencies := by
      rw [h.mem_listenersOf]
      rintro ⟨w, hw, hc⟩
      obtain rfl : v = w := by simpa [hv] using hw
      exact hc
    have howner : Listener.owner k ∈ r.listenersOf k := by
      rw [h.mem_listenersOf]
      exact ⟨rfl, by rw [hv]; rfl⟩
    rw [hmem]
    show (l ∈ r.listenersOf c ∧ _) ∨ _ ↔ _ ∨ (_ ∧ c ∈ Node.dependencies n)
    by_cases hl : l = .dependent k
    · subst hl
      simp only [and_true, ne_eq, not_true_eq_false, false_and, false_or, true_and]
      exact ⟨fun hc => hc.elim (fun hc => absurd (hold hc.1) hc.2) id, .inr⟩
    · simp only [hl, and_false, not_false_eq_true, and_true, or_false, ne_eq, true_and, false_and]
      exact ⟨.inl, fun hc => hc.elim id fun hown => hown.1 ▸ hown.2 ▸ howner⟩

omit [LawfulNode ν] in
/-- Taking a node out of its place. -/
theorem uninstall_spec (h : Wired r) {k : String} {v : NodeView} (hv : r.view? k = some v) :
    let r' := r.uninstall k v.inputs.dependencies
    Wired r' ∧ (∀ j, r'.view? j = if j = k then none else r.view? j) ∧
    (∀ j, r'.compiled? j = if j = k then none else r.compiled? j) ∧
    r'.config = r.config ∧ r'.verifier = r.verifier ∧
    r'.generation = r.generation ∧ r'.generations = KeyMap.erase r.generations k ∧
    r'.outbox = r.outbox.filter (fun c => !c.isCompileOf k) ++
      if r.isDeferred = true then [.evict [k]] else [] := by
  intro r'
  obtain ⟨ls, huninstall⟩ := exists_uninstall r k v.inputs.dependencies
  obtain ⟨hnodup, hmem⟩ := listenersOf_uninstall r k v.inputs.dependencies h.nodup
  have hview : ∀ j, r'.view? j = if j = k then none else r.view? j := by
    intro j
    rw [show r' = _ from huninstall]
    show (KeyMap.find? (KeyMap.erase r.nodes k) j).map Node.view = _
    rw [KeyMap.find?_erase]
    by_cases hj : j = k
    · simp [hj]
    · simp only [hj, Ne.symm hj, if_false]
      rfl
  -- The wiring does not ask for generations or the outbox, which the removal changes too.
  have hwired : Wired r' := by
    refine wired_of_removed h hv hview ?_ ?_ hnodup hmem
    · rw [show r' = _ from huninstall]
      exact KeyMap.sorted_erase k h.sorted
    · rw [show r' = _ from huninstall]
      rfl
  rw [show r' = _ from huninstall] at hwired hview ⊢
  refine ⟨hwired, hview, fun j => ?_, rfl, rfl, rfl, rfl, ?_⟩
  · rw [compiled?_evict]
    rfl
  · show (if r.isDeferred then _ else _) = _
    cases r.isDeferred <;> simp

end Registry

end LayeredAccess
