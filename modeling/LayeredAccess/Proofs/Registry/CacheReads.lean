/-
  LayeredAccess.Proofs.Registry.CacheReads

  What an operation reads of the cache. Dependencies are looked up only if they
  are dependable, and then they are registered; so all that is ever read is
  what is cached of registered nodes.

  Two registries that differ in their compilers, but have the same cached of
  their nodes, are twins. Steps and cascades do the same to both (`Twin.step`,
  `Twin.settle`), and so do operations (`Twin.operate`).
-/
import LayeredAccess.Proofs.Registry.CacheWrites

namespace LayeredAccess.Registry

variable {ν : Type} {r r' : Registry ν} {k : String}

/-! ## Registries around other compilers -/

/-- The registry around another compiler. -/
def around (r : Registry ν) (compiler : Compiler) : Registry ν := { r with compiler }

theorem subscribe_around (r : Registry ν) (c : Compiler) (channel : String) (l : Listener) :
    (r.around c).subscribe channel l = (r.subscribe channel l).around c := by
  have hpresent : (r.around c).listenersOf channel = r.listenersOf channel := rfl
  simp only [subscribe, hpresent]
  split <;> rfl

theorem unsubscribe_around (r : Registry ν) (c : Compiler) (channel : String) (l : Listener) :
    (r.around c).unsubscribe channel l = (r.unsubscribe channel l).around c := by
  have hlisteners : (r.around c).listeners = r.listeners := rfl
  simp only [unsubscribe, hlisteners]
  cases KeyMap.find? r.listeners channel with
  | none => rfl
  | some present =>
    dsimp only
    cases present.filter (· ≠ l) <;> rfl

theorem subscribeAll_around (r : Registry ν) (c : Compiler) (key : String) (ds : List String) :
    (r.around c).subscribeAll key ds = (r.subscribeAll key ds).around c := by
  induction ds generalizing r with
  | nil => rfl
  | cons d rest ih =>
    show ((r.around c).subscribe d (.dependent key)).subscribeAll key rest = _
    rw [subscribe_around, ih]
    rfl

theorem unsubscribeAll_around (r : Registry ν) (c : Compiler) (key : String) (ds : List String) :
    (r.around c).unsubscribeAll key ds = (r.unsubscribeAll key ds).around c := by
  induction ds generalizing r with
  | nil => rfl
  | cons d rest ih =>
    show ((r.around c).unsubscribe d (.dependent key)).unsubscribeAll key rest = _
    rw [unsubscribe_around, ih]
    rfl

theorem install_around [Node ν] (r : Registry ν) (c : Compiler) (n : ν) :
    (r.around c).install n = (r.install n).around c := by
  let r₁ : Registry ν :=
    { r.setNode (Node.key n)
        (Node.setReadiness n (Readiness.snapshot (Node.dependencies n) r.isDependable)) with
      graph := r.graph.insert (Node.key n) (Node.dependencies n) }
  show ((r₁.around c).subscribe (Node.key n) (.owner (Node.key n))).subscribeAll (Node.key n)
    (Node.dependencies n) = _
  rw [subscribe_around, subscribeAll_around]
  rfl

theorem relink_around [Node ν] (r : Registry ν) (c : Compiler) (key : String)
    (previous : List String) (n : ν) :
    (r.around c).relink key previous n = (r.relink key previous n).around c := by
  simp only [relink]
  rw [unsubscribeAll_around, subscribeAll_around]
  rfl

/-- A node is taken out, and what the other compiler has cached of it is dropped. -/
theorem uninstall_around (r : Registry ν) (c : Compiler) (key : String) (ds : List String) :
    (r.around c).uninstall key ds = (r.uninstall key ds).around (c.evict [key]).2 := by
  let r₁ : Registry ν := { r with nodes := KeyMap.erase r.nodes key }
  have hdetached : ((r₁.around c).unsubscribe key (.owner key)).unsubscribeAll key ds =
      ((r₁.unsubscribe key (.owner key)).unsubscribeAll key ds).around c := by
    rw [unsubscribe_around, unsubscribeAll_around]
  exact congrArg (fun s : Registry ν => Registry.evict
    { s with
      graph := s.graph.erase key
      generations := KeyMap.erase s.generations key
      outbox := s.outbox.filter fun c => !c.isCompileOf key } key) hdetached

/-! ## Twins -/

/-- The second registry is like the first, but for its compiler, which has cached of the nodes what
the compiler of the first has. -/
def Twin (r r' : Registry ν) : Prop :=
  ∃ c, r' = r.around c ∧ ∀ k, r.contains k = true → c.get? k = r.compiled? k

theorem Twin.refl (r : Registry ν) : Twin r r := ⟨r.compiler, rfl, fun _ _ => rfl⟩

theorem Twin.compiled?_eq (h : Twin r r') (hk : r.contains k = true) :
    r'.compiled? k = r.compiled? k := by
  obtain ⟨c, rfl, hc⟩ := h
  exact hc k hk

theorem Twin.get?_eq (h : Twin r r') (k : String) : r'.get? k = r.get? k := by
  obtain ⟨c, rfl, -⟩ := h
  rfl

theorem Twin.contains_eq (h : Twin r r') (k : String) : r'.contains k = r.contains k := by
  rw [contains, h.get?_eq, contains]

theorem Twin.graph_eq (h : Twin r r') : r'.graph = r.graph := by
  obtain ⟨c, rfl, -⟩ := h
  rfl

theorem Twin.config_eq (h : Twin r r') : r'.config = r.config := by
  obtain ⟨c, rfl, -⟩ := h
  rfl

theorem Twin.verifier_eq (h : Twin r r') : r'.verifier = r.verifier := by
  obtain ⟨c, rfl, -⟩ := h
  rfl

theorem Twin.isDependable_eq [Node ν] (h : Twin r r') : r'.isDependable = r.isDependable := by
  obtain ⟨c, rfl, -⟩ := h
  rfl

/-- What is told on a channel is the same. -/
theorem Twin.dispatch_eq (h : Twin r r') (channel : String) (s : Signal) (origin : Origin) :
    r'.dispatch channel s origin = r.dispatch channel s origin := by
  obtain ⟨c, rfl, -⟩ := h
  rfl

/-- Twins that change alike, and not in their compilers, remain twins if the same is cached of all
nodes there are afterwards. -/
theorem Twin.map {f : Registry ν → Registry ν} (h : Twin r r')
    (haround : ∀ c, f (r.around c) = (f r).around c) (hcompiler : (f r).compiler = r.compiler)
    (hcached : ∀ k, (f r).contains k = true → r'.compiled? k = r.compiled? k) :
    Twin (f r) (f r') := by
  obtain ⟨c, rfl, -⟩ := h
  refine ⟨c, haround c, fun k hk => ?_⟩
  rw [compiled?, hcompiler]
  exact hcached k hk

/-- The same is cached of the nodes and of one key besides. -/
theorem Twin.compiled?_eq_of_or {key : String} (h : Twin r r')
    (hkey : r'.compiled? key = r.compiled? key)
    (hk : (decide (k = key) || r.contains k) = true) : r'.compiled? k = r.compiled? k := by
  rcases Bool.or_eq_true_iff.1 hk with hk | hk
  · exact of_decide_eq_true hk ▸ hkey
  · exact h.compiled?_eq hk

/-! ## Single changes -/

theorem Twin.publish (h : Twin r r') (a : Action) : Twin (r.publish a) (r'.publish a) :=
  h.map (f := (·.publish a)) (fun _ => rfl) rfl fun _ hk => h.compiled?_eq hk

theorem Twin.publishSignal [Node ν] (h : Twin r r') (key : String) (s : Signal) (wide : Bool) :
    Twin (r.publishSignal key s wide) (r'.publishSignal key s wide) := by
  have hnarrow : Twin (r.publishNarrow key s) (r'.publishNarrow key s) := h.publish _
  unfold Registry.publishSignal
  dsimp only
  split
  · exact hnarrow.publish _
  · exact hnarrow

theorem Twin.setNode (h : Twin r r') {key : String} (n : ν) (hkey : r.contains key = true) :
    Twin (r.setNode key n) (r'.setNode key n) :=
  h.map (f := (·.setNode key n)) (fun _ => rfl) rfl fun k hk =>
    h.compiled?_eq_of_or (h.compiled?_eq hkey) ((contains_setNode r key n k).symm.trans hk)

theorem Twin.evict (h : Twin r r') (key : String) : Twin (r.evict key) (r'.evict key) := by
  obtain ⟨c, rfl, hc⟩ := h
  refine ⟨(c.evict [key]).2, rfl, fun k hk => ?_⟩
  rw [compiled?_evict, Compiler.get?_evict]
  simp only [List.mem_singleton]
  split
  · rfl
  · exact hc k hk

variable [Node ν]

/-- What is cached of a node that is entered has to be the same. -/
theorem Twin.install (h : Twin r r') (n : ν)
    (hkey : r'.compiled? (Node.key n) = r.compiled? (Node.key n)) :
    Twin (r.install n) (r'.install n) := by
  refine h.map (f := (·.install n)) (fun c => install_around r c n) ?_ fun k hk =>
    h.compiled?_eq_of_or hkey ((contains_install r n k).symm.trans hk)
  obtain ⟨ls, hinstall⟩ := exists_install r n
  rw [hinstall]
  rfl

theorem Twin.relink (h : Twin r r') {key : String} (previous : List String) (n : ν)
    (hkey : r.contains key = true) :
    Twin (r.relink key previous n) (r'.relink key previous n) := by
  refine h.map (f := (·.relink key previous n)) (fun c => relink_around r c key previous n) ?_
    fun k hk => h.compiled?_eq_of_or (h.compiled?_eq hkey)
      ((contains_relink r key previous n k).symm.trans hk)
  obtain ⟨ls, hrelink⟩ := exists_relink r key previous n
  rw [hrelink]
  rfl

omit [Node ν] in
theorem Twin.uninstall (h : Twin r r') (key : String) (ds : List String) :
    Twin (r.uninstall key ds) (r'.uninstall key ds) := by
  obtain ⟨c, rfl, hc⟩ := h
  refine ⟨(c.evict [key]).2, uninstall_around r c key ds, fun k hk => ?_⟩
  rw [contains_uninstall, Bool.and_eq_true, decide_eq_true_eq] at hk
  rw [compiled?_uninstall, if_neg hk.2, Compiler.get?_evict, if_neg (by simpa using hk.2)]
  exact hc k hk.1

/-! ## Steps -/

theorem Twin.tell (h : Twin r r') (key : String) (notice : Notice) :
    Twin (r.tell key notice).1 (r'.tell key notice).1 ∧
      (r'.tell key notice).2 = (r.tell key notice).2 := by
  simp only [Registry.tell, h.get?_eq]
  cases hn : r.get? key with
  | none => exact ⟨h, rfl⟩
  | some n =>
    have hset := h.setNode (answer n notice).2 (contains_of_get? hn)
    dsimp only
    refine ⟨?_, rfl⟩
    split
    · exact hset.evict key
    · exact hset

theorem requestCompile_eq_of_deferred {key : String} {n : ν} (hn : r.get? key = some n)
    (hmissing : (Node.dependencies n).filter (fun d => !r.isDependable d) = [])
    (hmode : r.config.compileMode = .deferred) :
    r.requestCompile key = ((r.bumpGeneration key).2.queueJob (r.nextJob key n), []) := by
  have hbumped : (r.bumpGeneration key).2.config.compileMode = r.config.compileMode := rfl
  simp only [Registry.requestCompile, hn, hmissing, hbumped, hmode]
  rfl

theorem requestCompile_eq_of_inline {key : String} {n : ν} (hn : r.get? key = some n)
    (hmissing : (Node.dependencies n).filter (fun d => !r.isDependable d) = [])
    (hmode : r.config.compileMode = .inline) :
    r.requestCompile key =
      let r₁ := (r.bumpGeneration key).2.around (r.compiler.compile (r.nextJob key n)).2
      match (r.compiler.compile (r.nextJob key n)).1 with
      | .ok value => r₁.completeCompile key value
      | .error missing =>
        (r₁.publishError "Compile Error" key (.missingDependency key missing), []) := by
  have hbumped : (r.bumpGeneration key).2.config.compileMode = r.config.compileMode := rfl
  simp only [Registry.requestCompile, hn, hmissing, hbumped, hmode]
  rfl

/-- A job that is compiled on the spot has only registered dependencies, so that twins give it the
same value. -/
theorem Twin.requestCompile_inline {key : String} {n : ν} (h : Twin r r')
    (hn : r.get? key = some n)
    (hmissing : (Node.dependencies n).filter (fun d => !r.isDependable d) = [])
    (hmode : r.config.compileMode = .inline) :
    Twin (r.requestCompile key).1 (r'.requestCompile key).1 ∧
      (r'.requestCompile key).2 = (r.requestCompile key).2 := by
  obtain ⟨c, rfl, hc⟩ := h
  -- Dependable nodes are registered, so the caches agree on them.
  have hdeps : ∀ d ∈ (r.nextJob key n).dependencies, c.get? d = r.compiler.get? d := by
    intro d hd
    have hdependable : r.isDependable d = true := by
      simpa using List.filter_eq_nil_iff.1 hmissing d hd
    exact hc d (contains_of_isDependable hdependable)
  obtain ⟨hresult, hcached⟩ := Compiler.compile_congr hdeps
  have hresult' : ((r.around c).compiler.compile ((r.around c).nextJob key n)).1 =
      (r.compiler.compile (r.nextJob key n)).1 := hresult
  have htwin : Twin ((r.bumpGeneration key).2.around (r.compiler.compile (r.nextJob key n)).2)
      (((r.around c).bumpGeneration key).2.around (c.compile (r.nextJob key n)).2) :=
    ⟨_, rfl, fun k hk => hcached k (hc k hk)⟩
  rw [requestCompile_eq_of_inline hn hmissing hmode,
    requestCompile_eq_of_inline (r := r.around c) hn hmissing hmode]
  dsimp only
  rw [hresult']
  cases (r.compiler.compile (r.nextJob key n)).1 with
  | ok value => exact ⟨htwin.publishSignal key (.compiled value) false, rfl⟩
  | error missing => exact ⟨htwin.publish _, rfl⟩

theorem Twin.requestCompile (h : Twin r r') (key : String) :
    Twin (r.requestCompile key).1 (r'.requestCompile key).1 ∧
      (r'.requestCompile key).2 = (r.requestCompile key).2 := by
  -- The checks read nothing of the cache, so both take the same branch.
  cases hn : r.get? key with
  | none =>
    simp only [Registry.requestCompile, h.get?_eq, hn]
    exact ⟨h, trivial⟩
  | some n =>
    cases hmissing : (Node.dependencies n).filter fun d => !r.isDependable d with
    | cons d ds =>
      simp only [Registry.requestCompile, h.get?_eq, h.isDependable_eq, hn, hmissing]
      exact ⟨h.publish _, trivial⟩
    | nil =>
      cases hmode : r.config.compileMode with
      | inline => exact h.requestCompile_inline hn hmissing hmode
      | deferred =>
        rw [requestCompile_eq_of_deferred hn hmissing hmode, requestCompile_eq_of_deferred
          (h.get?_eq key ▸ hn) (h.isDependable_eq ▸ hmissing) (h.config_eq ▸ hmode)]
        obtain ⟨c, rfl, hc⟩ := h
        exact ⟨⟨c, rfl, hc⟩, rfl⟩

theorem Twin.validate (h : Twin r r') (key : String) :
    Twin (r.validate key).1 (r'.validate key).1 ∧ (r'.validate key).2 = (r.validate key).2 := by
  simp only [Registry.validate, h.get?_eq, h.verifier_eq]
  cases r.get? key with
  | none => exact ⟨h, rfl⟩
  | some n =>
    cases hvalue : Node.compiled n with
    | none =>
      simp only [hvalue]
      exact ⟨h, trivial⟩
    | some value =>
      simp only [hvalue]
      split
      · exact ⟨h, rfl⟩
      · exact ⟨h.publish _, rfl⟩

theorem Twin.perform (h : Twin r r') (key : String) (effect : Effect) :
    Twin (r.perform key effect).1 (r'.perform key effect).1 ∧
      (r'.perform key effect).2 = (r.perform key effect).2 := by
  cases effect with
  | compile => exact h.requestCompile key
  | broadcast s wide =>
    have htold := h.publishSignal key s wide
    exact ⟨htold, htold.dispatch_eq key s (.node key)⟩
  | validate => exact h.validate key
  | announce =>
    simp only [Registry.perform, announce, h.get?_eq]
    cases (r.get? key).bind Node.compiled with
    | none => exact ⟨h, trivial⟩
    | some value => exact ⟨h.publish _, trivial⟩

theorem Twin.step (h : Twin r r') (t : Task) :
    Twin (r.step t).1 (r'.step t).1 ∧ (r'.step t).2 = (r.step t).2 := by
  cases t with
  | tell key notice => exact h.tell key notice
  | perform key effect => exact h.perform key effect

/-- Cascades take the same course. -/
theorem Twin.settle (h : Twin r r') (tasks : List Task) :
    Twin (r.settle tasks) (r'.settle tasks) := by
  have hbound : r'.cascadeBound tasks = r.cascadeBound tasks := by
    obtain ⟨c, rfl, -⟩ := h
    rfl
  rw [Registry.settle, Registry.settle, hbound]
  exact Agenda.run_corresponds (fun _ _ t h => h.step t) _ r r' tasks h

/-! ## Operations -/

theorem Twin.customize (h : Twin r r') (key : String) (flags : Flags) :
    Twin (r.customize key flags).2 (r'.customize key flags).2 := by
  simp only [Registry.customize, h.contains_eq]
  split
  · exact (h.publishSignal key (.customized flags) true).settle _
  · exact h.publish _

theorem Twin.update (h : Twin r r') (key : String) (patch : Node.Patch ν) :
    Twin (r.update key patch).2 (r'.update key patch).2 := by
  have hcheck : ∀ n, r'.checkUpdate key n patch = r.checkUpdate key n patch := by
    intro n
    rw [checkUpdate, h.graph_eq, checkUpdate]
  simp only [Registry.update, h.get?_eq, hcheck]
  cases hn : r.get? key with
  | none => exact h.publish _
  | some n =>
    dsimp only
    cases r.checkUpdate key n patch with
    | error e => exact h.publish _
    | ok u =>
      let after := (Node.applyPatch n patch).2
      have hset : Twin (r.setNode key after) (r'.setNode key after) :=
        h.setNode after (contains_of_get? hn)
      have hself : (r.setNode key after).contains key = true :=
        (contains_setNode r key after key).trans (by simp)
      -- The links are moved only if the dependencies have changed.
      have hplaced : ∀ moved : Bool, Twin
          (if moved then (r.setNode key after).relink key (Node.dependencies n) after
            else r.setNode key after)
          (if moved then (r'.setNode key after).relink key (Node.dependencies n) after
            else r'.setNode key after) := by
        intro moved
        cases moved with
        | true => exact hset.relink (Node.dependencies n) after hself
        | false => exact hset
      have hknown := (hplaced (Node.applyPatch n patch).1.dependenciesChanged).publish
        { kind := actionKind ν Signal.updated.label, payload := some (.mkObj [("id", .str key)]) }
      dsimp only
      split
      · exact (hknown.publish _).settle _
      · exact hknown

theorem Twin.delete (h : Twin r r') (key : String) : Twin (r.delete key).2 (r'.delete key).2 := by
  simp only [Registry.delete, h.get?_eq]
  cases r.get? key with
  | none => exact h.publish _
  | some n =>
    dsimp only
    cases Node.checkDelete n with
    | error e => exact h.publish _
    | ok u =>
      have htold := h.publishSignal key .deleted true
      have hsettled := htold.settle
        ((r.publishSignal key .deleted true).dispatch key .deleted .registry)
      simp only [htold.dispatch_eq, hsettled.get?_eq]
      split
      · exact hsettled
      · exact hsettled.uninstall key _

theorem Twin.clearCache (h : Twin r r') : Twin r.clearCache r'.clearCache := by
  obtain ⟨c, rfl, -⟩ := h
  have hreset : Twin r.resetAll (r.around c).resetAll := ⟨c.clear, rfl, fun _ _ => rfl⟩
  exact hreset.settle _

variable [NodeKind ν] [LinkedNode ν]

theorem Twin.add (h : Twin r r') (n : ν)
    (hkey : r'.contains (Node.key n) = false → (r'.add n).2.contains (Node.key n) = true →
      r'.compiled? (Node.key n) = r.compiled? (Node.key n)) :
    Twin (r.add n).2 (r'.add n).2 := by
  simp only [Registry.add, h.contains_eq, h.graph_eq] at hkey ⊢
  cases hnew : r.contains (Node.key n) with
  | true => exact h.publish _
  | false =>
    simp only [Bool.false_eq_true, if_false, hnew] at hkey ⊢
    cases hcheck : r.graph.check (Node.key n) (Node.dependencies n) with
    | error e => exact h.publish _
    | ok u =>
      simp only [hcheck] at hkey ⊢
      have hentered : ((r'.install n).publishSignal (Node.key n) .added true).contains
          (Node.key n) = true := (contains_install r' n _).trans (by simp)
      have hcached := hkey trivial (((linked_deliver _ _ _).contains_eq _).trans hentered)
      exact ((h.install n hcached).publishSignal (Node.key n) .added true).settle _

/-- Operations do the same to both, if the same is cached of nodes that are entered. -/
theorem Twin.operate (h : Twin r r') (operation : Operation ν)
    (hnew : ∀ k, r'.contains k = false → (r'.operate operation).contains k = true →
      r'.compiled? k = r.compiled? k) : Twin (r.operate operation) (r'.operate operation) := by
  cases operation with
  | add definition => exact h.add _ (hnew _)
  | update key patch => exact h.update key patch
  | delete key => exact h.delete key
  | customize key flags => exact h.customize key flags
  | clearCache => exact h.clearCache

end LayeredAccess.Registry
