/-
  LayeredAccess.Proofs.Registry.Sparing

  What a registry has of one node: the node itself, its cached value, its
  compile requests, and what those who follow it have been told. A node is
  spared when all of this stays as it is (`Spared`), as it does in whatever
  concerns another node.
-/
import LayeredAccess.Proofs.Registry.CallSteps
import LayeredAccess.Proofs.Registry.Steps

namespace LayeredAccess.Registry

variable {ν : Type}

/-! ## Nodes that are spared -/

/-- The compile requests for a node that wait to be fetched. -/
def jobsOf (r : Registry ν) (key : String) : List CompilerCommand :=
  r.outbox.filter (·.isCompileOf key)

/-- The actions that those who follow a node have been told, oldest first. -/
def actionsOf (r : Registry ν) (key : String) : List Action :=
  r.published.filter fun a => a.route = .id key

/-- Nothing has happened to a node: it is the same with all it has recorded, and so is what the
registry keeps of it and has told of it. -/
structure Spared (r r' : Registry ν) (key : String) : Prop where
  get?_eq : r'.get? key = r.get? key
  compiled?_eq : r'.compiled? key = r.compiled? key
  generation_eq : KeyMap.find? r'.generations key = KeyMap.find? r.generations key
  jobsOf_eq : r'.jobsOf key = r.jobsOf key
  actionsOf_eq : r'.actionsOf key = r.actionsOf key

variable {r r' r'' : Registry ν} {k n : String}

theorem Spared.refl (r : Registry ν) (n : String) : Spared r r n := ⟨rfl, rfl, rfl, rfl, rfl⟩

theorem Spared.trans (h : Spared r r' n) (h' : Spared r' r'' n) : Spared r r'' n :=
  ⟨h'.get?_eq.trans h.get?_eq, h'.compiled?_eq.trans h.compiled?_eq,
    h'.generation_eq.trans h.generation_eq, h'.jobsOf_eq.trans h.jobsOf_eq,
    h'.actionsOf_eq.trans h.actionsOf_eq⟩

/-! ## What concerns another node -/

theorem spared_publish (r : Registry ν) {a : Action} (h : a.route ≠ .id n) :
    Spared r (r.publish a) n := by
  refine ⟨rfl, rfl, rfl, rfl, ?_⟩
  simp [actionsOf, publish, h]

theorem spared_bumpGeneration (r : Registry ν) (h : n ≠ k) :
    Spared r (r.bumpGeneration k).2 n := by
  refine ⟨rfl, rfl, ?_, rfl, rfl⟩
  show KeyMap.find? (KeyMap.insert r.generations k _) n = _
  rw [KeyMap.find?_insert, if_neg (Ne.symm h)]

/-- A command that compiles one node compiles no other. -/
theorem filter_isCompileOf_filter_not (h : n ≠ k) (commands : List CompilerCommand) :
    (commands.filter fun c => !c.isCompileOf k).filter (·.isCompileOf n) =
      commands.filter (·.isCompileOf n) := by
  rw [List.filter_filter]
  refine List.filter_congr fun c _ => ?_
  cases c with
  | compile job =>
    by_cases hn : job.id = n
    · simp [CompilerCommand.isCompileOf, hn, h]
    · simp [CompilerCommand.isCompileOf, hn]
  | evict | clear => rfl

theorem spared_queueJob (r : Registry ν) {job : CompileJob} (h : n ≠ job.id) :
    Spared r (r.queueJob job) n := by
  refine ⟨rfl, rfl, rfl, ?_, rfl⟩
  have hjob : (CompilerCommand.compile job).isCompileOf n = false := by
    simpa [CompilerCommand.isCompileOf] using Ne.symm h
  show (_ ++ [CompilerCommand.compile job]).filter _ = _
  rw [List.filter_append, filter_isCompileOf_filter_not h]
  simp [hjob, jobsOf]

/-- The compiler does something that leaves the cached value of a node alone. -/
theorem spared_compiler (r : Registry ν) {compiler : Compiler}
    (h : compiler.get? n = r.compiler.get? n) : Spared r { r with compiler } n :=
  ⟨rfl, h, rfl, rfl, rfl⟩

theorem spared_evict (r : Registry ν) (h : n ≠ k) : Spared r (r.evict k) n := by
  refine ⟨rfl, ?_, rfl, ?_, rfl⟩
  · rw [compiled?_evict, if_neg h]
  · show List.filter _ (if r.isDeferred then r.outbox ++ [.evict [k]] else r.outbox) = _
    split
    · simp [List.filter_append, jobsOf, CompilerCommand.isCompileOf]
    · rfl

theorem spared_nodes (r : Registry ν) {nodes : KeyMap String ν}
    (h : KeyMap.find? nodes n = r.get? n) (listeners : KeyMap String (List Listener))
    (graph : DependencyGraph) : Spared r { r with nodes, listeners, graph } n :=
  ⟨h, rfl, rfl, rfl, rfl⟩

theorem spared_setNode (r : Registry ν) (m : ν) (h : n ≠ k) : Spared r (r.setNode k m) n := by
  refine ⟨?_, rfl, rfl, rfl, rfl⟩
  show KeyMap.find? (KeyMap.insert r.nodes k m) n = _
  rw [KeyMap.find?_insert, if_neg (Ne.symm h)]
  rfl

variable [Node ν]

theorem spared_reshape (r : Registry ν) (before after : ν) (h : n ≠ k) :
    Spared r (r.reshape k before after) n := by
  unfold reshape
  split
  · exact (spared_setNode r after h).trans (spared_evict _ h)
  · exact spared_setNode r after h

theorem spared_publishNarrow (r : Registry ν) (s : Signal) (h : n ≠ k) :
    Spared r (r.publishNarrow k s) n :=
  spared_publish r fun he => h (Channel.id.inj he).symm

theorem spared_publishWide (r : Registry ν) (s : Signal) : Spared r (r.publishWide k s) n :=
  spared_publish r fun he => Channel.noConfusion he

theorem spared_publishSignal (r : Registry ν) (s : Signal) (wide : Bool) (h : n ≠ k) :
    Spared r (r.publishSignal k s wide) n := by
  unfold publishSignal
  split
  · exact (spared_publishNarrow r s h).trans (spared_publishWide _ s)
  · exact spared_publishNarrow r s h

theorem spared_publishError (r : Registry ν) (label : String) (e : EngineError) :
    Spared r (r.publishError label k e) n :=
  spared_publish r fun he => Channel.noConfusion he

theorem spared_install (r : Registry ν) (m : ν) (h : n ≠ Node.key m) :
    Spared r (r.install m) n := by
  obtain ⟨ls, hinstall⟩ := exists_install r m
  rw [hinstall]
  exact spared_nodes r (spared_setNode r _ h).get?_eq ls _

theorem spared_patched (r : Registry ν) (before : ν) (patch : Node.Patch ν) (h : n ≠ k) :
    Spared r (r.patched k before patch) n := by
  obtain ⟨nodes, listeners, graph, hpatched, hother⟩ := exists_patched r k before patch
  rw [hpatched]
  exact ((spared_nodes r (hother n h) listeners graph).trans (spared_publishWide _ .updated)).trans
    (spared_publishNarrow _ .updated h)

omit [Node ν] in
theorem spared_uninstall (r : Registry ν) (ds : List String) (h : n ≠ k) :
    Spared r (r.uninstall k ds) n := by
  obtain ⟨ls, huninstall⟩ := exists_uninstall r k ds
  let r₁ : Registry ν :=
    { r with
      nodes := KeyMap.erase r.nodes k, listeners := ls, graph := r.graph.erase k
      generations := KeyMap.erase r.generations k
      outbox := r.outbox.filter fun c => !c.isCompileOf k }
  have herased : Spared r r₁ n := by
    refine ⟨?_, rfl, ?_, filter_isCompileOf_filter_not h r.outbox, rfl⟩
    · show KeyMap.find? (KeyMap.erase r.nodes k) n = _
      rw [KeyMap.find?_erase, if_neg (Ne.symm h)]
      rfl
    · show KeyMap.find? (KeyMap.erase r.generations k) n = _
      rw [KeyMap.find?_erase, if_neg (Ne.symm h)]
  rw [huninstall]
  exact herased.trans (spared_evict r₁ h)

end LayeredAccess.Registry
