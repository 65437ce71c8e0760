/-
  LayeredAccess.Proofs.Registry.Compilation

  What is compiled when values are merged on the spot, and from what.

  An operation tells of all losses before it compiles anything (`Ascends`), and
  compiling then only adds to what is there. So every request to compile a node
  can be met (`Unerring`), no node is compiled twice, and none from values that
  are replaced later on (`GlitchFree`).
-/
import LayeredAccess.Proofs.Registry.CascadePhases

namespace LayeredAccess.Registry

variable {ν : Type} [Node ν] [NodeKind ν] {verifier : Option Verifier} {r r' r'' : Registry ν}
  {k : String} {n : ν} {t : Task} {tasks : List Task}

/-! ## Nothing fails -/

/-- A registry that compiles on the spot, and has met every request to compile a node. -/
structure Flawless (r : Registry ν) : Prop where
  isDeferred_eq : r.isDeferred = false
  failures_eq : r.compiler.failures = 0
  outbox_eq : r.outbox = []
  kind_ne : ∀ a ∈ r.published, a.kind ≠ actionKind ν "Compile Error"

/-- Between two moments no node has been compiled, nor has been asked for in vain. -/
structure Idle (r r' : Registry ν) : Prop where
  isDeferred_eq : r'.isDeferred = r.isDeferred
  failures_eq : r'.compiler.failures = r.compiler.failures
  compilations_eq : r'.compiler.compilations = r.compiler.compilations
  outbox_eq : r.isDeferred = false → r.outbox = [] → r'.outbox = []
  kind_ne : ∀ a ∈ r'.published, a ∈ r.published ∨ a.kind ≠ actionKind ν "Compile Error"

section Requests

omit [NodeKind ν]

theorem Idle.flawless (h : Idle r r') (hr : Flawless r) : Flawless r' where
  isDeferred_eq := h.isDeferred_eq.trans hr.isDeferred_eq
  failures_eq := h.failures_eq.trans hr.failures_eq
  outbox_eq := h.outbox_eq hr.isDeferred_eq hr.outbox_eq
  kind_ne a ha := (h.kind_ne a ha).elim (hr.kind_ne a) id

theorem Idle.refl (r : Registry ν) : Idle r r := ⟨rfl, rfl, rfl, fun _ h => h, fun _ => .inl⟩

theorem Idle.trans (h : Idle r r') (h' : Idle r' r'') : Idle r r'' where
  isDeferred_eq := h'.isDeferred_eq.trans h.isDeferred_eq
  failures_eq := h'.failures_eq.trans h.failures_eq
  compilations_eq := h'.compilations_eq.trans h.compilations_eq
  outbox_eq hmode hnil := h'.outbox_eq (h.isDeferred_eq.trans hmode) (h.outbox_eq hmode hnil)
  kind_ne a ha := (h'.kind_ne a ha).elim (h.kind_ne a) .inr

/-- What leaves the compiler, the outbox and the actions alone compiles nothing. -/
theorem idle_of_same (hconfig : r'.config = r.config) (hcompiler : r'.compiler = r.compiler)
    (houtbox : r'.outbox = r.outbox) (hpublished : r'.published = r.published) : Idle r r' := by
  refine ⟨?_, congrArg Compiler.failures hcompiler, congrArg Compiler.compilations hcompiler,
    fun _ hnil => houtbox.trans hnil, fun a ha => .inl (hpublished ▸ ha)⟩
  rw [isDeferred, hconfig, isDeferred]

theorem idle_publish (r : Registry ν) {a : Action} (ha : a.kind ≠ actionKind ν "Compile Error") :
    Idle r (r.publish a) := by
  refine ⟨rfl, rfl, rfl, fun _ hnil => hnil, fun b hb => ?_⟩
  rcases List.mem_append.1 hb with hold | hnew
  · exact .inl hold
  · obtain rfl := List.mem_singleton.1 hnew
    exact .inr ha

theorem actionKind_ne {label : String} (h : label ≠ "Compile Error") :
    actionKind ν label ≠ actionKind ν "Compile Error" := fun he => h (actionKind_inj.1 he)

theorem label_ne (s : Signal) : s.label ≠ "Compile Error" := by
  cases s <;> simp [Signal.label]

theorem idle_publishWide (r : Registry ν) (key : String) (s : Signal) :
    Idle r (r.publishWide key s) :=
  idle_publish r (actionKind_ne (label_ne s))

theorem idle_publishSignal (r : Registry ν) (key : String) (s : Signal) (wide : Bool) :
    Idle r (r.publishSignal key s wide) := by
  have hnarrow : Idle r (r.publishNarrow key s) :=
    idle_publish r (actionKind_ne (label_ne s))
  unfold publishSignal
  split
  · exact hnarrow.trans (idle_publishWide _ key s)
  · exact hnarrow

theorem idle_evict (r : Registry ν) (key : String) : Idle r (r.evict key) := by
  refine ⟨rfl, rfl, rfl, fun hmode hnil => ?_, fun a ha => .inl ha⟩
  show (if r.isDeferred then r.outbox ++ [.evict [key]] else r.outbox) = []
  rw [hmode, if_neg Bool.false_ne_true, hnil]

theorem idle_reshape (r : Registry ν) (key : String) (before after : ν) :
    Idle r (r.reshape key before after) := by
  have hset : Idle r (r.setNode key after) := idle_of_same rfl rfl rfl rfl
  unfold reshape
  split
  · exact hset.trans (idle_evict _ key)
  · exact hset

/-- Only requests to compile a node lead to compiling. -/
theorem idle_step (r : Registry ν) (ht : compileKey? t = none) : Idle r (r.step t).1 := by
  have hstep := steps_step r t
  generalize (r.step t).1 = r₁, (r.step t).2 = more at hstep ⊢
  cases hstep with
  | absent | valueless | validated => exact .refl r
  | told => exact idle_reshape r _ _ _
  | broadcast => exact idle_publishSignal r _ _ _
  | announced => exact idle_publish r (directoryPublish_ne_actionKind (by decide) (by decide))
  | rejected => exact idle_publish r (actionKind_ne (by decide))
  | unregistered | lacking | queued | uncached | compiled => simp [compileKey?] at ht

/-- A request for a node that may be compiled is met. -/
theorem Prepared.met (h : Prepared r k n) (hr : Flawless r) :
    Flawless (r.step (.perform k .compile)).1 ∧
      (r.step (.perform k .compile)).1.compiler.compilations = r.compiler.compilations + 1 := by
  have hstep := steps_step r (.perform k .compile)
  generalize (r.step (.perform k .compile)).1 = r₁, (r.step (.perform k .compile)).2 = more
    at hstep ⊢
  -- The compiler looks for values in the cache, not at the nodes.
  have hmissing : r.compiler.missing (r.nextJob k n) = [] :=
    (Compiler.missing_eq_nil_iff _ _).2 h.isCached
  have hcompile := Compiler.compile_of_missing_nil hmissing
  have hsome := h.get?_eq
  have hsame : ∀ {m : ν}, r.get? k = some m → m = n :=
    fun hm => Option.some.inj (hm.symm.trans hsome)
  cases hstep with
  | valueless he => simp at he
  | unregistered hn => simp [hn] at hsome
  | lacking hn hlacks =>
    obtain rfl := hsame hn
    refine absurd (List.filter_eq_nil_iff.2 fun d hd => ?_) hlacks
    simp [h.isDependable d hd]
  | queued hn hdeps hmode =>
    have hinline := hr.isDeferred_eq
    rw [isDeferred, hmode] at hinline
    simp at hinline
  | uncached hn hdeps hmode hresult =>
    obtain rfl := hsame hn
    rw [hcompile] at hresult
    simp at hresult
  | compiled hn hdeps hmode hresult =>
    obtain rfl := hsame hn
    rw [hcompile]
    refine ⟨(idle_publishSignal _ _ _ _).flawless ?_, (idle_publishSignal _ _ _ _).compilations_eq⟩
    exact ⟨hr.isDeferred_eq, hr.failures_eq, hr.outbox_eq, hr.kind_ne⟩

/-- A step of a flawless registry in which a node is only compiled when it may be. -/
theorem Flawless.step (h : Flawless r)
    (hmet : ∀ k, t = .perform k .compile → ∃ n, Prepared r k n) :
    Flawless (r.step t).1 ∧ (r.step t).1.compiler.compilations =
      r.compiler.compilations + (compileKey? t).toList.length := by
  cases hkey : compileKey? t with
  | none =>
    have hidle := idle_step r hkey
    exact ⟨hidle.flawless h, hidle.compilations_eq⟩
  | some k =>
    obtain rfl := eq_compile_of_compileKey? hkey
    obtain ⟨n, hprepared⟩ := hmet k rfl
    exact hprepared.met h

theorem idle_patched (r : Registry ν) (key : String) (before : ν) (patch : Node.Patch ν) :
    Idle r (r.patched key before patch) := by
  obtain ⟨nodes, listeners, graph, hpatched, -⟩ := exists_patched r key before patch
  have hplaced : Idle r ({ r with nodes, listeners, graph } : Registry ν) :=
    idle_of_same rfl rfl rfl rfl
  rw [hpatched]
  exact (hplaced.trans (idle_publishWide _ key .updated)).trans
    (idle_publish _ (actionKind_ne (label_ne .updated)))

theorem idle_resetAll (r : Registry ν) (hmode : r.isDeferred = false) : Idle r r.resetAll := by
  have hcleared : Idle r
      { r with
        compiler := r.compiler.clear
        outbox := if r.isDeferred then [.clear] else r.outbox
        nodes := KeyMap.mapValues Node.reset r.nodes } := by
    refine ⟨rfl, rfl, rfl, fun _ hnil => ?_, fun a ha => .inl ha⟩
    rw [hmode, if_neg Bool.false_ne_true, hnil]
  exact hcleared.trans (idle_publish _ (actionKind_ne (by decide)))

theorem idle_uninstall (r : Registry ν) (key : String) (ds : List String) :
    Idle r (r.uninstall key ds) := by
  obtain ⟨ls, huninstall⟩ := exists_uninstall r key ds
  let r₁ : Registry ν :=
    { r with
      nodes := KeyMap.erase r.nodes key, listeners := ls, graph := r.graph.erase key
      generations := KeyMap.erase r.generations key
      outbox := r.outbox.filter fun c => !c.isCompileOf key }
  have herased : Idle r r₁ := by
    refine ⟨rfl, rfl, rfl, fun _ hnil => ?_, fun a ha => .inl ha⟩
    show r.outbox.filter _ = []
    rw [hnil, List.filter_nil]
  rw [huninstall]
  exact herased.trans (idle_evict r₁ key)

end Requests

/-- No operation begins by compiling. -/
theorem idle_opening (hmode : r.isDeferred = false) (operation : Operation ν) :
    Idle r (r.opening operation.toCall).1 := by
  have hopens := opens_opening r operation.toCall
  generalize (r.opening operation.toCall).1 = r', (r.opening operation.toCall).2 = tasks at hopens
  generalize hcall : operation.toCall = c at hopens
  cases hopens with
  | refused label e hlabel => exact idle_publish r (actionKind_ne hlabel)
  -- The tables change. What is counted does not.
  | @entered n =>
    obtain ⟨ls, hinstall⟩ := exists_install r n
    have hplaced : Idle r (r.install n) := by
      rw [hinstall]
      exact idle_of_same rfl rfl rfl rfl
    exact hplaced.trans (idle_publishSignal _ _ _ _)
  | @adopted key patch n =>
    have hplaced : Idle r (r.setNode key (Node.applyPatch n patch).2) :=
      idle_of_same rfl rfl rfl rfl
    exact hplaced.trans (idle_publishWide _ _ _)
  | patched => exact idle_patched r _ _ _
  | deleted | customized => exact idle_publishSignal r _ _ _
  | cleared => exact idle_resetAll r hmode
  | stale | failed | unmet | arrived | fetched | collected | shared =>
    cases operation <;> simp [Operation.toCall] at hcall

theorem idle_closing (r settled : Registry ν) (operation : Operation ν) :
    Idle settled (r.closing settled operation.toCall) := by
  cases operation with
  | add | update | customize | clearCache => exact .refl settled
  | delete key =>
    show Idle settled (if r.deletable key then _ else settled)
    split
    · cases settled.get? key with
      | none => exact .refl settled
      | some n => exact idle_uninstall settled key _
    · exact .refl settled

/-! ## What is compiled, and from what -/

/-- The nodes that are compiled in the course of an operation, in order. -/
def compiledKeys (r : Registry ν) (operation : Operation ν) : List String :=
  (r.course operation.toCall).filterMap fun m => compileKey? m.2

/-- A node holds a value, which is cached. -/
structure Holds (r : Registry ν) (key : String) (value : Json) : Prop where
  node : (r.get? key).bind Node.compiled = some value
  cache : r.compiled? key = some value

theorem Steady.compiled?_eq_bind (h : Steady verifier r) (key : String) :
    r.compiled? key = (r.get? key).bind Node.compiled := by
  rw [h.compiled?_eq, value?, view?]
  cases r.get? key <;> rfl

theorem Steady.holds_iff (h : Steady verifier r) {key : String} {x : Json} :
    r.Holds key x ↔ r.compiled? key = some x := by
  refine ⟨Holds.cache, fun hx => ⟨?_, hx⟩⟩
  rw [← h.compiled?_eq_bind, hx]

/-- How tasks are done that lead to another registry: each node is compiled once at most, when it
may be, and from values that its dependencies keep. -/
structure Compiles (r : Registry ν) (tasks : List Task) (r' : Registry ν) : Prop where
  nodup : ((Agenda.moments step (r.cascadeBound tasks) r tasks).filterMap
    fun m => compileKey? m.2).Nodup
  met : ∀ m ∈ Agenda.moments step (r.cascadeBound tasks) r tasks, ∀ k, m.2 = .perform k .compile →
    ∃ n, Prepared m.1 k n ∧ ∀ d ∈ Node.dependencies n, ∃ x, m.1.Holds d x ∧ r'.Holds d x

variable [LawfulNode ν] [LinkedNode ν]

/-- A node that is compiled in a rising cascade may be, and its dependencies keep their values. -/
theorem ClimbsOn.met {width bound limit : Nat} {height : String → Nat} {m : Registry ν × Task}
    (h : ClimbsOn verifier width height bound r tasks)
    (hend : Agenda.run Registry.step limit r tasks = (r', []))
    (hm : m ∈ Agenda.moments Registry.step limit r tasks) (hk : m.2 = .perform k .compile) :
    ∃ n, Prepared m.1 k n ∧ ∀ d ∈ Node.dependencies n, ∃ x, m.1.Holds d x ∧ r'.Holds d x := by
  obtain ⟨more, hnow⟩ := Agenda.forall_mem_moments (fun _ _ _ h => ClimbsOn.step h) h m hm
  rw [hk] at hnow
  have hrising := hnow.2.rising_of_compile
  -- At the end the cache and the nodes agree again.
  have hlast := Agenda.run_preserves (fun _ _ _ h => ClimbsOn.step h) limit r tasks h
  rw [hend] at hlast
  have hrested := hlast.2.rising_of_nil
  obtain ⟨⟨n, hprepared⟩, -⟩ := hrising.prepared
  refine ⟨n, hprepared, fun d hd => ?_⟩
  obtain ⟨x, hx⟩ := Option.isSome_iff_exists.1 (hprepared.isCached d hd)
  have hkept := filling_compiled?.kept_of_mem_moments h hm hx
  rw [hend] at hkept
  exact ⟨x, hrising.steady.holds_iff.2 hx, hrested.steady.holds_iff.2 hkept⟩

/-- What is compiled in a cascade that falls before it rises is compiled as it rises. -/
theorem Ascends.compiles (h : Ascends verifier r tasks) (hmode : r.isDeferred = false)
    (hend : Agenda.run step (r.cascadeBound tasks) r tasks = (r', [])) : Compiles r tasks r' := by
  obtain ⟨steps, hle, mid, left, hrun, hquiet, width, height, bound, hrising⟩ := h
  obtain ⟨rest, hrest⟩ := Nat.exists_eq_add_of_le hle
  -- A step changes no mode, so values are still merged on the spot when the cascade rises.
  have hmid : mid.isDeferred = false := by
    have hlinked := linked_run steps r tasks
    rw [hrun] at hlinked
    exact hlinked.isDeferred_eq.trans hmode
  have hclimbs : ClimbsOn verifier width height bound mid left := ⟨hmid, .rising hrising⟩
  have hlater : Agenda.run step rest mid left = (r', []) := by
    rw [hrest, Agenda.run_add, hrun] at hend
    exact hend
  have hsplit : Agenda.moments step (r.cascadeBound tasks) r tasks =
      Agenda.moments step steps r tasks ++ Agenda.moments step rest mid left := by
    rw [hrest, Agenda.moments_add, hrun]
  constructor
  · rw [hsplit, List.filterMap_append, List.filterMap_eq_nil_iff.2 hquiet, List.nil_append]
    exact (filling_compiled?.filled_spec rest hclimbs).1
  · intro m hm k hk
    rw [hsplit] at hm
    rcases List.mem_append.1 hm with hfalling | hclimbing
    · have hnone := hquiet m hfalling
      simp [hk, compileKey?] at hnone
    · exact ClimbsOn.met hclimbs hlater hclimbing hk

/-! ## Operations -/

/-- A registry that compiles on the spot, between two operations. -/
structure Orderly (verifier : Option Verifier) (r : Registry ν) : Prop where
  coherent : Coherent verifier r
  structured : Structured r
  flawless : Flawless r

variable [CandidNode ν]

theorem Orderly.compiles (h : Orderly verifier r) (operation : Operation ν) :
    Compiles (r.opening operation.toCall).1 (r.opening operation.toCall).2
      ((r.opening operation.toCall).1.settle (r.opening operation.toCall).2) := by
  have hbegun := (idle_opening h.flawless.isDeferred_eq operation).flawless h.flawless
  exact (h.coherent.ascends_opening operation).compiles hbegun.isDeferred_eq
    (h.structured.exists_settled operation.toCall)

/-- In every step of an operation, requests to compile a node are met and counted. -/
theorem Orderly.flawless_step (h : Orderly verifier r) (operation : Operation ν)
    {m : Registry ν × Task} (hm : m ∈ r.course operation.toCall) (hflawless : Flawless m.1) :
    Flawless (step m.1 m.2).1 ∧ (step m.1 m.2).1.compiler.compilations =
      m.1.compiler.compilations + (compileKey? m.2).toList.length := by
  refine hflawless.step fun k hk => ?_
  obtain ⟨n, hprepared, -⟩ := (h.compiles operation).met m hm k hk
  exact ⟨n, hprepared⟩

/-- An operation leaves a flawless registry behind, and its compilations have been counted. -/
theorem Orderly.flawless_operate (h : Orderly verifier r) (operation : Operation ν) :
    Flawless (r.operate operation) ∧ (r.operate operation).compiler.compilations =
      r.compiler.compilations + (r.compiledKeys operation).length := by
  have hbegun := idle_opening h.flawless.isDeferred_eq operation
  obtain ⟨hmoments, hsettled⟩ := Agenda.forall_moments_of (hbegun.flawless h.flawless)
    fun m hm hflawless => (h.flawless_step operation hm hflawless).1
  have hcount := Agenda.count_of_moments (fun s => s.compiler.compilations) compileKey?
    fun m hm => (h.flawless_step operation hm (hmoments m hm)).2
  -- A node that has been told of its deletion is still to be taken out.
  have hclosing := idle_closing r
    ((r.opening operation.toCall).1.settle (r.opening operation.toCall).2) operation
  rw [← call_eq_closing, ← operate_eq_call] at hclosing
  refine ⟨hclosing.flawless hsettled, ?_⟩
  rw [hclosing.compilations_eq, ← hbegun.compilations_eq]
  exact hcount

omit [LawfulNode ν] [LinkedNode ν] [CandidNode ν] in
/-- A fresh registry that compiles on the spot. -/
theorem orderly_fresh (sandbox : SandboxConfig) (verifier : Option Verifier) :
    Orderly verifier (fresh { compileMode := .inline, sandbox } verifier : Registry ν) where
  coherent := coherent_fresh _ verifier
  structured := structured_fresh _ verifier
  flawless := ⟨rfl, rfl, rfl, fun _ ha => absurd ha List.not_mem_nil⟩

theorem Orderly.operate (h : Orderly verifier r) (operation : Operation ν) :
    Orderly verifier (r.operate operation) where
  coherent := (h.coherent.sound_operate operation).coherent
  structured := operate_eq_call r operation ▸ h.structured.call operation.toCall
  flawless := (h.flawless_operate operation).1

theorem Orderly.operateAll (h : Orderly verifier r) (operations : List (Operation ν)) :
    Orderly verifier (r.operateAll operations) := by
  induction operations generalizing r with
  | nil => exact h
  | cons operation rest ih => exact ih (h.operate operation)

/-! ## Requests that are met -/

/-- No request has failed, and none will, whatever is done next: a node is only asked to be
compiled when it may be. -/
structure Unerring (r : Registry ν) : Prop extends Flawless r where
  prepared : ∀ operation : Operation ν, ∀ m ∈ r.course operation.toCall, ∀ k,
    m.2 = .perform k .compile → ∃ n, Prepared m.1 k n

theorem Orderly.unerring (h : Orderly verifier r) : Unerring r where
  toFlawless := h.flawless
  prepared operation m hm k hk := by
    obtain ⟨n, hprepared, -⟩ := (h.compiles operation).met m hm k hk
    exact ⟨n, hprepared⟩

/-- A registry that compiles on the spot never lacks a dependency, be it one of entitlements or of
profiles. Generations do not wrap: this is about fewer than `2 ^ 64` compile requests. -/
theorem unerring_operateAll (sandbox : SandboxConfig) (verifier : Option Verifier) :
    (∀ operations : List (Operation EntitlementNode),
      Unerring ((fresh { compileMode := .inline, sandbox } verifier).operateAll operations)) ∧
    (∀ operations : List (Operation ProfileNode),
      Unerring ((fresh { compileMode := .inline, sandbox } verifier).operateAll operations)) :=
  ⟨fun operations => ((orderly_fresh sandbox verifier).operateAll operations).unerring,
    fun operations => ((orderly_fresh sandbox verifier).operateAll operations).unerring⟩

/-! ## Values that stay -/

/-- How a registry compiles, whatever is done to it next. -/
structure GlitchFree (r : Registry ν) : Prop where
  /-- No node is compiled twice. -/
  nodup : ∀ operation : Operation ν, (r.compiledKeys operation).Nodup
  /-- The compiler counts what is compiled, and nothing else. -/
  compilations_eq : ∀ operation : Operation ν, (r.operate operation).compiler.compilations =
    r.compiler.compilations + (r.compiledKeys operation).length
  /-- When a node is compiled, its dependencies hold the values that they hold in the end. -/
  settled : ∀ operation : Operation ν, ∀ m ∈ r.course operation.toCall, ∀ k,
    m.2 = .perform k .compile → ∃ n, m.1.get? k = some n ∧ ∀ d ∈ Node.dependencies n,
      ∃ x, m.1.Holds d x ∧ (r.operate operation).Holds d x
  delete : ∀ key, r.compiledKeys (.delete key) = []
  /-- Clearing the cache compiles just the nodes that hold a value in the end. -/
  clearCache : ∀ k, k ∈ r.compiledKeys .clearCache ↔
    ((r.operate .clearCache).get? k).any Node.isCompiled = true

/-- Deleting a node compiles nothing. -/
theorem Structured.compiledKeys_delete (h : Structured r) (key : String) :
    r.compiledKeys (.delete key) = [] := by
  have hlosses : ∀ t ∈ (r.opening (.delete key)).2, t.Proper ∧ t.IsLoss := by
    have hopens := opens_opening r (.delete key)
    have hproper := hopens.proper
    generalize (r.opening (.delete key)).1 = r', (r.opening (.delete key)).2 = tasks
      at hopens hproper ⊢
    intro t ht
    refine ⟨hproper t ht, ?_⟩
    cases hopens with
    | refused => simp at ht
    | deleted => exact isLoss_of_mem_dispatch (.inr rfl) ht
  refine List.filterMap_eq_nil_iff.2 fun m hm => ?_
  exact ((h.opening (.delete key)).isLoss_of_mem_moments hlosses hm).compileKey?_eq

/-- Clearing the cache compiles each node that it leaves with a value. -/
theorem Orderly.mem_compiledKeys_clearCache (h : Orderly verifier r) (key : String) :
    key ∈ r.compiledKeys .clearCache ↔
      ((r.operate .clearCache).get? key).any Node.isCompiled = true := by
  obtain ⟨height, hrising⟩ := h.coherent.rising_roots
  have hmode : r.resetAll.isDeferred = false := h.flawless.isDeferred_eq
  have hfilled := (filling_compiled?.filled_spec
    ((r.opening .clearCache).1.cascadeBound (r.opening .clearCache).2)
    (⟨hmode, .rising hrising⟩ : ClimbsOn _ _ _ _ _ _)).2 key
  have hsteady := (h.operate .clearCache).coherent.toSteady
  have hnone : r.resetAll.compiled? key = none := rfl
  refine hfilled.trans ?_
  rw [hnone, eq_self, true_and]
  change ((r.operate .clearCache).compiled? key).isSome = true ↔ _
  rw [hsteady.compiled?_eq_bind]
  cases (r.operate .clearCache).get? key <;> rfl

theorem Orderly.glitchFree (h : Orderly verifier r) : GlitchFree r where
  nodup operation := (h.compiles operation).nodup
  compilations_eq operation := (h.flawless_operate operation).2
  settled operation m hm k hk := by
    obtain ⟨n, hprepared, hstay⟩ := (h.compiles operation).met m hm k hk
    refine ⟨n, hprepared.get?_eq, ?_⟩
    cases operation with
    | add | update | customize | clearCache =>
      rw [operate_eq_call, call_eq_closing]
      exact hstay
    | delete key =>
      -- Nothing is compiled when a node is deleted.
      have hkey : k ∈ r.compiledKeys (.delete key) :=
        List.mem_filterMap.2 ⟨m, hm, by rw [hk]; rfl⟩
      rw [h.structured.compiledKeys_delete] at hkey
      simp at hkey
  delete := h.structured.compiledKeys_delete
  clearCache := h.mem_compiledKeys_clearCache

/-- A registry that compiles on the spot compiles no node twice in one operation, and none from
values that are replaced in the same operation, be it one of entitlements or of profiles.
Generations do not wrap: this is about fewer than `2 ^ 64` compile requests. -/
theorem glitchFree_operateAll (sandbox : SandboxConfig) (verifier : Option Verifier) :
    (∀ operations : List (Operation EntitlementNode),
      GlitchFree ((fresh { compileMode := .inline, sandbox } verifier).operateAll operations)) ∧
    (∀ operations : List (Operation ProfileNode),
      GlitchFree ((fresh { compileMode := .inline, sandbox } verifier).operateAll operations)) :=
  ⟨fun operations => ((orderly_fresh sandbox verifier).operateAll operations).glitchFree,
    fun operations => ((orderly_fresh sandbox verifier).operateAll operations).glitchFree⟩

end LayeredAccess.Registry
