/-
  LayeredAccess.Proofs.Registry.Readings

  What can be read off a registry, and what the parts of a cascade do to it.

  A registry is read through the views of its nodes, its cache, its outbox and
  its generations. `tell_eq` says what it means for them that a node is told
  something; the other theorems are about the effects that nodes ask for.
-/
import LayeredAccess.Proofs.Compiler
import LayeredAccess.Proofs.KeyMap
import LayeredAccess.Proofs.Node.View

namespace LayeredAccess

namespace NodeView

/-- Does the node hold a value before and none afterwards? -/
def Loses (v v' : NodeView) : Prop := v.compiled.isSome = true ∧ v'.compiled = none

instance (v v' : NodeView) : Decidable (v.Loses v') := inferInstanceAs (Decidable (_ ∧ _))

end NodeView

namespace Registry

variable {ν : Type} [Node ν] [NodeKind ν]

/-- What can be seen of a node, if it is registered. -/
def view? (r : Registry ν) (k : String) : Option NodeView := (r.get? k).map Node.view

/-- The value that a node holds. -/
def value? (r : Registry ν) (k : String) : Option Json := (r.view? k).bind (·.compiled)

omit [Node ν] [NodeKind ν] in
/-- Does a value comply with the schema that it has to comply with? -/
def accepts (verifier : Option Verifier) (resource : Option String) (value : Json) : Bool :=
  match verifier, resource with
  | some verify, some resource => (verify resource value).isOk
  | _, _ => true

omit [Node ν] [NodeKind ν] in
@[simp] theorem accepts_none (verifier : Option Verifier) (value : Json) :
    accepts verifier none value = true := by
  cases verifier <;> rfl

theorem view?_of_get? {r : Registry ν} {k : String} {n : ν} (h : r.get? k = some n) :
    r.view? k = some (Node.view n) := by
  rw [view?, h, Option.map_some]

theorem exists_get? {r : Registry ν} {k : String} {v : NodeView} (h : r.view? k = some v) :
    ∃ n, r.get? k = some n ∧ Node.view n = v := by
  simpa [view?] using h

theorem view?_eq_none {r : Registry ν} {k : String} : r.view? k = none ↔ r.contains k = false := by
  rw [view?, Option.map_eq_none_iff, contains, Option.isSome_eq_false_iff,
    Option.isNone_iff_eq_none]

theorem view?_setNode (r : Registry ν) (k : String) (n : ν) (j : String) :
    (r.setNode k n).view? j = if j = k then some (Node.view n) else r.view? j := by
  simp only [view?, get?, setNode, KeyMap.find?_insert]
  by_cases h : j = k
  · simp [h]
  · simp [h, Ne.symm h]

theorem isDependable_eq [LawfulNode ν] (r : Registry ν) (k : String) :
    r.isDependable k = (r.view? k).any NodeView.dependable := by
  rw [isDependable, view?]
  cases r.get? k with
  | none => rfl
  | some n => exact LawfulNode.isDependable_eq n

/-- The dependability of a node depends on its view alone. -/
theorem isDependable_congr [LawfulNode ν] {r r' : Registry ν} {k : String}
    (h : r'.view? k = r.view? k) : r'.isDependable k = r.isDependable k := by
  rw [isDependable_eq, isDependable_eq, h]

omit [Node ν] [NodeKind ν] in
theorem compiled?_evict (r : Registry ν) (k j : String) :
    (r.evict k).compiled? j = if j = k then none else r.compiled? j := by
  show (r.compiler.evict [k]).2.get? j = _
  rw [Compiler.get?_evict]
  simp only [List.mem_singleton]
  rfl

/-! ## What stays -/

/-- What no cascade touches. -/
structure Frame (r r' : Registry ν) : Prop where
  config_eq : r'.config = r.config
  verifier_eq : r'.verifier = r.verifier
  listeners_eq : r'.listeners = r.listeners
  graph_eq : r'.graph = r.graph
  sorted : KeyMap.Sorted r.nodes → KeyMap.Sorted r'.nodes ∧ r'.size = r.size

omit [Node ν] [NodeKind ν] in
theorem Frame.refl (r : Registry ν) : Frame r r := ⟨rfl, rfl, rfl, rfl, fun h => ⟨h, rfl⟩⟩

omit [Node ν] [NodeKind ν] in
theorem Frame.trans {r r' r'' : Registry ν} (h : Frame r r') (h' : Frame r' r'') : Frame r r'' :=
  ⟨h'.config_eq.trans h.config_eq, h'.verifier_eq.trans h.verifier_eq,
    h'.listeners_eq.trans h.listeners_eq, h'.graph_eq.trans h.graph_eq, fun hs =>
      ⟨(h'.sorted (h.sorted hs).1).1, (h'.sorted (h.sorted hs).1).2.trans (h.sorted hs).2⟩⟩

omit [Node ν] [NodeKind ν] in
theorem Frame.isDeferred_eq {r r' : Registry ν} (h : Frame r r') :
    r'.isDeferred = r.isDeferred := by
  rw [isDeferred, h.config_eq, isDeferred]

/-- One node comes to look different, and loses its cached value if it loses its value. -/
structure Changes (r r' : Registry ν) (k : String) (v v' : NodeView) : Prop extends
    Frame r r' where
  before : r.view? k = some v
  view?_eq : ∀ j, r'.view? j = if j = k then some v' else r.view? j
  compiled?_eq : ∀ j, r'.compiled? j = if j = k ∧ v.Loses v' then none else r.compiled? j
  outbox_eq : r'.outbox =
    r.outbox ++ if v.Loses v' ∧ r.isDeferred = true then [.evict [k]] else []
  generation_eq : r'.generation = r.generation
  generations_eq : r'.generations = r.generations

/-! ## Telling a node -/

/-- A value is evicted when its node has lost it. -/
theorem isCompiled_and_not_iff (n after : ν) :
    (Node.isCompiled n && !Node.isCompiled after) = true ↔
      (Node.view n).Loses (Node.view after) := by
  rw [Bool.and_eq_true, Bool.not_eq_true', Node.isCompiled, Node.isCompiled,
    Option.isSome_eq_false_iff, Option.isNone_iff_eq_none]
  rfl

/-- What a node answers decides how it looks afterwards and which effects it asks for. -/
theorem tell_eq {r : Registry ν} {k : String} {n : ν} {notice : Notice} {effects : List Effect}
    {v' : NodeView} (hn : r.get? k = some n) (hr : Node.Reacts n notice effects v') :
    ∃ r', r.tell k notice = (r', effects.map (.perform k)) ∧ Changes r r' k (Node.view n) v' := by
  obtain ⟨heffects, hview⟩ := hr
  generalize ha : answer n notice = a at heffects hview
  obtain ⟨es, after⟩ := a
  obtain rfl : es = effects := heffects
  obtain rfl : Node.view after = v' := hview
  have htell : r.tell k notice =
      (if Node.isCompiled n && !Node.isCompiled after then (r.setNode k after).evict k
        else r.setNode k after, es.map (.perform k)) := by
    simp [tell, hn, ha]
  have hview := view?_of_get? hn
  have hsorted : KeyMap.Sorted r.nodes →
      KeyMap.Sorted (r.setNode k after).nodes ∧ (r.setNode k after).size = r.size :=
    fun hs => ⟨KeyMap.sorted_insert k after hs,
      KeyMap.length_insert hs (by rw [show KeyMap.find? r.nodes k = some n from hn]; rfl) after⟩
  refine ⟨_, htell, ?_⟩
  -- Only a node that loses its value has it evicted.
  by_cases hloses : (Node.view n).Loses (Node.view after)
  · rw [if_pos ((isCompiled_and_not_iff n after).2 hloses)]
    refine ⟨⟨rfl, rfl, rfl, rfl, hsorted⟩, hview, view?_setNode r k after, fun j => ?_, ?_,
      rfl, rfl⟩
    · simp only [hloses, and_true]
      exact compiled?_evict (r.setNode k after) k j
    · show (if r.isDeferred then r.outbox ++ [.evict [k]] else r.outbox) = _
      cases r.isDeferred <;> simp [hloses]
  · rw [if_neg (mt (isCompiled_and_not_iff n after).1 hloses)]
    refine ⟨⟨rfl, rfl, rfl, rfl, hsorted⟩, hview, view?_setNode r k after, fun j => ?_, ?_,
      rfl, rfl⟩
    · simp only [hloses, and_false, if_false]
      rfl
    · simp only [hloses, false_and, if_false, List.append_nil]
      rfl

/-! ## Publishing -/

/-- Publishing changes nothing but what has been published. -/
def Silent (r r' : Registry ν) : Prop := ∃ published, r' = { r with published }

omit [NodeKind ν] in
theorem silent_publishSignal (r : Registry ν) (k : String) (s : Signal) (wide : Bool) :
    Silent r (r.publishSignal k s wide) := by
  unfold publishSignal
  split <;> exact ⟨_, rfl⟩

omit [Node ν] [NodeKind ν] in
theorem Silent.listenersOf_eq {r r' : Registry ν} (h : Silent r r') (c : String) :
    r'.listenersOf c = r.listenersOf c := by
  obtain ⟨published, rfl⟩ := h
  rfl

omit [NodeKind ν] in
theorem silent_announce (r : Registry ν) (k : String) : Silent r (r.announce k) := by
  unfold announce
  split <;> exact ⟨_, rfl⟩

/-! ## Compiling and verifying -/

/-- A value of a node has come into the cache, and requests of the node that are out are
superseded. The node has not been told yet. -/
structure Delivered (r r' : Registry ν) (k : String) (x : Json) : Prop extends Frame r r' where
  nodes_eq : r'.nodes = r.nodes
  compiled?_eq : ∀ j, r'.compiled? j = if j = k then some x else r.compiled? j
  outbox_eq : r'.outbox = r.outbox
  generation_eq : r'.generation = r.generation + 1
  generations_eq : r'.generations = KeyMap.insert r.generations k (r.generation + 1)

variable {r : Registry ν} {k : String} {n : ν}

omit [NodeKind ν] in
/-- The job of a node whose dependencies are dependable is queued if compiling is deferred. -/
theorem requestCompile_deferred (hn : r.get? k = some n)
    (hdeps : ∀ d ∈ Node.dependencies n, r.isDependable d = true) (hmode : r.isDeferred = true) :
    r.requestCompile k =
      ((r.bumpGeneration k).2.queueJob
        { id := k, generation := r.generation + 1, dependencies := Node.dependencies n
          layers := Node.layers n }, []) := by
  have hmissing : (Node.dependencies n).filter (fun d => !r.isDependable d) = [] := by
    simpa [List.filter_eq_nil_iff] using hdeps
  have hmode' : r.config.compileMode = .deferred := by simpa [isDeferred] using hmode
  simp only [requestCompile, hn, hmissing]
  rw [show (r.bumpGeneration k).2.config.compileMode = .deferred from hmode']
  rfl

omit [NodeKind ν] in
/-- Otherwise the value of the node comes at once. -/
theorem requestCompile_inline (hn : r.get? k = some n)
    (hdeps : ∀ d ∈ Node.dependencies n, r.isDependable d = true) (hmode : r.isDeferred = false)
    (hcache : ∀ d ∈ Node.dependencies n, (r.compiled? d).isSome) :
    let x := Json.mergeLayers ((Node.dependencies n).filterMap r.compiled? ++ Node.layers n)
    ∃ r', r.requestCompile k = (r', [.tell k (.own (.compiled x) .registry)]) ∧
      Delivered r r' k x := by
  intro x
  -- Nothing is missing, and the mode and the cache let the job be merged at once.
  have hmissing : (Node.dependencies n).filter (fun d => !r.isDependable d) = [] := by
    simpa [List.filter_eq_nil_iff] using hdeps
  have hmode' : r.config.compileMode = .inline := by
    cases h : r.config.compileMode with
    | inline => rfl
    | deferred => simp [isDeferred, h] at hmode
  let job : CompileJob :=
    { id := k, generation := r.generation + 1, dependencies := Node.dependencies n
      layers := Node.layers n }
  have hvalues : ∀ d ∈ job.dependencies, (r.compiler.get? d).isSome := hcache
  obtain ⟨c, hc, hget⟩ := Compiler.compile_ok hvalues
  have hrequest : r.requestCompile k =
      ({ (r.bumpGeneration k).2 with compiler := c } : Registry ν).completeCompile k x := by
    simp only [requestCompile, hn, hmissing]
    rw [show (r.bumpGeneration k).2.config.compileMode = .inline from hmode']
    rw [show (r.bumpGeneration k).2.compiler.compile
      { id := k, generation := (r.bumpGeneration k).1, dependencies := Node.dependencies n
        layers := Node.layers n } = (.ok x, c) from hc]
  exact ⟨_, hrequest, ⟨rfl, rfl, rfl, rfl, fun h => ⟨h, rfl⟩⟩, rfl, hget, rfl, rfl, rfl⟩

omit [NodeKind ν] in
/-- Verifying a value that is held: the node is told of a value that complies. -/
theorem validate_eq {x : Json} (hn : r.get? k = some n) (hx : Node.compiled n = some x) :
    ∃ r', Silent r r' ∧ r.validate k =
      (r', if accepts r.verifier (Node.resource n) x then [.tell k (.own .validated .registry)]
        else []) := by
  have hsame : Silent r r := ⟨r.published, rfl⟩
  simp only [validate, hn, hx, accepts]
  cases r.verifier with
  | none => exact ⟨r, hsame, by simp⟩
  | some verify =>
    cases Node.resource n with
    | none => exact ⟨r, hsame, by simp⟩
    | some resource =>
      cases hv : verify resource x with
      | ok u => exact ⟨r, hsame, by simp [hv, Except.isOk, Except.toBool]⟩
      | error e => exact ⟨_, ⟨_, rfl⟩, by simp [hv, Except.isOk, Except.toBool]; rfl⟩

end Registry

end LayeredAccess
