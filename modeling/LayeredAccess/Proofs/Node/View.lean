/-
  LayeredAccess.Proofs.Node.View

  What a registry can see of its nodes, and the laws by which every kind of
  node answers notices.

  A view shows the inputs of a node's value and how far the node has come. The
  laws of `LawfulNode` say, notice by notice, what a node asks for and what it
  looks like afterwards; the theory of cascades rests on them alone.
-/
import LayeredAccess.Registry.Cascade

namespace LayeredAccess

/-! ## Views -/

/-- What the value of a node is made of, and whether others may build on it. -/
structure NodeInputs where
  /-- The dependencies in declared order. -/
  dependencies : List String
  /-- The payload layers of the node's own, lowest first. -/
  layers : List Json
  /-- The schema that the value has to comply with. -/
  resource : Option String
  /-- Does the node take part? -/
  active : Bool

/-- What can be seen of a node. -/
structure NodeView where
  key : String
  inputs : NodeInputs
  compiled : Option Json
  /-- Has the compiled value been verified? -/
  verified : Bool
  /-- Does the state of the node say that a value is held? -/
  marked : Bool
  /-- What the node has been told of a dependency. -/
  recorded : String → Option Bool

namespace NodeView

/-- Every dependency is recorded as dependable. -/
def Ready (v : NodeView) : Prop := ∀ d ∈ v.inputs.dependencies, v.recorded d = some true

instance (v : NodeView) : Decidable v.Ready :=
  inferInstanceAs (Decidable (∀ d ∈ v.inputs.dependencies, v.recorded d = some true))

/-- May others build on the node? -/
def dependable (v : NodeView) : Bool := v.inputs.active && v.verified

/-- The node without its value. -/
def fallen (v : NodeView) : NodeView :=
  { v with compiled := none, verified := false, marked := false }

/-- The node after it has been told of a dependency. -/
def record (v : NodeView) (dependency : String) (ready : Bool) : NodeView :=
  { v with recorded := fun d => if d = dependency then some ready else v.recorded d }

/-- The node after it has been told of all its dependencies at once. -/
def informed (v : NodeView) (ready : String → Bool) : NodeView :=
  { v with recorded := fun d => if d ∈ v.inputs.dependencies then some (ready d) else none }

/-- The node without its value, and without the readiness of its dependencies. -/
def forgotten (v : NodeView) : NodeView :=
  { v.fallen with recorded := fun d => (v.recorded d).map fun _ => false }

/-- The flags of a node fit its value, and a value is only held while all dependencies are
recorded as dependable. -/
structure Sound (v : NodeView) : Prop where
  marked_eq : v.marked = v.compiled.isSome
  compiled_of_verified : v.verified = true → v.compiled.isSome
  ready_of_compiled : v.compiled.isSome → v.Ready

/-! ## What nodes ask for -/

/-- A node that is ready asks to be compiled. -/
def compileIfReady (v : NodeView) : List Effect := if v.Ready then [.compile] else []

/-- A node that is ready asks for nothing but to be compiled. -/
theorem eq_compile_of_mem {v : NodeView} {e : Effect} (he : e ∈ v.compileIfReady) :
    e = .compile := by
  unfold compileIfReady at he
  split at he
  · exact List.mem_singleton.1 he
  · exact absurd he List.not_mem_nil

/-- A node that loses its value tells its dependents, at least if they could build on it. -/
inductive Loss (v : NodeView) : List Effect → Prop
  | told (wide : Bool) : Loss v [.broadcast .invalidated wide]
  | silent : v.dependable = false → Loss v []

/-- A node that becomes dependable tells its dependents, and possibly the directory. -/
inductive Gain : List Effect → Prop
  | told : Gain [.broadcast .validated false]
  | announced : Gain [.broadcast .validated false, .announce]

/-- What follows when a node is switched on or off. -/
def Switch (v : NodeView) (active : Bool) (effects : List Effect) : Prop :=
  match v.inputs.active, active with
  | true, false => effects = [.broadcast .invalidated false]
  | false, true =>
    if v.verified then Gain effects
    else effects = if v.marked then [] else v.compileIfReady
  | _, _ => effects = []

/-- The ways in which a node is switched. -/
inductive Switched (v : NodeView) : Bool → List Effect → Prop
  | stayed : Switched v v.inputs.active []
  | off (hwas : v.inputs.active = true) : Switched v false [.broadcast .invalidated false]
  /-- A verified node can be built on again. -/
  | resumed {gain : List Effect} (hoff : v.inputs.active = false) (hverified : v.verified = true)
    (hgain : Gain gain) : Switched v true gain
  /-- A node whose value has not been verified goes on waiting. -/
  | unverified (hoff : v.inputs.active = false) (hverified : v.verified = false)
    (hmarked : v.marked = true) : Switched v true []
  /-- A node without value asks for what it has missed meanwhile. -/
  | awoken (hoff : v.inputs.active = false) (hverified : v.verified = false)
    (hmarked : v.marked = false) : Switched v true v.compileIfReady

/-- What follows when a node is switched depends on where it comes from, and then on how far its
value has come. -/
theorem Switch.switched {v : NodeView} {active : Bool} {effects : List Effect}
    (h : v.Switch active effects) : v.Switched active effects := by
  have hstayed : v.inputs.active = active → effects = [] → v.Switched active effects := by
    rintro rfl rfl
    exact .stayed
  unfold Switch at h
  cases hwas : v.inputs.active <;> cases active <;> simp only [hwas] at h
  · exact hstayed hwas h
  · cases hverified : v.verified with
    | true =>
      rw [if_pos hverified] at h
      exact .resumed hwas hverified h
    | false =>
      rw [if_neg (by simp [hverified])] at h
      cases hmarked : v.marked with
      | true =>
        obtain rfl := h.trans (if_pos hmarked)
        exact .unverified hwas hverified hmarked
      | false =>
        obtain rfl := h.trans (if_neg (by simp [hmarked]))
        exact .awoken hwas hverified hmarked
  · exact h ▸ .off hwas
  · exact hstayed hwas h

@[simp] theorem fallen_key (v : NodeView) : v.fallen.key = v.key := rfl
@[simp] theorem fallen_inputs (v : NodeView) : v.fallen.inputs = v.inputs := rfl
@[simp] theorem fallen_compiled (v : NodeView) : v.fallen.compiled = none := rfl
@[simp] theorem fallen_verified (v : NodeView) : v.fallen.verified = false := rfl
@[simp] theorem fallen_marked (v : NodeView) : v.fallen.marked = false := rfl
@[simp] theorem fallen_recorded (v : NodeView) : v.fallen.recorded = v.recorded := rfl

@[simp] theorem fallen_dependable (v : NodeView) : v.fallen.dependable = false := by
  simp [dependable]

@[simp] theorem fallen_ready (v : NodeView) : v.fallen.Ready ↔ v.Ready := Iff.rfl

@[simp] theorem fallen_compileIfReady (v : NodeView) :
    v.fallen.compileIfReady = v.compileIfReady := rfl

@[simp] theorem record_key (v : NodeView) (d : String) (b : Bool) :
    (v.record d b).key = v.key := rfl
@[simp] theorem record_inputs (v : NodeView) (d : String) (b : Bool) :
    (v.record d b).inputs = v.inputs := rfl
@[simp] theorem record_compiled (v : NodeView) (d : String) (b : Bool) :
    (v.record d b).compiled = v.compiled := rfl
@[simp] theorem record_verified (v : NodeView) (d : String) (b : Bool) :
    (v.record d b).verified = v.verified := rfl
@[simp] theorem record_marked (v : NodeView) (d : String) (b : Bool) :
    (v.record d b).marked = v.marked := rfl
@[simp] theorem record_dependable (v : NodeView) (d : String) (b : Bool) :
    (v.record d b).dependable = v.dependable := rfl

theorem record_recorded (v : NodeView) (d e : String) (b : Bool) :
    (v.record d b).recorded e = if e = d then some b else v.recorded e := rfl

/-- A sound node whose state says that no value is held has none. -/
theorem Sound.compiled_eq_none {v : NodeView} (h : v.Sound) (hm : v.marked = false) :
    v.compiled = none := by
  rw [h.marked_eq] at hm
  simpa using hm

/-- A sound node without value has not been verified either. -/
theorem Sound.verified_eq_false {v : NodeView} (h : v.Sound) (hc : v.compiled = none) :
    v.verified = false := by
  cases hv : v.verified with
  | false => rfl
  | true =>
    have := h.compiled_of_verified hv
    simp [hc] at this

/-- A sound node without value is what it is without its value. -/
theorem Sound.fallen_eq {v : NodeView} (h : v.Sound) (hc : v.compiled = none) : v.fallen = v := by
  have hm : v.marked = false := by rw [h.marked_eq, hc]; rfl
  have hv := h.verified_eq_false hc
  cases v
  simp_all [fallen]

/-- Recording what is recorded changes nothing. -/
theorem record_eq_self {v : NodeView} {d : String} {b : Bool} (h : v.recorded d = some b) :
    v.record d b = v := by
  have hr : (fun e => if e = d then some b else v.recorded e) = v.recorded := by
    funext e
    split
    · next he => rw [he, h]
    · rfl
  cases v
  simp_all [record]

end NodeView

/-! ## Kinds of nodes -/

/-- What sets the kinds of nodes apart. -/
class NodeKind (ν : Type) [Node ν] where
  /-- What nodes are made from. -/
  Definition : Type
  /-- A fresh node. -/
  ofDefinition : Definition → ν
  isActive : ν → Bool
  isVerified : ν → Bool
  isMarked : ν → Bool
  /-- Are compiled values verified before others may build on them? -/
  verifies : Bool

namespace Node

variable {ν : Type} [Node ν] [NodeKind ν]

def inputs (n : ν) : NodeInputs where
  dependencies := dependencies n
  layers := layers n
  resource := resource n
  active := NodeKind.isActive n

def view (n : ν) : NodeView where
  key := key n
  inputs := inputs n
  compiled := compiled n
  verified := NodeKind.isVerified n
  marked := NodeKind.isMarked n
  recorded := KeyMap.find? (readiness n)

/-- A node answers a notice with some effects, and looks as given afterwards. -/
structure Reacts (n : ν) (notice : Notice) (effects : List Effect) (after : NodeView) : Prop where
  effects_eq : (Registry.answer n notice).1 = effects
  view_eq : view (Registry.answer n notice).2 = after

/-- A patch may replace what goes into the value; it says so where it does. -/
structure Patched (before : NodeView) (outcome : PatchOutcome) (installed : Option (List String))
    (after : NodeView) : Prop where
  view_eq : ∃ inputs, after = { before with inputs } ∧ inputs.active = before.inputs.active
  installed_eq : outcome.dependenciesChanged = true → installed = some after.inputs.dependencies
  dependencies_eq : outcome.dependenciesChanged = false →
    after.inputs.dependencies = before.inputs.dependencies
  inputs_eq : outcome.needsRecompile = false → after.inputs = before.inputs

end Node

/-- The laws by which nodes of a kind answer. -/
class LawfulNode (ν : Type) [Node ν] [NodeKind ν] : Prop where
  isDependable_eq (n : ν) : Node.isDependable n = (Node.view n).dependable
  /-- A fresh node holds no value. -/
  fresh (d : NodeKind.Definition ν) :
    (Node.view (NodeKind.ofDefinition d : ν)).fallen = Node.view (NodeKind.ofDefinition d : ν)
  resource_eq_none : NodeKind.verifies ν = false → ∀ n : ν, Node.resource n = none
  isActive_eq_true : NodeKind.verifies ν = false → ∀ n : ν, NodeKind.isActive n = true
  view_setReadiness (n : ν) (r : Readiness) :
    Node.view (Node.setReadiness n r) = { Node.view n with recorded := KeyMap.find? r }
  view_reset (n : ν) : Node.view (Node.reset n) = (Node.view n).forgotten
  patched (n : ν) (p : Node.Patch ν) :
    Node.Patched (Node.view n) (Node.applyPatch n p).1 (Node.patchedDependencies p)
      (Node.view (Node.applyPatch n p).2)
  /-- A node does not listen to itself. -/
  echo (n : ν) (s : Signal) : Node.Reacts n (.own s (.node (Node.key n))) [] (Node.view n)
  added (n : ν) : Node.Reacts n (.own .added .registry) (Node.view n).compileIfReady
    { Node.view n with inputs.active := true }
  compiled (n : ν) (x : Json) : Node.Reacts n (.own (.compiled x) .registry)
    (if NodeKind.verifies ν then [.validate] else [.broadcast .validated false])
    { Node.view n with
      compiled := some x, marked := true
      verified := (Node.view n).verified || !NodeKind.verifies ν }
  validated (n : ν) : NodeKind.verifies ν = true → ∃ gain, NodeView.Gain gain ∧
    Node.Reacts n (.own .validated .registry) (if NodeKind.isActive n then gain else [])
      { Node.view n with verified := true }
  updated (n : ν) : ∃ loss, (Node.view n).Loss loss ∧
    Node.Reacts n (.own .updated .registry) (loss ++ (Node.view n).compileIfReady)
      (Node.view n).fallen
  deleted (n : ν) : ∃ loss, (Node.view n).Loss loss ∧
    Node.Reacts n (.own .deleted .registry) loss (Node.view n).fallen
  customized (n : ν) (flags : Flags) : ∃ active effects,
    (Node.view n).Switch active effects ∧
    Node.Reacts n (.own (.customized flags) .registry) effects
      { Node.view n with inputs.active := active }
  /-- A lost dependency takes the value with it. -/
  lost (n : ν) (d : String) (s : Signal) (hs : s = .invalidated ∨ s = .deleted)
    (hn : (Node.view n).Sound) (hd : d ∈ Node.dependencies n)
    (hr : ((Node.view n).recorded d).isSome) :
    Node.Reacts n (.dependency d s)
      (if (Node.view n).dependable then [.broadcast .invalidated true] else [])
      ((Node.view n).record d false).fallen
  /-- A regained dependency may let the node compile. -/
  regained (n : ν) (d : String) (hr : (Node.view n).recorded d = some false) :
    Node.Reacts n (.dependency d .validated) ((Node.view n).record d true).compileIfReady
      ((Node.view n).record d true)

/-- The readiness that a node has recorded covers its dependencies exactly if the node is ready. -/
theorem Readiness.covers_iff (r : Readiness) (dependencies : List String) :
    r.covers dependencies = true ↔ ∀ d ∈ dependencies, KeyMap.find? r d = some true := by
  simp only [covers, List.all_eq_true]
  refine forall₂_congr fun d _ => ?_
  cases KeyMap.find? r d <;> simp

end LayeredAccess
