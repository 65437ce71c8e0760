/-
  LayeredAccess.Registry.Cascade

  What follows from a signal. A node that is told of a signal answers with
  effects; a broadcast among them tells every listener of the node's channel,
  and so on. A notice is finished with all that follows from it before the next
  listener gets its own.

  The cascade is an agenda of such tasks. Since dependencies form no cycle, a
  broadcast only leads to broadcasts further up, and `cascadeBound` bounds the
  tasks that can follow.
-/
import LayeredAccess.Agenda
import LayeredAccess.Registry.Basic

namespace LayeredAccess

/-- What a node is told. -/
inductive Notice where
  /-- A signal about the node itself. -/
  | own (signal : Signal) (origin : Origin)
  /-- A signal about a dependency. -/
  | dependency (dependency : String) (signal : Signal)
  deriving Inhabited

namespace Registry

/-- Something that is left to do in a cascade. -/
inductive Task where
  /-- Tell a node. -/
  | tell (key : String) (notice : Notice)
  /-- Carry out an effect that a node asked for. -/
  | perform (key : String) (effect : Effect)
  deriving Inhabited

variable {ν : Type} [Node ν]

/-- The answer of a node to a notice. -/
def answer (n : ν) : Notice → List Effect × ν
  | .own signal origin => Node.onSignal n signal origin
  | .dependency d signal => Node.onDependencySignal n d signal

/-- The tasks that tell every listener of a channel. -/
def dispatch (r : Registry ν) (channel : String) (signal : Signal) (origin : Origin) : List Task :=
  (r.listenersOf channel).map fun
    | .owner key => .tell key (.own signal origin)
    | .dependent key => .tell key (.dependency channel signal)

/-- Tells one node: a node that loses its compiled value loses its cached value too. -/
def tell (r : Registry ν) (key : String) (notice : Notice) : Registry ν × List Task :=
  match r.get? key with
  | none => (r, [])
  | some before =>
    let (effects, after) := answer before notice
    let r := r.setNode key after
    let r := if Node.isCompiled before && !Node.isCompiled after then r.evict key else r
    (r, effects.map (.perform key))

/-- A compiled value has come: it is published, and the node is told. -/
def completeCompile (r : Registry ν) (key : String) (value : Json) : Registry ν × List Task :=
  (r.publishSignal key (.compiled value) false, [.tell key (.own (.compiled value) .registry)])

/-- Has a node compiled, at once or by a queued job. Dependencies that are not dependable at the
moment make the request fail. -/
def requestCompile (r : Registry ν) (key : String) : Registry ν × List Task :=
  match r.get? key with
  | none => (r, [])
  | some n =>
    let dependencies := Node.dependencies n
    match dependencies.filter fun d => !r.isDependable d with
    | [] =>
      let (generation, r) := r.bumpGeneration key
      let job : CompileJob := { id := key, generation, dependencies, layers := Node.layers n }
      match r.config.compileMode with
      | .deferred => (r.queueJob job, [])
      | .inline =>
        let (result, compiler) := r.compiler.compile job
        let r := { r with compiler }
        match result with
        | .ok value => r.completeCompile key value
        | .error missing =>
          (r.publishError "Compile Error" key (.missingDependency key missing), [])
    | missing => (r.publishError "Compile Error" key (.missingDependency key missing), [])

/-- Verifies the compiled value of a node, if the node has a schema to comply with. -/
def validate (r : Registry ν) (key : String) : Registry ν × List Task :=
  match r.get? key with
  | none => (r, [])
  | some n =>
    match Node.compiled n with
    | none => (r, [])
    | some value =>
      let verdict := match r.verifier, Node.resource n with
        | some verify, some resource => verify resource value
        | _, _ => .ok ()
      match verdict with
      | .ok () => (r, [.tell key (.own .validated .registry)])
      | .error e => (r.publishError "Validate Error" key e, [])

/-- Asks the directory to publish the compiled value of a node. -/
def announce (r : Registry ν) (key : String) : Registry ν :=
  match (r.get? key).bind Node.compiled with
  | none => r
  | some value =>
    r.publish
      { kind := Action.directoryPublish
        payload :=
          some (.mkObj [("kind", .str (Node.kind ν)), ("id", .str key), ("value", value)]) }

/-- Carries out one effect. -/
def perform (r : Registry ν) (key : String) : Effect → Registry ν × List Task
  | .broadcast signal wide =>
    let r := r.publishSignal key signal wide
    (r, r.dispatch key signal (.node key))
  | .compile => r.requestCompile key
  | .validate => r.validate key
  | .announce => (r.announce key, [])

/-- Does one task. -/
def step (r : Registry ν) : Task → Registry ν × List Task
  | .tell key notice => r.tell key notice
  | .perform key effect => r.perform key effect

/-- The number of listeners on all channels. -/
def listenerCount (r : Registry ν) : Nat := (r.listeners.flatMap (·.2)).length

/-- A bound on the tasks that follow from an agenda: one level of dependents at a time, each task
leads to at most so many tasks as there are listeners and steps in the life of a node. -/
def cascadeBound (r : Registry ν) (tasks : List Task) : Nat :=
  (tasks.length + 1) * Nat.pow (r.listenerCount + 16) (r.size + 2)

/-- Does all tasks of an agenda with everything that follows. -/
def settle (r : Registry ν) (tasks : List Task) : Registry ν :=
  (Agenda.run step (r.cascadeBound tasks) r tasks).1

end Registry

end LayeredAccess
