/-
  LayeredAccess.Registry.Operations

  What is done to a registry from outside: entering, changing and removing
  nodes, clearing the cache, and taking in values that were compiled elsewhere.
  A refused operation publishes its error and changes nothing else.

  The outcome of entering, changing or customizing a node is told to the node
  alone. A removal is told to the whole channel, so that dependents learn of
  it; they keep listening, and find a node that is entered again.
-/
import LayeredAccess.Registry.Cascade

namespace LayeredAccess.Registry

variable {ν : Type} [Node ν]

/-- Tells one node of a signal, with everything that follows. -/
def deliver (r : Registry ν) (key : String) (signal : Signal) : Registry ν :=
  r.settle [.tell key (.own signal .registry)]

/-! ## Entering -/

/-- Puts a fresh node into its place, listening to its channels. -/
def install (r : Registry ν) (n : ν) : Registry ν :=
  let key := Node.key n
  let dependencies := Node.dependencies n
  let n := Node.setReadiness n (Readiness.snapshot dependencies r.isDependable)
  let r := { r.setNode key n with graph := r.graph.insert key dependencies }
  (r.subscribe key (.owner key)).subscribeAll key dependencies

/-- Enters a node. Its key has to be new, and its dependencies must not close a cycle. -/
def add (r : Registry ν) (n : ν) : Except EngineError Unit × Registry ν :=
  let key := Node.key n
  if r.contains key then r.refuse "Add Error" key (.alreadyExists key)
  else
    match r.graph.check key (Node.dependencies n) with
    | .error e => r.refuse "Add Error" key e.toEngineError
    | .ok () => (.ok (), ((r.install n).publishSignal key .added true).deliver key .added)

/-! ## Removing -/

/-- Takes a node out of its place, with its subscriptions, requests and cached value. -/
def uninstall (r : Registry ν) (key : String) (dependencies : List String) : Registry ν :=
  let r := { r with nodes := KeyMap.erase r.nodes key }
  let r := (r.unsubscribe key (.owner key)).unsubscribeAll key dependencies
  let r :=
    { r with
      graph := r.graph.erase key
      generations := KeyMap.erase r.generations key
      outbox := r.outbox.filter fun c => !c.isCompileOf key }
  r.evict key

/-- Removes a node after telling its whole channel. -/
def delete (r : Registry ν) (key : String) : Except EngineError ν × Registry ν :=
  match r.get? key with
  | none => r.refuse "Delete Error" key (.notFound key)
  | some n =>
    match Node.checkDelete n with
    | .error e => r.refuse "Delete Error" key e
    | .ok () =>
      let r := r.publishSignal key .deleted true
      let r := r.settle (r.dispatch key .deleted .registry)
      match r.get? key with
      | none => (.error (.internal ("node " ++ key ++ " vanished during delete")), r)
      | some n => (.ok n, r.uninstall key (Node.dependencies n))

/-! ## Changing -/

/-- Moves the subscriptions of a node whose dependencies have changed. -/
def relink (r : Registry ν) (key : String) (previous : List String) (n : ν) : Registry ν :=
  let current := Node.dependencies n
  let r := (r.unsubscribeAll key previous).subscribeAll key current
  let n := Node.setReadiness n (Readiness.snapshot current r.isDependable)
  { r.setNode key n with graph := r.graph.insert key current }

/-- May a patch be applied to a node? -/
def checkUpdate (r : Registry ν) (key : String) (n : ν) (patch : Node.Patch ν) :
    Except EngineError Unit := do
  Node.checkUpdate n
  match Node.patchedDependencies patch with
  | none => return ()
  | some dependencies => (r.graph.check key dependencies).mapError GraphError.toEngineError

/-- Applies a patch to a node. The node is compiled anew only if the patch changes what goes into
its value or the schema that the value has to comply with. -/
def update (r : Registry ν) (key : String) (patch : Node.Patch ν) :
    Except EngineError Unit × Registry ν :=
  match r.get? key with
  | none => r.refuse "Update Error" key (.notFound key)
  | some before =>
    match r.checkUpdate key before patch with
    | .error e => r.refuse "Update Error" key e
    | .ok () =>
      let (outcome, after) := Node.applyPatch before patch
      let r := r.setNode key after
      let r := if outcome.dependenciesChanged then r.relink key (Node.dependencies before) after
        else r
      let r := r.publishWide key .updated
      if outcome.needsRecompile then (.ok (), (r.publishNarrow key .updated).deliver key .updated)
      else (.ok (), r)

/-- Sets the customizable flags of a node. -/
def customize (r : Registry ν) (key : String) (flags : Flags) :
    Except EngineError Unit × Registry ν :=
  if r.contains key then
    (.ok (), (r.publishSignal key (.customized flags) true).deliver key (.customized flags))
  else r.refuse "Customize Error" key (.notFound key)

/-! ## The cache -/

/-- Drops every compiled value and forgets all readiness. -/
def resetAll (r : Registry ν) : Registry ν :=
  let r :=
    { r with
      compiler := r.compiler.clear
      outbox := if r.isDeferred then [.clear] else r.outbox
      nodes := KeyMap.mapValues Node.reset r.nodes }
  r.publish { kind := actionKind ν "Cache Cleared" }

/-- Drops every compiled value and compiles anew, from the nodes without dependencies upwards. -/
def clearCache (r : Registry ν) : Registry ν :=
  let r := r.resetAll
  let roots := (r.nodes.filter fun e => Node.isCompilable e.2).map fun e => Node.key e.2
  r.settle (roots.map fun key => .perform key .compile)

/-! ## Values compiled elsewhere -/

/-- Takes in how a job ended. The outcome counts only if it answers the last request for the node
and, where it brings a value, all dependencies are still dependable. -/
def applyOutcome (r : Registry ν) (key : String) (outcome : CompileOutcome) : Registry ν :=
  if KeyMap.find? r.generations key = some outcome.generation then
    let r := (r.bumpGeneration key).2
    match outcome with
    | .failed _ missing => r.publishError "Compile Error" key (.missingDependency key missing)
    | .compiled _ value =>
      if (r.get? key).any fun n => (Node.dependencies n).all r.isDependable then
        let r := { r with compiler := r.compiler.publish key value }
        let (r, tasks) := r.completeCompile key value
        r.settle tasks
      else r
  else r

end LayeredAccess.Registry
