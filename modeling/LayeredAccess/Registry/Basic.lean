/-
  LayeredAccess.Registry.Basic

  The state of a registry: its nodes, who listens on the channel of which node,
  the graph of dependencies, the compiler with its cache, the compile requests
  that wait to be fetched, and the actions that have been published.

  Every node listens on its own channel and on the channels of its
  dependencies, whether these are registered or not.
-/
import LayeredAccess.Bus.Action
import LayeredAccess.Compiler.Envelope
import LayeredAccess.Config
import LayeredAccess.Dependency.Graph
import LayeredAccess.Registry.Node
import LayeredAccess.Uuid

namespace LayeredAccess

/-- Who listens on the channel of a node. -/
inductive Listener where
  /-- The node itself. -/
  | owner (key : String)
  /-- A node that depends on it. -/
  | dependent (key : String)
  deriving DecidableEq, Inhabited, Repr

/-- Decides whether a compiled value complies with a schema. -/
abbrev Verifier := String → Json → Except EngineError Unit

/-- The nodes of one kind with all that belongs to them. -/
structure Registry (ν : Type) where
  config : EngineConfig := {}
  nodes : KeyMap String ν := []
  /-- The listeners of each channel in the order of subscription. -/
  listeners : KeyMap String (List Listener) := []
  graph : DependencyGraph := {}
  /-- The last generation given to a compile request. Nodes share the count, so a node that is
  removed and entered again never meets a number of its former life. The count has no end; one of
  64 bits goes the same way for fewer than `2 ^ 64` requests. -/
  generation : Nat := 0
  /-- The generation of the last request for each node. -/
  generations : KeyMap String Nat := []
  /-- What the compiler elsewhere is to be asked, oldest first. -/
  outbox : List CompilerCommand := []
  compiler : Compiler := {}
  verifier : Option Verifier := none
  /-- The actions that have been published and not yet been collected, oldest first. -/
  published : List Action := []

namespace Registry

variable {ν : Type}

/-! ## Looking things up -/

def get? (r : Registry ν) (key : String) : Option ν := KeyMap.find? r.nodes key

def contains (r : Registry ν) (key : String) : Bool := (r.get? key).isSome

/-- The number of nodes. -/
def size (r : Registry ν) : Nat := r.nodes.length

def isEmpty (r : Registry ν) : Bool := r.nodes.isEmpty

/-- The keys of the nodes in ascending order. -/
def keys (r : Registry ν) : List String := KeyMap.keys r.nodes

/-- The cached value of a node. -/
def compiled? (r : Registry ν) (key : String) : Option Json := r.compiler.get? key

/-- Are there requests for a compiler elsewhere? -/
def hasPending (r : Registry ν) : Bool := !r.outbox.isEmpty

def isDeferred (r : Registry ν) : Bool := r.config.compileMode == .deferred

/-- The listeners of a channel. -/
def listenersOf (r : Registry ν) (channel : String) : List Listener :=
  (KeyMap.find? r.listeners channel).getD []

/-- An identifier that no node has: the first such among those made from some digests. -/
def freshId? (r : Registry ν) (digests : List (List (Fin 16))) : Option Uuid :=
  (digests.map Uuid.ofDigest).find? fun u => !r.contains u.toString

/-- Takes the waiting requests out. -/
def takeOutbox (r : Registry ν) : List CompilerCommand × Registry ν :=
  (r.outbox, { r with outbox := [] })

/-- Takes the published actions out. -/
def collect (r : Registry ν) : List Action × Registry ν := (r.published, { r with published := [] })

/-! ## Subscriptions -/

/-- Enters a listener at the end of a channel, unless it is there. -/
def subscribe (r : Registry ν) (channel : String) (listener : Listener) : Registry ν :=
  let present := r.listenersOf channel
  if listener ∈ present then r
  else { r with listeners := KeyMap.insert r.listeners channel (present ++ [listener]) }

/-- Takes a listener off a channel; a channel without listeners is dropped. -/
def unsubscribe (r : Registry ν) (channel : String) (listener : Listener) : Registry ν :=
  match KeyMap.find? r.listeners channel with
  | none => r
  | some present =>
    match present.filter (· ≠ listener) with
    | [] => { r with listeners := KeyMap.erase r.listeners channel }
    | remaining => { r with listeners := KeyMap.insert r.listeners channel remaining }

/-- Makes a node listen to its dependencies. -/
def subscribeAll (r : Registry ν) (key : String) (dependencies : List String) : Registry ν :=
  dependencies.foldl (fun r d => r.subscribe d (.dependent key)) r

/-- Makes a node stop listening to its dependencies. -/
def unsubscribeAll (r : Registry ν) (key : String) (dependencies : List String) : Registry ν :=
  dependencies.foldl (fun r d => r.unsubscribe d (.dependent key)) r

variable [Node ν]

/-- Is a node registered and dependable? -/
def isDependable (r : Registry ν) (key : String) : Bool := (r.get? key).any Node.isDependable

/-- Puts a node in its place. -/
def setNode (r : Registry ν) (key : String) (n : ν) : Registry ν :=
  { r with nodes := KeyMap.insert r.nodes key n }

/-! ## Publishing -/

/-- The kind of an action of this registry. -/
def actionKind (ν : Type) [Node ν] (label : String) : String :=
  Action.lifecycleKind (Node.kind ν) label

def publish (r : Registry ν) (a : Action) : Registry ν := { r with published := r.published ++ [a] }

/-- Tells those who follow the kind that a node has had a signal. -/
def publishWide (r : Registry ν) (key : String) (signal : Signal) : Registry ν :=
  r.publish { kind := actionKind ν signal.label, payload := some (.mkObj [("id", .str key)]) }

/-- Tells those who follow a node of a signal, with the value if the signal brings one. -/
def publishNarrow (r : Registry ν) (key : String) (signal : Signal) : Registry ν :=
  let payload := match signal with
    | .compiled value => some value
    | _ => none
  r.publish { kind := actionKind ν signal.label, id := some key, payload }

/-- Tells those who follow a node of a signal, and those who follow the kind if it is wide. -/
def publishSignal (r : Registry ν) (key : String) (signal : Signal) (wide : Bool) : Registry ν :=
  let r := r.publishNarrow key signal
  if wide then r.publishWide key signal else r

/-- What the notice of an error says. -/
def errorPayload (key : String) (e : EngineError) : Json :=
  let report := match e with
    | .ruleVerificationFailure report => [("report", report.encode)]
    | _ => []
  .mkObj ([("id", .str key), ("code", .str e.code), ("message", .str e.message)] ++ report)

/-- Tells those who follow the kind of an error. -/
def publishError (r : Registry ν) (label key : String) (e : EngineError) : Registry ν :=
  r.publish { kind := actionKind ν label, payload := some (errorPayload key e) }

/-- Refuses an operation: the error is published and returned. -/
def refuse {α : Type} (r : Registry ν) (label key : String) (e : EngineError) :
    Except EngineError α × Registry ν :=
  (.error e, r.publishError label key e)

/-! ## Compile requests -/

/-- Gives a node a new generation. -/
def bumpGeneration (r : Registry ν) (key : String) : Nat × Registry ν :=
  let g := r.generation + 1
  (g, { r with generation := g, generations := KeyMap.insert r.generations key g })

/-- Queues a job in the place of an older one for the same node. -/
def queueJob (r : Registry ν) (job : CompileJob) : Registry ν :=
  { r with outbox := r.outbox.filter (fun c => !c.isCompileOf job.id) ++ [.compile job] }

/-- Drops the cached value of a node here, and elsewhere if compiling is done elsewhere. -/
def evict (r : Registry ν) (key : String) : Registry ν :=
  { r with
    compiler := (r.compiler.evict [key]).2
    outbox := if r.isDeferred then r.outbox ++ [.evict [key]] else r.outbox }

/-- The registry as it appears in diagnostics. -/
def describe (r : Registry ν) : String :=
  "Registry \x7b kind: " ++ Text.quoted (Node.kind ν) ++ ", nodes: " ++ toString r.size
    ++ ", channels: " ++ toString r.listeners.length ++ ", pending: "
    ++ toString r.outbox.length ++ " \x7d"

end Registry

end LayeredAccess
