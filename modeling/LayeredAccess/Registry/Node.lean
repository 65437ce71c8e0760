/-
  LayeredAccess.Registry.Node

  What a registry knows about its nodes. A node never acts by itself: it is
  told of a signal, about itself or about a dependency, and answers with
  effects that the registry carries out.
-/
import LayeredAccess.Error
import LayeredAccess.Flags

namespace LayeredAccess

/-- Something that has happened to a node. -/
inductive Signal where
  | added
  | compiled (value : Json)
  | validated
  | updated
  | deleted
  | customized (flags : Flags)
  | invalidated
  deriving Inhabited

namespace Signal

/-- The signal in the kinds of actions. -/
def label : Signal → String
  | added => "Add Ok"
  | compiled _ => "Compile Ok"
  | validated => "Validate Ok"
  | updated => "Update Ok"
  | deleted => "Delete Ok"
  | customized _ => "Customize Ok"
  | invalidated => "Invalid"

/-- The signals that bring nothing along, by name. -/
def bare : List (String × Signal) :=
  [("added", added), ("validated", validated), ("updated", updated), ("deleted", deleted),
   ("invalidated", invalidated)]

end Signal

/-- Who raised a signal. -/
inductive Origin where
  | registry
  | node (key : String)
  deriving DecidableEq, Inhabited, Repr

/-- What a node asks for. -/
inductive Effect where
  /-- Compile the node. -/
  | compile
  /-- Verify the node's compiled value. -/
  | validate
  /-- Tell the directory the node's compiled value. -/
  | announce
  /-- Raise a signal on the node's channel; `wide` also tells those who follow the kind. -/
  | broadcast (signal : Signal) (wide : Bool)
  deriving Inhabited

/-- The effect as diagnostics show it. -/
def Effect.encode : Effect → Json
  | compile => request "compile"
  | validate => request "validate"
  | announce => request "announce"
  | broadcast signal wide => .mkObj [("broadcast", .str signal.label), ("global", .bool wide)]
where
  request (what : String) : Json := .mkObj [("request", .str what)]

/-- Which parts of a node a patch has changed. -/
structure PatchOutcome where
  dependenciesChanged : Bool := false
  /-- The payload has changed. -/
  contentChanged : Bool := false
  /-- The schema to comply with has changed. -/
  resourceChanged : Bool := false
  deriving DecidableEq, Inhabited, Repr

namespace PatchOutcome

/-- Has the patch made the compiled value out of date? -/
def needsRecompile (o : PatchOutcome) : Bool :=
  o.dependenciesChanged || o.contentChanged || o.resourceChanged

/-- The members of the outcome as diagnostics show it. -/
def members (o : PatchOutcome) : List (String × Json) :=
  [("dependencies", .bool o.dependenciesChanged), ("content", .bool o.contentChanged),
   ("resource", .bool o.resourceChanged), ("recompile", .bool o.needsRecompile)]

end PatchOutcome

/-- Which dependencies are dependable, as far as a node has been told. -/
abbrev Readiness := KeyMap String Bool

namespace Readiness

/-- Are all of some dependencies known to be dependable? -/
def covers (r : Readiness) (dependencies : List String) : Bool :=
  dependencies.all fun d => (KeyMap.find? r d).getD false

/-- What there is to know about some dependencies at the moment. -/
def snapshot (dependencies : List String) (isReady : String → Bool) : Readiness :=
  KeyMap.ofList (dependencies.map fun d => (d, isReady d))

/-- Nothing is taken to be dependable any more. -/
def forget (r : Readiness) : Readiness := KeyMap.mapValues (fun _ => false) r

def encode (r : Readiness) : Json := .obj (KeyMap.mapValues .bool r)

end Readiness

/-- The nodes that a registry can hold. -/
class Node (ν : Type) where
  /-- Partial updates of a node. -/
  Patch : Type
  /-- The kind of node in the kinds of actions. -/
  kind : String
  key : ν → String
  /-- The dependencies in declared order. -/
  dependencies : ν → List String
  /-- The payload layers of the node's own, lowest first. -/
  layers : ν → List Json
  /-- The schema that the compiled value has to comply with. -/
  resource : ν → Option String
  compiled : ν → Option Json
  /-- May others build on the node's compiled value? -/
  isDependable : ν → Bool
  readiness : ν → Readiness
  setReadiness : ν → Readiness → ν
  /-- Forgets the compiled value, and that any dependency is dependable. -/
  reset : ν → ν
  checkDelete : ν → Except EngineError Unit
  checkUpdate : ν → Except EngineError Unit
  /-- The dependencies that a patch installs, if it does. -/
  patchedDependencies : Patch → Option (List String)
  applyPatch : ν → Patch → PatchOutcome × ν
  /-- The answer to a signal about the node itself. -/
  onSignal : ν → Signal → Origin → List Effect × ν
  /-- The answer to a signal about a dependency. -/
  onDependencySignal : ν → String → Signal → List Effect × ν

namespace Node

variable {ν : Type} [Node ν]

def isCompiled (n : ν) : Bool := (compiled n).isSome

/-- Is every dependency known to be dependable? -/
def isCompilable (n : ν) : Bool := (readiness n).covers (dependencies n)

end Node

end LayeredAccess
