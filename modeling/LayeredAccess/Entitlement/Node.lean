/-
  LayeredAccess.Entitlement.Node

  Entitlements as nodes. The flags of an entitlement say how far it has come:
  it is compiled once all its dependencies are dependable, then verified, and
  it is dependable itself while it is both active and verified.
-/
import LayeredAccess.Entitlement.Basic
import LayeredAccess.Registry.Node

namespace LayeredAccess

/-- An entitlement in a registry. -/
structure EntitlementNode where
  entitlement : Entitlement
  state : Flags
  readiness : Readiness := []
  compiled : Option Json := none
  deriving Inhabited

namespace EntitlementNode

/-- A fresh node: of the flags of the definition only some count. -/
def ofEntitlement (e : Entitlement) : EntitlementNode where
  entitlement := e
  state := e.flags &&& .initial

/-- Are all of some flags set? -/
def has (n : EntitlementNode) (flags : Flags) : Bool := n.state.contains flags

/-- Is every dependency known to be dependable? -/
def isCompilable (n : EntitlementNode) : Bool := n.readiness.covers n.entitlement.dependencies

/-- Forgets the compiled value. -/
def invalidate (n : EntitlementNode) : EntitlementNode :=
  { n with state := n.state.remove .derived, compiled := none }

def compileIfReady (n : EntitlementNode) : List Effect :=
  if n.isCompilable then [.compile] else []

/-- Tells the dependents, and the directory unless the entitlement is implicit. -/
def announce (n : EntitlementNode) : List Effect :=
  .broadcast .validated false :: if n.has .implicit then [] else [.announce]

/-- Takes over the customizable flags. Being switched off makes the dependents lose the node,
being switched on makes up for what was not done meanwhile. -/
def customize (n : EntitlementNode) (flags : Flags) : List Effect × EntitlementNode :=
  let changed := { n with state := (flags &&& .customizable) ||| (n.state &&& .derived) }
  let effects :=
    match n.has .active, changed.has .active with
    | true, false => [.broadcast .invalidated false]
    | false, true =>
      if changed.has .valid then changed.announce
      else if !changed.has .compiled then changed.compileIfReady
      else []
    | _, _ => []
  (effects, changed)

/-- The answer to a signal about the entitlement itself; its own signals need none. -/
def onSignal (n : EntitlementNode) (signal : Signal) (origin : Origin) :
    List Effect × EntitlementNode :=
  if origin = .node n.entitlement.id then ([], n)
  else
    match signal with
    | .added =>
      let n := { n with state := n.state.insert .active }
      (n.compileIfReady, n)
    | .compiled value =>
      ([.validate], { n with compiled := some value, state := n.state.insert .compiled })
    | .validated =>
      let n := { n with state := n.state.insert .valid }
      (if n.has .active then n.announce else [], n)
    | .updated =>
      let n := n.invalidate
      (.broadcast .invalidated false :: n.compileIfReady, n)
    | .deleted => ([.broadcast .invalidated false], n.invalidate)
    | .customized flags => n.customize flags
    | .invalidated => ([], n)

/-- Records what is known of a dependency. -/
def record (n : EntitlementNode) (dependency : String) (ready : Bool) : EntitlementNode :=
  { n with readiness := KeyMap.insert n.readiness dependency ready }

/-- The answer to a signal about a dependency: a lost dependency takes the compiled value with
it, a regained one may let the node compile. -/
def onDependencySignal (n : EntitlementNode) (dependency : String) (signal : Signal) :
    List Effect × EntitlementNode :=
  match signal with
  | .invalidated | .deleted | .updated =>
    let lost := n.record dependency false
    let lost := if n.compiled.isSome || n.has .valid then lost.invalidate else lost
    (if n.has .dependable then [.broadcast .invalidated true] else [], lost)
  | .validated =>
    let n := n.record dependency true
    (n.compileIfReady, n)
  | _ => ([], n)

/-- Installs what a patch gives; only real changes count as changes. -/
def applyPatch (n : EntitlementNode) (p : EntitlementPatch) : PatchOutcome × EntitlementNode :=
  let e := n.entitlement
  let ownChanged := p.own.any fun v => !(v == e.own)
  let completionChanged := p.completion.any fun v => !(e.completion.any (v == ·))
  let dependenciesChanged := p.dependencies.any fun ds => !decide (ds = e.dependencies)
  let resourceChanged := p.metadata.any fun m => !decide (m.resource = e.metadata.resource)
  ({ dependenciesChanged, contentChanged := ownChanged || completionChanged, resourceChanged },
   { n with
     entitlement :=
       { e with
         own := if ownChanged then p.own.getD e.own else e.own
         completion := if completionChanged then p.completion else e.completion
         dependencies := if dependenciesChanged then p.dependencies.getD [] else e.dependencies
         metadata := p.metadata.getD e.metadata } })

instance : Node EntitlementNode where
  Patch := EntitlementPatch
  kind := "Entitlement"
  key n := n.entitlement.id
  dependencies n := n.entitlement.dependencies
  layers n := n.entitlement.layers
  resource n := n.entitlement.metadata.resource
  compiled := compiled
  isDependable n := n.has .dependable
  readiness := readiness
  setReadiness n r := { n with readiness := r }
  reset n := { n.invalidate with readiness := n.readiness.forget }
  checkDelete n := if n.has .pinned then .error (.forbidden n.entitlement.id .pinned) else .ok ()
  checkUpdate n := if n.has .sealed then .error (.forbidden n.entitlement.id .sealed) else .ok ()
  patchedDependencies p := p.dependencies
  applyPatch := applyPatch
  onSignal := onSignal
  onDependencySignal := onDependencySignal

end EntitlementNode

end LayeredAccess
