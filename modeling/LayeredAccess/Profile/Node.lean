/-
  LayeredAccess.Profile.Node

  Profiles as nodes. A profile has no schema to comply with: as soon as it is
  compiled it is valid, and dependable.
-/
import LayeredAccess.Profile.Basic
import LayeredAccess.Registry.Node

namespace LayeredAccess

/-- A profile in a registry. -/
structure ProfileNode where
  profile : Profile
  state : ProfileState := .invalid
  readiness : Readiness := []
  compiled : Option Json := none
  deriving Inhabited

namespace ProfileNode

/-- A fresh node. -/
def ofProfile (p : Profile) : ProfileNode := { profile := p }

def isValid (n : ProfileNode) : Bool := n.state == .valid

/-- Is every dependency known to be dependable? -/
def isCompilable (n : ProfileNode) : Bool := n.readiness.covers n.profile.dependencies

/-- Forgets the compiled value. -/
def invalidate (n : ProfileNode) : ProfileNode := { n with state := .invalid, compiled := none }

def compileIfReady (n : ProfileNode) : List Effect := if n.isCompilable then [.compile] else []

/-- Tells the dependents of a loss, if there was something to lose; `wide` also tells those who
follow the kind. -/
def loss (n : ProfileNode) (wide : Bool) : List Effect :=
  if n.isValid then [.broadcast .invalidated wide] else []

/-- The answer to a signal about the profile itself; its own signals need none. -/
def onSignal (n : ProfileNode) (signal : Signal) (origin : Origin) : List Effect × ProfileNode :=
  if origin = .node n.profile.name then ([], n)
  else
    match signal with
    | .added => (n.compileIfReady, n)
    | .compiled value =>
      ([.broadcast .validated false], { n with compiled := some value, state := .valid })
    | .updated => (n.loss false ++ n.compileIfReady, n.invalidate)
    | .deleted => (n.loss false, n.invalidate)
    | .validated | .invalidated | .customized _ => ([], n)

/-- Records what is known of a dependency. -/
def record (n : ProfileNode) (dependency : String) (ready : Bool) : ProfileNode :=
  { n with readiness := KeyMap.insert n.readiness dependency ready }

/-- The answer to a signal about a dependency: only news count. -/
def onDependencySignal (n : ProfileNode) (dependency : String) (signal : Signal) :
    List Effect × ProfileNode :=
  let wasReady := KeyMap.find? n.readiness dependency == some true
  match signal with
  | .invalidated | .deleted | .updated =>
    if wasReady then (n.loss true, (n.record dependency false).invalidate) else ([], n)
  | .validated =>
    if wasReady then ([], n)
    else
      let n := n.record dependency true
      (n.compileIfReady, n)
  | _ => ([], n)

/-- Installs what a patch gives; only real changes count as changes. -/
def applyPatch (n : ProfileNode) (patch : ProfilePatch) : PatchOutcome × ProfileNode :=
  let p := n.profile
  let contentChanged := patch.entitlements.any fun v => !(v == p.entitlements)
  let dependenciesChanged := patch.dependencies.any fun ds => !decide (ds = p.dependencies)
  ({ dependenciesChanged, contentChanged },
   { n with
     profile :=
       { p with
         entitlements :=
           if contentChanged then patch.entitlements.getD p.entitlements else p.entitlements
         dependencies :=
           if dependenciesChanged then patch.dependencies.getD [] else p.dependencies
         metadata := patch.metadata.getD p.metadata } })

instance : Node ProfileNode where
  Patch := ProfilePatch
  kind := "Profile"
  key n := n.profile.name
  dependencies n := n.profile.dependencies
  layers n := n.profile.layers
  resource _ := none
  compiled := compiled
  isDependable := isValid
  readiness := readiness
  setReadiness n r := { n with readiness := r }
  reset n := { n.invalidate with readiness := n.readiness.forget }
  checkDelete _ := .ok ()
  checkUpdate _ := .ok ()
  patchedDependencies p := p.dependencies
  applyPatch := applyPatch
  onSignal := onSignal
  onDependencySignal := onDependencySignal

end ProfileNode

end LayeredAccess
