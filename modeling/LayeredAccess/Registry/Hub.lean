/-
  LayeredAccess.Registry.Hub

  Where definitions from outside arrive. A profile with a known name replaces
  the one there is, any other is entered. An engine is a registry of
  entitlements and a hub of profiles around one compiler.
-/
import LayeredAccess.Entitlement.Node
import LayeredAccess.Profile.Node
import LayeredAccess.Registry.Operations

namespace LayeredAccess

/-- A registry of entitlements. -/
abbrev EntitlementRegistry := Registry EntitlementNode

namespace Registry

/-- The flags of an entitlement. -/
def flags? (r : EntitlementRegistry) (key : String) : Option Flags := (r.get? key).map (·.state)

end Registry

/-- A registry of profiles that takes in definitions. -/
structure ProfileHub where
  registry : Registry ProfileNode := {}

namespace ProfileHub

/-- Changes the registry of a hub, keeping the answer of the change. -/
def onRegistry {α : Type} (h : ProfileHub) (f : Registry ProfileNode → α × Registry ProfileNode) :
    α × ProfileHub :=
  let (a, r) := f h.registry
  (a, ⟨r⟩)

/-- Enters a profile, or replaces the profile of its name. -/
def handleProfile (h : ProfileHub) (p : Profile) : Except EngineError Unit × ProfileHub :=
  h.onRegistry fun r =>
    if r.contains p.name then r.update p.name p.toPatch else r.add (.ofProfile p)

/-- Removes a profile. -/
def deleteProfile (h : ProfileHub) (name : String) : Except EngineError Profile × ProfileHub :=
  h.onRegistry fun r =>
    let (result, r) := r.delete name
    (result.map (·.profile), r)

/-- The cached value of a profile. -/
def compiled? (h : ProfileHub) (name : String) : Option Json := h.registry.compiled? name

/-- Is a profile usable? -/
def state? (h : ProfileHub) (name : String) : Option ProfileState :=
  (h.registry.get? name).map (·.state)

/-- The hub as it appears in diagnostics. -/
def describe (h : ProfileHub) : String :=
  "ProfileHub \x7b registry: " ++ h.registry.describe ++ " \x7d"

end ProfileHub

/-- A registry of entitlements and a hub of profiles that compile into one cache. -/
structure Engine where
  entitlements : EntitlementRegistry := {}
  profiles : ProfileHub := {}
  /-- Both sides see the same cache. -/
  shared : profiles.registry.compiler = entitlements.compiler := by rfl

namespace Engine

/-- Works on the entitlements; the profiles see what became of the cache. -/
def onEntitlements {α : Type} (e : Engine) (f : EntitlementRegistry → α × EntitlementRegistry) :
    α × Engine :=
  let result := f e.entitlements
  (result.1,
   { entitlements := result.2
     profiles := ⟨{ e.profiles.registry with compiler := result.2.compiler }⟩ })

/-- Works on the profiles; the entitlements see what became of the cache. -/
def onProfiles {α : Type} (e : Engine) (f : ProfileHub → α × ProfileHub) : α × Engine :=
  let result := f e.profiles
  (result.1,
   { entitlements := { e.entitlements with compiler := result.2.registry.compiler }
     profiles := result.2 })

end Engine

end LayeredAccess
