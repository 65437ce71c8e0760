/-
  LayeredAccess.Entitlement.Basic

  Entitlement definitions: an own payload and a completion, merged over the
  compiled values of the dependencies, with descriptive data. A patch changes
  some of the fields and leaves the others alone.
-/
import LayeredAccess.Flags
import LayeredAccess.Uuid

namespace LayeredAccess

/-- Descriptive data of an entitlement. -/
structure EntitlementMetadata where
  /-- The service that the entitlement's id was made for. -/
  serviceId : Option Uuid := none
  /-- The schema that the compiled value has to comply with. -/
  resource : Option String := none
  label : Option String := none
  tags : List String := []
  deriving DecidableEq, Inhabited, Repr

/-- The definition of an entitlement. -/
structure Entitlement where
  id : String
  /-- The own payload, laid over the dependencies. -/
  own : Json := .obj []
  /-- The completion, laid over everything else. -/
  completion : Option Json := none
  dependencies : List String := []
  metadata : EntitlementMetadata := {}
  /-- The flags to start with. -/
  flags : Flags := .empty
  deriving Inhabited

/-- A partial update of an entitlement: an absent field is left alone. -/
structure EntitlementPatch where
  own : Option Json := none
  completion : Option Json := none
  dependencies : Option (List String) := none
  metadata : Option EntitlementMetadata := none
  deriving Inhabited

namespace Entitlement

/-- The payload layers of its own, lowest first. -/
def layers (e : Entitlement) : List Json := e.own :: e.completion.toList

end Entitlement

end LayeredAccess
