/-
  LayeredAccess.Profile.Basic

  Profile definitions: a payload laid over the compiled values of the
  dependencies. A profile has no flags, and no schema to comply with.
-/
import LayeredAccess.Json.Basic

namespace LayeredAccess

/-- Is the compiled value of a profile usable? -/
inductive ProfileState where
  | invalid
  | valid
  deriving DecidableEq, Inhabited, Repr

/-- Descriptive data of a profile: a label and free attributes. -/
structure ProfileMetadata where
  label : Option String := none
  attributes : KeyMap String Json := []
  deriving Inhabited

/-- The definition of a profile. -/
structure Profile where
  name : String
  entitlements : Json := .obj []
  dependencies : List String := []
  metadata : ProfileMetadata := {}
  deriving Inhabited

/-- A partial update of a profile: an absent field is left alone. -/
structure ProfilePatch where
  entitlements : Option Json := none
  dependencies : Option (List String) := none
  metadata : Option ProfileMetadata := none
  deriving Inhabited

namespace Profile

/-- The payload layers of its own. -/
def layers (p : Profile) : List Json := [p.entitlements]

/-- The patch that replaces every field. -/
def toPatch (p : Profile) : ProfilePatch where
  entitlements := some p.entitlements
  dependencies := some p.dependencies
  metadata := some p.metadata

end Profile

end LayeredAccess
