/-
  LayeredAccess.Profile.Codec

  Profile definitions and patches as JSON. The attributes of a profile stand
  beside its label, so every other member of its metadata is an attribute.
-/
import LayeredAccess.Decode
import LayeredAccess.Encode
import LayeredAccess.Profile.Basic

namespace LayeredAccess

open Decode Encode

namespace ProfileState

def names : List (String × ProfileState) := [("invalid", .invalid), ("valid", .valid)]

def decode : Decoder ProfileState := choice names

def toString : ProfileState → String
  | .invalid => "invalid"
  | .valid => "valid"

def encode (s : ProfileState) : Json := .str s.toString

end ProfileState

namespace ProfileMetadata

/-- Metadata is an object; it has no array form. -/
def decode : Decoder ProfileMetadata
  | .obj members => do
    let label ← match KeyMap.find? members "label" with
      | some v => optional text v
      | none => pure none
    return { label, attributes := KeyMap.erase members "label" }
  | v => .error (.wrongType v "struct ProfileMetadata")

def encode (m : ProfileMetadata) : Json :=
  Json.mkObj ((m.label.map fun l => ("label", Json.str l)).toList ++ m.attributes)

end ProfileMetadata

namespace Profile

def fields : List (Slot Profile) :=
  [required "name" text fun v p => { p with name := v },
   defaulted "entitlements" any fun v p => { p with entitlements := v },
   defaulted "dependencies" texts fun v p => { p with dependencies := v },
   defaulted "metadata" ProfileMetadata.decode fun v p => { p with metadata := v }]

def decode : Decoder Profile := Decode.record "Profile" fields { name := "" }

def encode (p : Profile) : Json :=
  Encode.record
    [always "name" (.str p.name),
     always "entitlements" p.entitlements,
     always "dependencies" (.ofStrings p.dependencies),
     always "metadata" p.metadata.encode]

end Profile

namespace ProfilePatch

def fields : List (Slot ProfilePatch) :=
  [defaulted "entitlements" (optional any) fun v p => { p with entitlements := v },
   defaulted "dependencies" (optional texts) fun v p => { p with dependencies := v },
   defaulted "metadata" (optional ProfileMetadata.decode) fun v p => { p with metadata := v }]

def decode : Decoder ProfilePatch := Decode.record "ProfilePatch" fields {}

def encode (p : ProfilePatch) : Json :=
  Encode.record
    [always "entitlements" (nullable itself p.entitlements),
     always "dependencies" (nullable .ofStrings p.dependencies),
     always "metadata" (nullable ProfileMetadata.encode p.metadata)]

end ProfilePatch

end LayeredAccess
