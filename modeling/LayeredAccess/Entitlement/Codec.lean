/-
  LayeredAccess.Entitlement.Codec

  Entitlement definitions, patches and flags as JSON.
-/
import LayeredAccess.Encode
import LayeredAccess.Entitlement.Basic

namespace LayeredAccess

open Decode Encode

namespace Flags

/-- The bits of the set. -/
def encode (f : Flags) : Json := .int f.bits.toNat

def decode : Decoder Flags := fun v => (byte v).map Flags.mk

end Flags

namespace EntitlementMetadata

def fields : List (Slot EntitlementMetadata) :=
  [defaulted "service_id" (optional Uuid.decode) fun v m => { m with serviceId := v },
   defaulted "resource" (optional text) fun v m => { m with resource := v },
   defaulted "label" (optional text) fun v m => { m with label := v },
   defaulted "tags" texts fun v m => { m with tags := v }]

def decode : Decoder EntitlementMetadata := Decode.record "EntitlementMetadata" fields {}

def encode (m : EntitlementMetadata) : Json :=
  Encode.record
    [present "service_id" Uuid.encode m.serviceId,
     present "resource" .str m.resource,
     present "label" .str m.label,
     nonempty "tags" .str m.tags]

end EntitlementMetadata

namespace Entitlement

def fields : List (Slot Entitlement) :=
  [required "id" text fun v e => { e with id := v },
   defaulted "own" any fun v e => { e with own := v },
   defaulted "completion" (optional any) fun v e => { e with completion := v },
   defaulted "dependencies" texts fun v e => { e with dependencies := v },
   defaulted "metadata" EntitlementMetadata.decode fun v e => { e with metadata := v },
   defaulted "flags" Flags.decode fun v e => { e with flags := v }]

def decode : Decoder Entitlement := Decode.record "Entitlement" fields { id := "" }

def encode (e : Entitlement) : Json :=
  Encode.record
    [always "id" (.str e.id),
     always "own" e.own,
     present "completion" itself e.completion,
     always "dependencies" (.ofStrings e.dependencies),
     always "metadata" e.metadata.encode,
     always "flags" e.flags.encode]

end Entitlement

namespace EntitlementPatch

def fields : List (Slot EntitlementPatch) :=
  [defaulted "own" (optional any) fun v p => { p with own := v },
   defaulted "completion" (optional any) fun v p => { p with completion := v },
   defaulted "dependencies" (optional texts) fun v p => { p with dependencies := v },
   defaulted "metadata" (optional EntitlementMetadata.decode) fun v p => { p with metadata := v }]

def decode : Decoder EntitlementPatch := Decode.record "EntitlementPatch" fields {}

def encode (p : EntitlementPatch) : Json :=
  Encode.record
    [always "own" (nullable itself p.own),
     always "completion" (nullable itself p.completion),
     always "dependencies" (nullable .ofStrings p.dependencies),
     always "metadata" (nullable EntitlementMetadata.encode p.metadata)]

end EntitlementPatch

end LayeredAccess
