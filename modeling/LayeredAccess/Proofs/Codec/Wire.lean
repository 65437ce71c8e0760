/-
  LayeredAccess.Proofs.Codec.Wire

  The types that go over the wire as JSON, and the law of their codecs: what a
  decoder makes of a value is written in one form, and reading that form gives it
  again (`WireType.decode_encode_of_decode`).

  A decoder lets in much that is never written: members nobody asks for, fields
  left out or `null`, records as arrays, a name as an object with one member. So a
  value is in general not what is written for it, but writing once is enough:
  reading and writing again changes nothing more.
-/
import LayeredAccess.Proofs.Codec.Compliance
import LayeredAccess.Proofs.Codec.Records

namespace LayeredAccess

open Decode Codec

/-- The types that go over the wire. -/
inductive WireType where
  | entitlement
  | entitlementPatch
  | entitlementMetadata
  | profile
  | profilePatch
  | profileMetadata
  | action
  | envelope
  | compileJob
  | schema
  | comply
  | ruleDefinition
  | ruleArg
  | ruleRef
  | report
  | violationReason
  | engineConfig
  | sandboxConfig
  | compileMode
  deriving DecidableEq, Repr

namespace WireType

/-- The values of a type. -/
def Carrier : WireType → Type
  | entitlement => Entitlement
  | entitlementPatch => EntitlementPatch
  | entitlementMetadata => EntitlementMetadata
  | profile => Profile
  | profilePatch => ProfilePatch
  | profileMetadata => ProfileMetadata
  | action => Action
  | envelope => Envelope
  | compileJob => CompileJob
  | schema => Compliance.Schema
  | comply => Compliance.Comply
  | ruleDefinition => Compliance.RuleDefinition
  | ruleArg => Compliance.RuleArg
  | ruleRef => Compliance.RuleRef
  | report => Compliance.Report
  | violationReason => Compliance.ViolationReason
  | engineConfig => EngineConfig
  | sandboxConfig => SandboxConfig
  | compileMode => CompileMode

/-- How values of a type are read. -/
def decode : (t : WireType) → Decoder t.Carrier
  | entitlement => Entitlement.decode
  | entitlementPatch => EntitlementPatch.decode
  | entitlementMetadata => EntitlementMetadata.decode
  | profile => Profile.decode
  | profilePatch => ProfilePatch.decode
  | profileMetadata => ProfileMetadata.decode
  | action => Action.decode
  | envelope => Envelope.decode
  | compileJob => CompileJob.decode
  | schema => Compliance.Schema.decode
  | comply => Compliance.Comply.decode
  | ruleDefinition => Compliance.RuleDefinition.decode
  | ruleArg => Compliance.RuleArg.decode
  | ruleRef => Compliance.RuleRef.decode
  | report => Compliance.Report.decode
  | violationReason => Compliance.ViolationReason.decode
  | engineConfig => EngineConfig.decode
  | sandboxConfig => SandboxConfig.decode
  | compileMode => CompileMode.decode

/-- How values of a type are written. -/
def encode : (t : WireType) → t.Carrier → Json
  | entitlement => Entitlement.encode
  | entitlementPatch => EntitlementPatch.encode
  | entitlementMetadata => EntitlementMetadata.encode
  | profile => Profile.encode
  | profilePatch => ProfilePatch.encode
  | profileMetadata => ProfileMetadata.encode
  | action => Action.encode
  | envelope => Envelope.encode
  | compileJob => CompileJob.encode
  | schema => Compliance.Schema.encode
  | comply => Compliance.Comply.encode
  | ruleDefinition => Compliance.RuleDefinition.encode
  | ruleArg => Compliance.RuleArg.encode
  | ruleRef => Compliance.RuleRef.encode
  | report => Compliance.Report.encode
  | violationReason => Compliance.ViolationReason.encode
  | engineConfig => EngineConfig.encode
  | sandboxConfig => SandboxConfig.encode
  | compileMode => CompileMode.encode

protected theorem stable (t : WireType) : Stable t.decode t.encode :=
  match t with
  | entitlement => Entitlement.stable
  | entitlementPatch => EntitlementPatch.stable
  | entitlementMetadata => EntitlementMetadata.stable
  | profile => Profile.stable
  | profilePatch => ProfilePatch.stable
  | profileMetadata => ProfileMetadata.stable
  | action => Action.stable
  | envelope => Envelope.stable
  | compileJob => CompileJob.stable
  | schema => Compliance.Schema.stable
  | comply => Compliance.Comply.stable
  | ruleDefinition => Compliance.RuleDefinition.stable
  | ruleArg => Compliance.RuleArg.stable
  | ruleRef => Compliance.RuleRef.stable
  | report => Compliance.Report.stable
  | violationReason => Compliance.ViolationReason.stable
  | engineConfig => EngineConfig.stable
  | sandboxConfig => SandboxConfig.stable
  | compileMode => stable_compileMode

/-- What has been read is written in a form that is read as the same value, and reading and writing
that form gives the form again. -/
theorem decode_encode_of_decode (t : WireType) {v : Json} (hv : v.Ordered) {x : t.Carrier}
    (h : t.decode v = .ok x) :
    t.decode (t.encode x) = .ok x ∧ (t.decode (t.encode x)).map t.encode = .ok (t.encode x) := by
  have hread : t.decode (t.encode x) = .ok x := (t.stable.keeps hv h).reads
  refine ⟨hread, ?_⟩
  rw [hread]
  rfl

/-- An entry with a member that nobody asks for, a label that is `null`, a rule without arguments
as an array, and below it an entry as an array. -/
theorem decode_encode_of_decode_mixed :
    let v : Json := .obj
      [("children", .arr [.arr [.str "leaf", .null, .str "2"]]),
       ("comply", .obj [("rules", .arr [.arr [.str "required"], .arr [.str "min", .int 3]])]),
       ("extra", .int 1), ("label", .null), ("name", .str "root")]
    let x : Compliance.Schema :=
      { name := "root"
        comply := some { rules := [{ name := "required" }, { name := "min", args := [.int 3] }] }
        children := [{ name := "leaf", revision := some "2" }] }
    v.Ordered ∧ schema.decode v = .ok x ∧ schema.decode (schema.encode x) = .ok x ∧
      (schema.decode (schema.encode x)).map schema.encode = .ok (schema.encode x) := by
  intro v x
  have hv : v.Ordered := by decide
  have hread : schema.decode v = .ok x := rfl
  exact ⟨hv, hread, decode_encode_of_decode schema hv hread⟩

end WireType

end LayeredAccess
