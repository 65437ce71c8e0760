/-
  LayeredAccess.Proofs.Registry.Operation

  What users do to a registry, as data. Whatever they do, refused operations
  included, a coherent registry stays coherent.
-/
import LayeredAccess.Proofs.Registry.Removing
import LayeredAccess.Proofs.Registry.Switching

namespace LayeredAccess

/-- Something that users do to a registry. Nodes are entered freshly made. -/
inductive Operation (ν : Type) [Node ν] [NodeKind ν] where
  | add (definition : NodeKind.Definition ν)
  | update (key : String) (patch : Node.Patch ν)
  | delete (key : String)
  | customize (key : String) (flags : Flags)
  | clearCache

namespace Registry

variable {ν : Type} [Node ν] [NodeKind ν]

/-- Does an operation, whether it is refused or not. -/
def operate (r : Registry ν) : Operation ν → Registry ν
  | .add definition => (r.add (NodeKind.ofDefinition definition)).2
  | .update key patch => (r.update key patch).2
  | .delete key => (r.delete key).2
  | .customize key flags => (r.customize key flags).2
  | .clearCache => r.clearCache

/-- Does operations one after the other. -/
def operateAll (r : Registry ν) (operations : List (Operation ν)) : Registry ν :=
  operations.foldl operate r

/-- The registry before anything has been done to it. -/
def fresh (config : EngineConfig) (verifier : Option Verifier) : Registry ν := { config, verifier }

variable {verifier : Option Verifier} {r : Registry ν}

/-- A fresh registry is coherent. -/
theorem coherent_fresh (config : EngineConfig) (verifier : Option Verifier) :
    Coherent verifier (fresh config verifier : Registry ν) := by
  have hview : ∀ k, (fresh config verifier : Registry ν).view? k = none := fun _ => rfl
  refine ⟨⟨wired_empty config verifier, rfl, fun k v hv => ?_, fun _ => rfl⟩, fun k v hv => ?_⟩
  · simp [hview] at hv
  · simp [hview] at hv

variable [LawfulNode ν]

/-- Every operation leaves a coherent registry behind, going by moves. -/
theorem Coherent.sound_operate (h : Coherent verifier r) (operation : Operation ν) :
    Sound verifier r (r.operate operation) := by
  cases operation with
  | add definition => exact h.sound_add definition
  | update key patch => exact h.sound_update key patch
  | delete key => exact h.sound_delete key
  | customize key flags => exact h.sound_customize key flags
  | clearCache => exact h.sound_clearCache

theorem Coherent.sound_operateAll (h : Coherent verifier r) (operations : List (Operation ν)) :
    Sound verifier r (r.operateAll operations) := by
  induction operations generalizing r with
  | nil => exact ⟨h, fun _ _ hr => hr⟩
  | cons operation rest ih =>
    have hfirst := h.sound_operate operation
    have hrest := ih hfirst.coherent
    exact ⟨hrest.coherent, hfirst.evolves.trans hrest.evolves⟩

end Registry

end LayeredAccess
