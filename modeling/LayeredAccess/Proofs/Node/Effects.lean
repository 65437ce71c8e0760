/-
  LayeredAccess.Proofs.Node.Effects

  Of what nodes speak. A node that is told of a gain asks for work or passes a
  gain on, but tells nobody of a loss. What it has to say because of news about
  itself goes to those who follow the node, not to those who follow the kind.
-/
import LayeredAccess.Proofs.Node.Entitlement
import LayeredAccess.Proofs.Node.Profile

namespace LayeredAccess

/-! ## Gains -/

/-- The signals that speak of a gain. -/
def Signal.IsGain : Signal → Prop
  | .compiled _ | .validated => True
  | _ => False

def Notice.IsGain : Notice → Prop
  | .own signal _ => signal.IsGain
  | .dependency _ signal => signal.IsGain

def Effect.IsGain : Effect → Prop
  | .broadcast signal _ => signal.IsGain
  | _ => True

/-- The laws of what nodes say. -/
class SpeakingNode (ν : Type) [Node ν] : Prop where
  /-- Gains lead to gains. -/
  gain_answer (n : ν) {notice : Notice} : notice.IsGain →
    ∀ e ∈ (Registry.answer n notice).1, e.IsGain
  /-- News about a node itself are told to its followers alone. -/
  narrow_answer (n : ν) (signal : Signal) (origin : Origin) :
    ∀ s, .broadcast s true ∉ (Registry.answer n (.own signal origin)).1

/-! ## Profiles -/

namespace ProfileNode

theorem isGain_compileIfReady (n : ProfileNode) : ∀ e ∈ n.compileIfReady, e.IsGain :=
  fun _ he => eq_compile_of_mem he ▸ trivial

theorem not_mem_compileIfReady (n : ProfileNode) (s : Signal) (wide : Bool) :
    .broadcast s wide ∉ n.compileIfReady := fun he => Effect.noConfusion (eq_compile_of_mem he)

theorem not_mem_loss (n : ProfileNode) (s : Signal) : .broadcast s true ∉ n.loss false := by
  unfold loss
  split <;> simp

theorem narrow_onSignal (n : ProfileNode) (signal : Signal) (origin : Origin) (s : Signal) :
    .broadcast s true ∉ (n.onSignal signal origin).1 := by
  unfold onSignal
  split
  · simp
  · cases signal with
    | added => exact not_mem_compileIfReady n s true
    | compiled => simp
    | updated =>
      simp only [List.mem_append, not_or]
      exact ⟨not_mem_loss n s, not_mem_compileIfReady n s true⟩
    | deleted => exact not_mem_loss n s
    | validated | invalidated | customized => simp

instance : SpeakingNode ProfileNode where
  gain_answer n {notice} hgain := by
    cases notice with
    | own signal origin =>
      show ∀ e ∈ (n.onSignal signal origin).1, e.IsGain
      unfold onSignal
      split
      · simp
      · cases signal with
        | compiled => simp [Effect.IsGain, Signal.IsGain]
        | validated => simp
        | added | updated | deleted | invalidated | customized => exact hgain.elim
    | dependency d signal =>
      show ∀ e ∈ (n.onDependencySignal d signal).1, e.IsGain
      cases signal with
      | compiled => simp [onDependencySignal]
      | validated =>
        simp only [onDependencySignal]
        split
        · simp
        · exact isGain_compileIfReady _
      | added | updated | deleted | invalidated | customized => exact hgain.elim
  narrow_answer := narrow_onSignal

end ProfileNode

/-! ## Entitlements -/

namespace EntitlementNode

theorem isGain_compileIfReady (n : EntitlementNode) : ∀ e ∈ n.compileIfReady, e.IsGain :=
  fun _ he => eq_compile_of_mem he ▸ trivial

theorem isGain_announce (n : EntitlementNode) : ∀ e ∈ n.announce, e.IsGain := by
  unfold announce
  split <;> simp [Effect.IsGain, Signal.IsGain]

theorem not_mem_compileIfReady (n : EntitlementNode) (s : Signal) (wide : Bool) :
    .broadcast s wide ∉ n.compileIfReady := fun he => Effect.noConfusion (eq_compile_of_mem he)

theorem not_mem_announce (n : EntitlementNode) (s : Signal) : .broadcast s true ∉ n.announce := by
  unfold announce
  split <;> simp

theorem narrow_customize (n : EntitlementNode) (flags : Flags) (s : Signal) :
    .broadcast s true ∉ (n.customize flags).1 := by
  simp only [customize]
  split
  · simp
  · split
    · exact not_mem_announce _ s
    · split
      · exact not_mem_compileIfReady _ s true
      · simp
  · simp

theorem narrow_onSignal (n : EntitlementNode) (signal : Signal) (origin : Origin) (s : Signal) :
    .broadcast s true ∉ (n.onSignal signal origin).1 := by
  unfold onSignal
  split
  · simp
  · cases signal with
    | added => exact not_mem_compileIfReady _ s true
    | compiled => simp
    | validated =>
      dsimp only
      split
      · exact not_mem_announce _ s
      · simp
    | updated =>
      refine List.not_mem_cons_of_ne_of_not_mem (by simp) ?_
      exact not_mem_compileIfReady _ s true
    | deleted => simp
    | customized flags => exact narrow_customize n flags s
    | invalidated => simp

instance : SpeakingNode EntitlementNode where
  gain_answer n {notice} hgain := by
    cases notice with
    | own signal origin =>
      show ∀ e ∈ (n.onSignal signal origin).1, e.IsGain
      unfold onSignal
      split
      · simp
      · cases signal with
        | compiled => simp [Effect.IsGain]
        | validated =>
          dsimp only
          split
          · exact isGain_announce _
          · simp
        | added | updated | deleted | invalidated | customized => exact hgain.elim
    | dependency d signal =>
      cases signal with
      | compiled => simp [Registry.answer, Node.onDependencySignal, onDependencySignal]
      | validated => exact isGain_compileIfReady _
      | added | updated | deleted | invalidated | customized => exact hgain.elim
  narrow_answer := narrow_onSignal

end EntitlementNode

end LayeredAccess
