/-
  LayeredAccess.Proofs.Node.Announcement

  When a node wants the directory told. An entitlement that is told what it
  expects wants so exactly if it becomes dependable thereby and is not implicit
  (`EntitlementNode.announces_answer`). It asks after it has told its
  dependents. A profile never wants so.
-/
import LayeredAccess.Proofs.Node.Answers

namespace LayeredAccess

/-- What a node is told fits how far it has come: it is entered unverified, and a value that is
said to comply, or that counts as verified when the node is customized, is held. -/
def NodeView.Expects (v : NodeView) : Notice → Prop
  | .own signal .registry =>
    match signal with
    | .added => v.verified = false
    | .validated => v.verified = false ∧ v.compiled.isSome = true
    | .customized _ => v.verified = true → v.compiled.isSome = true
    | _ => True
  | _ => True

/-! ## Entitlements -/

namespace EntitlementNode

/-- What an entitlement wants said when it has become another: if it has become dependable then
all that is due, and otherwise nothing to the directory. -/
inductive Announces (before after : EntitlementNode) : List Effect → Prop
  | rise (hwas : before.has .dependable = false) (hnow : after.has .dependable = true)
    (hheld : after.compiled.isSome = true) : Announces before after after.announce
  | rest {effects : List Effect}
    (hkept : after.has .dependable = true → before.has .dependable = true)
    (hquiet : .announce ∉ effects) : Announces before after effects

variable {n m : EntitlementNode} {effects : List Effect}

theorem announce_not_mem_compileIfReady (n : EntitlementNode) : .announce ∉ n.compileIfReady :=
  fun he => Effect.noConfusion (eq_compile_of_mem he)

/-- An entitlement whose flags stay as they are becomes nothing else. -/
theorem announces_of_state_eq (hstate : m.state = n.state) (hquiet : .announce ∉ effects) :
    Announces n m effects :=
  .rest (fun hnow => by rwa [has, ← hstate]) hquiet

/-- An entitlement that has lost its value is not dependable. -/
theorem announces_invalidate (n : EntitlementNode) (hquiet : .announce ∉ effects) :
    Announces m n.invalidate effects := by
  refine .rest (fun hnow => ?_) hquiet
  rw [has_dependable, view_invalidate, NodeView.fallen_dependable] at hnow
  simp at hnow

/-- What is dependable is both active and verified. -/
theorem has_dependable_eq (n : EntitlementNode) :
    n.has .dependable = (n.has .active && n.has .valid) := by
  rw [has, has, has, Flags.contains_dependable, Flags.contains_active, Flags.contains_valid]

theorem announces_added (hplain : n.has .valid = false) :
    Announces n (n.onSignal .added .registry).2 (n.onSignal .added .registry).1 := by
  let active : EntitlementNode := { n with state := n.state.insert .active }
  have hvalid : active.has .valid = n.has .valid := by
    rw [has, has, Flags.contains_valid, Flags.contains_valid]
    simp [active, Flags.bits_active]
  refine .rest (fun hnow => ?_) (announce_not_mem_compileIfReady active)
  have hnow : active.has .dependable = true := hnow
  rw [has_dependable_eq, hvalid, hplain, Bool.and_false] at hnow
  simp at hnow

theorem announces_validated (hplain : n.has .valid = false) (hheld : n.compiled.isSome = true) :
    Announces n (n.onSignal .validated .registry).2 (n.onSignal .validated .registry).1 := by
  let valid : EntitlementNode := { n with state := n.state.insert .valid }
  have hwas : n.has .dependable = false := by rw [has_dependable_eq, hplain, Bool.and_false]
  have hvalid : valid.has .valid = true := by
    rw [has, Flags.contains_valid]
    simp [valid, Flags.bits_valid]
  show Announces n valid (if valid.has .active then valid.announce else [])
  cases hactive : valid.has .active with
  | true => exact .rise hwas (by rw [has_dependable_eq, hactive, hvalid]; rfl) hheld
  | false =>
    refine .rest (fun hnow => ?_) (by simp)
    rw [has_dependable_eq, hactive] at hnow
    simp at hnow

theorem announces_customized (flags : Flags)
    (hheld : n.has .valid = true → n.compiled.isSome = true) :
    Announces n (n.onSignal (.customized flags) .registry).2
      (n.onSignal (.customized flags) .registry).1 := by
  have hvalid : (n.customize flags).2.has .valid = n.has .valid := by
    rw [has, has, Flags.contains_valid, Flags.contains_valid]
    simp [customize, Flags.bits_derived, Flags.bits_customizable]
  show Announces n (n.customize flags).2 (n.customize flags).1
  simp only [customize] at hvalid ⊢
  generalize hm : ({ n with state := flags &&& .customizable ||| n.state &&& .derived } :
    EntitlementNode) = m at hvalid ⊢
  have hcompiled : m.compiled = n.compiled := by rw [← hm]
  have hoff : m.has .active = false → m.has .dependable = true → n.has .dependable = true := by
    intro hactive hnow
    rw [has_dependable_eq, hactive] at hnow
    simp at hnow
  -- Only an entitlement that is switched on can become dependable.
  cases hwas : n.has .active <;> cases hactive : m.has .active
  · exact .rest (hoff hactive) (by simp)
  · cases hverified : m.has .valid with
    | true =>
      refine .rise ?_ ?_ (hcompiled ▸ hheld (hvalid.symm.trans hverified))
      · rw [has_dependable_eq, hwas, Bool.false_and]
      · rw [has_dependable_eq, hactive, hverified]
        rfl
    | false =>
      refine .rest (fun hnow => ?_) ?_
      · rw [has_dependable_eq, hverified, Bool.and_false] at hnow
        simp at hnow
      · show .announce ∉ if !m.has .compiled then m.compileIfReady else []
        split
        · exact announce_not_mem_compileIfReady m
        · simp
  · exact .rest (hoff hactive) (by simp)
  · refine .rest (fun hnow => ?_) (by simp)
    rw [has_dependable_eq, hactive, hvalid] at hnow
    rw [has_dependable_eq, hwas, hnow]

/-- An entitlement that is told what it expects wants the directory told exactly if it becomes
dependable thereby and is not implicit. -/
theorem announces_answer (n : EntitlementNode) {notice : Notice}
    (hfrom : notice.FromNode n.entitlement.id) (hexpects : (Node.view n).Expects notice) :
    Announces n (Registry.answer n notice).2 (Registry.answer n notice).1 := by
  match notice, hfrom, hexpects with
  | .own s (.node k), hfrom, _ =>
    obtain rfl : k = n.entitlement.id := hfrom
    have hecho : Registry.answer n (.own s (.node n.entitlement.id)) = ([], n) := if_pos rfl
    rw [hecho]
    exact announces_of_state_eq rfl (by simp)
  | .own .added .registry, _, hplain => exact announces_added hplain
  | .own (.compiled x) .registry, _, _ =>
    -- That a value is held does not make the entitlement dependable yet.
    refine .rest (fun hnow => ?_) (by simp [Registry.answer, Node.onSignal, onSignal])
    rw [has, Flags.contains_dependable] at hnow ⊢
    simpa [Registry.answer, Node.onSignal, onSignal, Flags.bits_compiled] using hnow
  | .own .validated .registry, _, ⟨hplain, hheld⟩ => exact announces_validated hplain hheld
  | .own .updated .registry, _, _ =>
    refine announces_invalidate n (List.not_mem_cons_of_ne_of_not_mem (by simp) ?_)
    exact announce_not_mem_compileIfReady n.invalidate
  | .own .deleted .registry, _, _ =>
    have hquiet : Effect.announce ∉ [.broadcast .invalidated false] := by simp
    exact announces_invalidate n hquiet
  | .own (.customized flags) .registry, _, hheld => exact announces_customized flags hheld
  | .own .invalidated .registry, _, _ => exact announces_of_state_eq (m := n) rfl List.not_mem_nil
  | .dependency d s, _, _ =>
    have hlost : Announces n
        (if n.compiled.isSome || n.has .valid then (n.record d false).invalidate
          else n.record d false)
        (if n.has .dependable then [.broadcast .invalidated true] else []) := by
      have hquiet : Effect.announce ∉
          (if n.has .dependable then [.broadcast .invalidated true] else []) := by
        split <;> simp
      split
      · exact announces_invalidate _ hquiet
      · exact announces_of_state_eq rfl hquiet
    cases s with
    | invalidated | deleted | updated => exact hlost
    | validated =>
      exact announces_of_state_eq rfl (announce_not_mem_compileIfReady (n.record d true))
    | added | compiled | customized => exact announces_of_state_eq (m := n) rfl List.not_mem_nil

end EntitlementNode

/-! ## Profiles -/

namespace ProfileNode

/-- A profile never wants the directory told. -/
theorem announce_not_mem_answer (n : ProfileNode) (notice : Notice) :
    .announce ∉ (Registry.answer n notice).1 := by
  -- Neither compiling nor a loss is told to the directory.
  have hcompile : ∀ m : ProfileNode, .announce ∉ m.compileIfReady :=
    fun _ he => Effect.noConfusion (eq_compile_of_mem he)
  have hloss : ∀ wide, .announce ∉ n.loss wide := by
    intro wide
    unfold loss
    split <;> simp
  cases notice with
  | own s origin =>
    show .announce ∉ (n.onSignal s origin).1
    unfold onSignal
    split
    · simp
    · cases s with
      | added => exact hcompile n
      | compiled | validated | invalidated | customized => simp
      | updated => exact List.not_mem_append (hloss false) (hcompile n)
      | deleted => exact hloss false
  | dependency d s =>
    show .announce ∉ (n.onDependencySignal d s).1
    cases s with
    | invalidated | deleted | updated =>
      simp only [onDependencySignal]
      split
      · exact hloss true
      · simp
    | validated =>
      simp only [onDependencySignal]
      split
      · simp
      · exact hcompile (n.record d true)
    | added | compiled | customized => simp [onDependencySignal]

end ProfileNode

end LayeredAccess
