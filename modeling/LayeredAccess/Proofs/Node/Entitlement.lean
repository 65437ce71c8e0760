/-
  LayeredAccess.Proofs.Node.Entitlement

  Entitlements answer by the laws of nodes. Their flags are bits of a byte, and
  each operation on flags works bit by bit.
-/
import LayeredAccess.Entitlement.Node
import LayeredAccess.Proofs.Node.View

namespace LayeredAccess

namespace Flags

/-! ## Flags bit by bit -/

/-- Is a bit set? -/
def bit (a : Flags) (i : Nat) : Bool := a.bits.toBitVec.getLsbD i

@[simp] theorem bit_or (a b : Flags) (i : Nat) : (a ||| b).bit i = (a.bit i || b.bit i) := by
  show (a.bits ||| b.bits).toBitVec.getLsbD i = _
  rw [UInt8.toBitVec_or, BitVec.getLsbD_or]
  rfl

@[simp] theorem bit_and (a b : Flags) (i : Nat) : (a &&& b).bit i = (a.bit i && b.bit i) := by
  show (a.bits &&& b.bits).toBitVec.getLsbD i = _
  rw [UInt8.toBitVec_and, BitVec.getLsbD_and]
  rfl

@[simp] theorem bit_insert (a b : Flags) (i : Nat) :
    (a.insert b).bit i = (a.bit i || b.bit i) := bit_or a b i

theorem bit_remove (a b : Flags) {i : Nat} (hi : i < 8) :
    (a.remove b).bit i = (a.bit i && !b.bit i) := by
  show (a.bits &&& ~~~b.bits).toBitVec.getLsbD i = _
  rw [UInt8.toBitVec_and, UInt8.toBitVec_not, BitVec.getLsbD_and, BitVec.getLsbD_not]
  simp [hi, bit]

/-- Flags with the same bits are the same. -/
theorem ext_bit {a b : Flags} (h : ∀ i < 8, a.bit i = b.bit i) : a = b := by
  have hbits : a.bits = b.bits := UInt8.toBitVec_inj.1 (BitVec.eq_of_getLsbD_eq h)
  cases a
  cases b
  exact congrArg Flags.mk hbits

/-- A set of flags contains another if each bit of the other is set in it. -/
theorem contains_iff (a b : Flags) :
    a.contains b = true ↔ ∀ i < 8, b.bit i = true → a.bit i = true := by
  rw [contains, beq_iff_eq, ← UInt8.toBitVec_inj, UInt8.toBitVec_and]
  constructor
  · intro h i _ hb
    have hi := congrArg (fun x => x.getLsbD i) h
    simp only [BitVec.getLsbD_and] at hi
    rw [bit] at hb ⊢
    rw [hb, Bool.and_true] at hi
    exact hi
  · intro h
    apply BitVec.eq_of_getLsbD_eq
    intro i hi
    have := h i hi
    simp only [bit] at this
    rw [BitVec.getLsbD_and]
    cases hb : b.bits.toBitVec.getLsbD i <;> simp_all

/-- A flag that is a single bit is contained where the bit is set. -/
theorem contains_eq_bit {b : Flags} {i : Nat} (hi : i < 8)
    (hb : ∀ j < 8, b.bit j = true ↔ j = i) (a : Flags) : a.contains b = a.bit i := by
  rw [Bool.eq_iff_iff, contains_iff]
  constructor
  · intro h
    exact h i hi ((hb i hi).2 rfl)
  · intro h j hj hbj
    rw [(hb j hj).1 hbj]
    exact h

theorem contains_active (a : Flags) : a.contains active = a.bit 0 :=
  contains_eq_bit (by decide) (by decide) a

theorem contains_compiled (a : Flags) : a.contains compiled = a.bit 1 :=
  contains_eq_bit (by decide) (by decide) a

theorem contains_valid (a : Flags) : a.contains valid = a.bit 2 :=
  contains_eq_bit (by decide) (by decide) a

/-- What is dependable is both active and verified. -/
theorem contains_dependable (a : Flags) : a.contains dependable = (a.bit 0 && a.bit 2) := by
  have hbits : ∀ j < 8, dependable.bit j = true ↔ j = 0 ∨ j = 2 := by decide
  rw [Bool.eq_iff_iff, contains_iff, Bool.and_eq_true]
  constructor
  · intro h
    exact ⟨h 0 (by decide) (by decide), h 2 (by decide) (by decide)⟩
  · rintro ⟨h0, h2⟩ j hj hb
    rcases (hbits j hj).1 hb with rfl | rfl
    · exact h0
    · exact h2

/-! ### The bits that say how far an entitlement has come -/

theorem bits_active : active.bit 0 = true ∧ active.bit 1 = false ∧ active.bit 2 = false := by decide

theorem bits_compiled :
    compiled.bit 0 = false ∧ compiled.bit 1 = true ∧ compiled.bit 2 = false := by decide

theorem bits_valid : valid.bit 0 = false ∧ valid.bit 1 = false ∧ valid.bit 2 = true := by decide

theorem bits_derived :
    derived.bit 0 = false ∧ derived.bit 1 = true ∧ derived.bit 2 = true := by decide

theorem bits_initial :
    initial.bit 0 = false ∧ initial.bit 1 = false ∧ initial.bit 2 = false := by decide

theorem bits_customizable :
    customizable.bit 0 = true ∧ customizable.bit 1 = false ∧ customizable.bit 2 = false := by decide

end Flags

/-! ## The laws -/

namespace EntitlementNode

instance : NodeKind EntitlementNode where
  Definition := Entitlement
  ofDefinition := ofEntitlement
  isActive n := n.has .active
  isVerified n := n.has .valid
  isMarked n := n.has .compiled
  verifies := true

open Node NodeView

theorem view_eq (n : EntitlementNode) : view n =
    { key := n.entitlement.id
      inputs :=
        { dependencies := n.entitlement.dependencies, layers := n.entitlement.layers
          resource := n.entitlement.metadata.resource, active := n.state.bit 0 }
      compiled := n.compiled, verified := n.state.bit 2, marked := n.state.bit 1
      recorded := KeyMap.find? n.readiness } := by
  simp only [← Flags.contains_active, ← Flags.contains_compiled, ← Flags.contains_valid]
  rfl

theorem isCompilable_eq (n : EntitlementNode) : n.isCompilable = decide (view n).Ready := by
  rw [Bool.eq_iff_iff, decide_eq_true_iff]
  exact Readiness.covers_iff n.readiness n.entitlement.dependencies

theorem compileIfReady_eq (n : EntitlementNode) :
    n.compileIfReady = (view n).compileIfReady := by
  simp only [compileIfReady, NodeView.compileIfReady, isCompilable_eq, decide_eq_true_eq]

/-- An entitlement that is ready asks for nothing but to be compiled. -/
theorem eq_compile_of_mem {n : EntitlementNode} {e : Effect} (he : e ∈ n.compileIfReady) :
    e = .compile := by
  rw [compileIfReady_eq] at he
  exact NodeView.eq_compile_of_mem he

theorem has_dependable (n : EntitlementNode) : n.has .dependable = (view n).dependable := by
  rw [has, Flags.contains_dependable, view_eq]
  rfl

/-- Forgetting the value clears the flags that speak of it, and no other. -/
theorem view_invalidate (n : EntitlementNode) : view n.invalidate = (view n).fallen := by
  simp [view_eq, invalidate, fallen, Flags.bit_remove, Flags.bits_derived]

theorem view_record (n : EntitlementNode) (d : String) (b : Bool) :
    view (n.record d b) = (view n).record d b := by
  have hfind : KeyMap.find? (KeyMap.insert n.readiness d b) =
      fun e => if e = d then some b else KeyMap.find? n.readiness e := by
    funext e
    simp only [KeyMap.find?_insert, eq_comm]
  simp only [view_eq, record, NodeView.record, hfind]

theorem gain_announce (n : EntitlementNode) : Gain n.announce := by
  unfold announce
  split
  · exact .told
  · exact .announced

/-- Customizing sets the activity as demanded and leaves the value alone. -/
theorem view_customize (n : EntitlementNode) (flags : Flags) : view (n.customize flags).2 =
    { view n with inputs.active := flags.bit 0 } := by
  simp [view_eq, customize, Flags.bits_derived, Flags.bits_customizable]

theorem switch_customize (n : EntitlementNode) (flags : Flags) :
    (view n).Switch (flags.bit 0) (n.customize flags).1 := by
  have hview := view_customize n flags
  simp only [customize] at hview ⊢
  -- The flags after the change are those of the view after it.
  generalize hm : ({ n with state := flags &&& .customizable ||| n.state &&& .derived } :
    EntitlementNode) = m at hview ⊢
  have hactive : m.has .active = flags.bit 0 := by
    rw [has, Flags.contains_active]
    simpa [view_eq] using congrArg (·.inputs.active) hview
  have hvalid : m.has .valid = (view n).verified := by
    rw [has, Flags.contains_valid]
    simpa [view_eq] using congrArg (·.verified) hview
  have hmarked : m.has .compiled = (view n).marked := by
    rw [has, Flags.contains_compiled]
    simpa [view_eq] using congrArg (·.marked) hview
  have hready : m.compileIfReady = (view n).compileIfReady := by
    rw [compileIfReady_eq, hview]
    rfl
  have hwas : n.has .active = (view n).inputs.active := rfl
  rw [hactive, hvalid, hmarked, hready, hwas]
  unfold Switch
  -- Only a change of activity has effects.
  cases (view n).inputs.active <;> cases flags.bit 0 <;> try rfl
  cases (view n).verified
  · cases (view n).marked <;> rfl
  · exact gain_announce m

/-- What a patch does to an entitlement. -/
theorem patched_applyPatch (n : EntitlementNode) (p : EntitlementPatch) :
    Patched (view n) (n.applyPatch p).1 p.dependencies (view (n.applyPatch p).2) := by
  constructor
  · exact ⟨_, rfl, rfl⟩
  · intro h
    cases hd : p.dependencies with
    | none => simp [applyPatch, hd] at h
    | some ds => simp_all [applyPatch, view_eq]
  · intro h
    simp only [applyPatch] at h
    simp [view_eq, applyPatch, h]
  · intro h
    simp only [PatchOutcome.needsRecompile, applyPatch, Bool.or_eq_false_iff] at h
    -- Without a new resource the metadata are the same for the value.
    obtain ⟨⟨hd, ho, hc⟩, hr⟩ := h
    have hresource : (p.metadata.getD n.entitlement.metadata).resource =
        n.entitlement.metadata.resource := by
      cases hm : p.metadata with
      | none => rfl
      | some m => simpa [hm] using hr
    simp only [view_eq, applyPatch, hd, ho, hc, hresource]
    rfl

instance : LawfulNode EntitlementNode where
  isDependable_eq := has_dependable
  fresh e := by
    show (view (ofEntitlement e)).fallen = view (ofEntitlement e)
    simp [view_eq, ofEntitlement, fallen, Flags.bits_initial]
  resource_eq_none h := by simp [NodeKind.verifies] at h
  isActive_eq_true h := by simp [NodeKind.verifies] at h
  view_setReadiness _ _ := rfl
  view_reset n := by
    have hfind : KeyMap.find? n.readiness.forget =
        fun d => (KeyMap.find? n.readiness d).map fun _ => false :=
      funext fun d => KeyMap.find?_mapValues _ _ d
    show ({ view n.invalidate with recorded := KeyMap.find? n.readiness.forget } : NodeView) = _
    rw [view_invalidate, hfind]
    rfl
  patched := patched_applyPatch
  echo n s := by
    constructor <;> simp [Registry.answer, Node.onSignal, onSignal, Node.key]
  added n := by
    constructor
    · exact compileIfReady_eq _
    · show view ({ n with state := n.state.insert .active } : EntitlementNode) = _
      simp [view_eq, Flags.bits_active]
  compiled n x := by
    constructor
    · rfl
    · show view ({ n with compiled := some x, state := n.state.insert .compiled } : EntitlementNode)
        = _
      simp [view_eq, NodeKind.verifies, Flags.bits_compiled]
  validated n _ := by
    refine ⟨({ n with state := n.state.insert .valid } : EntitlementNode).announce,
      gain_announce _, ?_, ?_⟩
    · show (if (n.state.insert .valid).contains .active then _ else []) =
        if n.state.contains .active then _ else []
      simp [Flags.contains_active, Flags.bits_valid]
    · show view ({ n with state := n.state.insert .valid } : EntitlementNode) = _
      simp [view_eq, Flags.bits_valid]
  updated n := by
    refine ⟨[.broadcast .invalidated false], .told false, ?_, view_invalidate n⟩
    show _ :: n.invalidate.compileIfReady = _
    rw [compileIfReady_eq, view_invalidate]
    rfl
  deleted n := ⟨[.broadcast .invalidated false], .told false, rfl, view_invalidate n⟩
  customized n flags :=
    ⟨flags.bit 0, _, switch_customize n flags, rfl, view_customize n flags⟩
  lost n d s hs hn _ _ := by
    have hanswer : Registry.answer n (.dependency d s) =
        (if n.has .dependable then [.broadcast .invalidated true] else [],
          if n.compiled.isSome || n.has .valid then (n.record d false).invalidate
          else n.record d false) := by
      rcases hs with rfl | rfl <;> rfl
    constructor
    · rw [hanswer, has_dependable]
    · rw [hanswer]
      show view (if n.compiled.isSome || n.has .valid then (n.record d false).invalidate
        else n.record d false) = _
      split
      · rw [view_invalidate, view_record]
      · next h =>
        have hc : n.compiled = none := by
          simpa using (Bool.or_eq_false_iff.1 (Bool.eq_false_iff.2 h)).1
        rw [view_record]
        show (view n).record d false = ((view n).fallen).record d false
        rw [hn.fallen_eq hc]
  regained n d _ := by
    constructor
    · show (n.record d true).compileIfReady = _
      rw [compileIfReady_eq, view_record]
    · exact view_record n d true

end EntitlementNode

end LayeredAccess
