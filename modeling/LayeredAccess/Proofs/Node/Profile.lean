/-
  LayeredAccess.Proofs.Node.Profile

  Profiles answer by the laws of nodes. They always take part, and their values
  count as verified as soon as they come.
-/
import LayeredAccess.Profile.Node
import LayeredAccess.Proofs.Node.View

namespace LayeredAccess.ProfileNode

instance : NodeKind ProfileNode where
  Definition := Profile
  ofDefinition := ofProfile
  isActive _ := true
  isVerified := isValid
  isMarked n := n.compiled.isSome
  verifies := false

open Node NodeView

theorem view_eq (n : ProfileNode) : view n =
    { key := n.profile.name
      inputs :=
        { dependencies := n.profile.dependencies, layers := n.profile.layers
          resource := none, active := true }
      compiled := n.compiled, verified := n.isValid, marked := n.compiled.isSome
      recorded := KeyMap.find? n.readiness } := rfl

theorem isCompilable_eq (n : ProfileNode) : n.isCompilable = decide (view n).Ready := by
  rw [Bool.eq_iff_iff, decide_eq_true_iff]
  exact Readiness.covers_iff n.readiness n.profile.dependencies

theorem compileIfReady_eq (n : ProfileNode) : n.compileIfReady = (view n).compileIfReady := by
  simp only [compileIfReady, NodeView.compileIfReady, isCompilable_eq, decide_eq_true_eq]

/-- A profile that is ready asks for nothing but to be compiled. -/
theorem eq_compile_of_mem {n : ProfileNode} {e : Effect} (he : e ∈ n.compileIfReady) :
    e = .compile := by
  rw [compileIfReady_eq] at he
  exact NodeView.eq_compile_of_mem he

theorem isValid_eq (n : ProfileNode) : n.isValid = (view n).dependable := by
  show n.isValid = (true && n.isValid)
  rw [Bool.true_and]

theorem view_invalidate (n : ProfileNode) : view n.invalidate = (view n).fallen := rfl

theorem view_record (n : ProfileNode) (d : String) (b : Bool) :
    view (n.record d b) = (view n).record d b := by
  have hfind : KeyMap.find? (KeyMap.insert n.readiness d b) =
      fun e => if e = d then some b else KeyMap.find? n.readiness e := by
    funext e
    simp only [KeyMap.find?_insert, eq_comm]
  show ({ view n with recorded := KeyMap.find? (KeyMap.insert n.readiness d b) } : NodeView) = _
  rw [hfind]
  rfl

theorem loss_loss (n : ProfileNode) (wide : Bool) : (view n).Loss (n.loss wide) := by
  unfold loss
  split
  · exact .told wide
  · next h => exact .silent (by rw [← isValid_eq]; simpa using h)

/-- What a patch does to a profile. -/
theorem patched_applyPatch (n : ProfileNode) (p : ProfilePatch) :
    Patched (view n) (n.applyPatch p).1 p.dependencies (view (n.applyPatch p).2) := by
  constructor
  · exact ⟨_, rfl, rfl⟩
  · intro h
    cases hd : p.dependencies with
    | none => simp [applyPatch, hd] at h
    | some ds =>
      show some ds = some (n.applyPatch p).2.profile.dependencies
      simp_all [applyPatch]
  · intro h
    show (n.applyPatch p).2.profile.dependencies = n.profile.dependencies
    simp only [applyPatch] at h
    simp [applyPatch, h]
  · intro h
    simp only [PatchOutcome.needsRecompile, applyPatch, Bool.or_eq_false_iff] at h
    obtain ⟨⟨hd, hc⟩, -⟩ := h
    show inputs (n.applyPatch p).2 = inputs n
    simp only [applyPatch, hd, hc]
    rfl

instance : LawfulNode ProfileNode where
  isDependable_eq := isValid_eq
  fresh _ := rfl
  resource_eq_none _ _ := rfl
  isActive_eq_true _ _ := rfl
  view_setReadiness _ _ := rfl
  view_reset n := by
    have hfind : KeyMap.find? n.readiness.forget =
        fun d => (KeyMap.find? n.readiness d).map fun _ => false :=
      funext fun d => KeyMap.find?_mapValues _ _ d
    show ({ view n.invalidate with recorded := KeyMap.find? n.readiness.forget } : NodeView) = _
    rw [view_invalidate, hfind]
    rfl
  patched := patched_applyPatch
  echo n s := by
    constructor <;> simp [Registry.answer, Node.onSignal, onSignal, Node.key]
  added n := ⟨compileIfReady_eq n, rfl⟩
  compiled n x := by
    constructor
    · rfl
    · show view ({ n with compiled := some x, state := .valid } : ProfileNode) = _
      simp [view_eq, isValid, NodeKind.verifies]
  validated n h := by simp [NodeKind.verifies] at h
  updated n := by
    refine ⟨n.loss false, loss_loss n false, ?_, view_invalidate n⟩
    show _ ++ n.compileIfReady = _
    rw [compileIfReady_eq]
  deleted n := ⟨n.loss false, loss_loss n false, rfl, view_invalidate n⟩
  customized n flags := ⟨true, [], rfl, rfl, rfl⟩
  lost n d s hs hn hd hr := by
    have hanswer : Registry.answer n (.dependency d s) =
        if KeyMap.find? n.readiness d == some true then
          (n.loss true, (n.record d false).invalidate)
        else ([], n) := by
      rcases hs with rfl | rfl <;> rfl
    cases hrec : (view n).recorded d with
    | none => simp [hrec] at hr
    | some ready =>
      have hfind : KeyMap.find? n.readiness d = some ready := hrec
      cases ready with
      | true =>
        constructor
        · rw [hanswer, hfind, ← isValid_eq]
          rfl
        · rw [hanswer, hfind]
          exact congrArg fallen (view_record n d false)
      | false =>
        -- What was not ready before holds no value, so there is nothing to lose.
        have hc : (view n).compiled = none := by
          cases hc : (view n).compiled with
          | none => rfl
          | some x =>
            have := hn.ready_of_compiled (by rw [hc]; rfl) d hd
            simp [hrec] at this
        have hv : (view n).dependable = false := by
          rw [NodeView.dependable, hn.verified_eq_false hc, Bool.and_false]
        constructor
        · rw [hanswer, hfind, hv]
          rfl
        · rw [hanswer, hfind]
          show view n = _
          rw [record_eq_self hrec, hn.fallen_eq hc]
  regained n d hr := by
    have hanswer : Registry.answer n (.dependency d .validated) =
        ((n.record d true).compileIfReady, n.record d true) := by
      have hr' : KeyMap.find? n.readiness d = some false := hr
      show onDependencySignal n d .validated = _
      simp [onDependencySignal, hr']
    constructor
    · rw [hanswer, compileIfReady_eq, view_record]
    · rw [hanswer, view_record]

end LayeredAccess.ProfileNode
