/-
  LayeredAccess.Proofs.Node.Answers

  How nodes answer in whatever state they are, also in one that no cascade
  would bring about. `Answers` lists the answers, notice by notice, and every
  node gives one of them (`CandidNode.answers`).

  So a node is candid: as soon as it starts or stops being dependable it says
  so, and says nothing else (`Answers.says`); and it takes no value but the one
  it is told of.
-/
import LayeredAccess.Proofs.Node.Entitlement
import LayeredAccess.Proofs.Node.Profile

namespace LayeredAccess

/-! ## Answers -/

namespace NodeView

/-- How a node takes news of a dependency. -/
inductive Learns (v : NodeView) (d : String) : Signal → List Effect → NodeView → Prop
  /-- The news do not matter to the node, or are none. -/
  | nothing {s : Signal} : Learns v d s [] v
  | regained : Learns v d .validated (v.record d true).compileIfReady (v.record d true)
  | lost {s : Signal} (hs : s ≠ .validated) :
    Learns v d s (if v.dependable then [.broadcast .invalidated true] else [])
      (v.record d false).fallen
  /-- There is nothing to be lost. -/
  | noted {s : Signal} (hs : s ≠ .validated) (hnone : v.compiled = none)
    (hplain : v.verified = false) : Learns v d s [] (v.record d false)

/-- How a node answers a notice of the registry, of itself or of a dependency. -/
inductive Answers (verifies : Bool) (v : NodeView) : Notice → List Effect → NodeView → Prop
  | echo {s : Signal} : Answers verifies v (.own s (.node v.key)) [] v
  | added : Answers verifies v (.own .added .registry) v.compileIfReady
      { v with inputs.active := true }
  /-- A value has come that is to be verified. -/
  | received {x : Json} (hverifies : verifies = true) :
    Answers verifies v (.own (.compiled x) .registry) [.validate]
      { v with compiled := some x, marked := true }
  /-- A value has come that counts at once. -/
  | accepted {x : Json} (hverifies : verifies = false) (hactive : v.inputs.active = true) :
    Answers verifies v (.own (.compiled x) .registry) [.broadcast .validated false]
      { v with compiled := some x, marked := true, verified := true }
  | validated {gain : List Effect} (hgain : Gain gain) :
    Answers verifies v (.own .validated .registry) (if v.inputs.active then gain else [])
      { v with verified := true }
  /-- A node whose values count at once does not wait for a verdict. -/
  | unasked (hverifies : verifies = false) : Answers verifies v (.own .validated .registry) [] v
  | updated {loss : List Effect} (hloss : v.Loss loss) :
    Answers verifies v (.own .updated .registry) (loss ++ v.compileIfReady) v.fallen
  | deleted {loss : List Effect} (hloss : v.Loss loss) :
    Answers verifies v (.own .deleted .registry) loss v.fallen
  | customized {flags : Flags} {active : Bool} {effects : List Effect}
    (hswitch : v.Switch active effects) :
    Answers verifies v (.own (.customized flags) .registry) effects
      { v with inputs.active := active }
  | invalidated : Answers verifies v (.own .invalidated .registry) [] v
  | learnt {d : String} {s : Signal} {effects : List Effect} {v' : NodeView}
    (hlearns : v.Learns d s effects v') : Answers verifies v (.dependency d s) effects v'

end NodeView

/-- What comes of a node is never told to it by another node. -/
def Notice.FromNode (key : String) : Notice → Prop
  | .own _ (.node k) => k = key
  | _ => True

/-- Nodes that answer in every state as the others do. -/
class CandidNode (ν : Type) [Node ν] [NodeKind ν] : Prop where
  learns (n : ν) (d : String) (s : Signal) : ∃ effects v',
    (Node.view n).Learns d s effects v' ∧ Node.Reacts n (.dependency d s) effects v'
  unasked (n : ν) : NodeKind.verifies ν = false →
    Node.Reacts n (.own .validated .registry) [] (Node.view n)
  invalidated (n : ν) : Node.Reacts n (.own .invalidated .registry) [] (Node.view n)

open NodeView in
/-- Every node gives one of the answers. -/
theorem CandidNode.answers {ν : Type} [Node ν] [NodeKind ν] [LawfulNode ν] [CandidNode ν] (n : ν)
    {notice : Notice} (h : notice.FromNode (Node.key n)) : ∃ effects v',
      (Node.view n).Answers (NodeKind.verifies ν) notice effects v' ∧
        Node.Reacts n notice effects v' := by
  -- One case for each signal; only verification tells the two kinds of nodes apart.
  match notice, h with
  | .dependency d s, _ =>
    obtain ⟨effects, v', hlearns, hreacts⟩ := CandidNode.learns n d s
    exact ⟨effects, v', .learnt hlearns, hreacts⟩
  | .own s (.node k), h =>
    obtain rfl : k = Node.key n := h
    exact ⟨[], _, .echo, LawfulNode.echo n s⟩
  | .own .added .registry, _ => exact ⟨_, _, .added, LawfulNode.added n⟩
  | .own (.compiled x) .registry, _ =>
    have hreacts := LawfulNode.compiled n x
    cases hverifies : NodeKind.verifies ν with
    | true =>
      simp only [hverifies, if_true, Bool.not_true, Bool.or_false] at hreacts
      exact ⟨_, _, .received rfl, hreacts⟩
    | false =>
      simp only [hverifies, Bool.false_eq_true, if_false, Bool.not_false, Bool.or_true] at hreacts
      exact ⟨_, _, .accepted rfl (LawfulNode.isActive_eq_true hverifies n), hreacts⟩
  | .own .validated .registry, _ =>
    cases hverifies : NodeKind.verifies ν with
    | true =>
      obtain ⟨gain, hgain, hreacts⟩ := LawfulNode.validated n hverifies
      exact ⟨_, _, .validated hgain, hreacts⟩
    | false => exact ⟨[], _, .unasked rfl, CandidNode.unasked n hverifies⟩
  | .own .updated .registry, _ =>
    obtain ⟨loss, hloss, hreacts⟩ := LawfulNode.updated n
    exact ⟨_, _, .updated hloss, hreacts⟩
  | .own .deleted .registry, _ =>
    obtain ⟨loss, hloss, hreacts⟩ := LawfulNode.deleted n
    exact ⟨_, _, .deleted hloss, hreacts⟩
  | .own (.customized flags) .registry, _ =>
    obtain ⟨active, effects, hswitch, hreacts⟩ := LawfulNode.customized n flags
    exact ⟨effects, _, .customized hswitch, hreacts⟩
  | .own .invalidated .registry, _ => exact ⟨[], _, .invalidated, CandidNode.invalidated n⟩

/-! ## The kinds of nodes -/

open NodeView in
instance : CandidNode EntitlementNode where
  learns n d s := by
    have hlost (hs : s ≠ .validated)
        (hanswer : Registry.answer n (.dependency d s) =
          (if n.has .dependable then [.broadcast .invalidated true] else [],
            if n.compiled.isSome || n.has .valid then (n.record d false).invalidate
            else n.record d false)) :
        ∃ effects v', (Node.view n).Learns d s effects v' ∧
          Node.Reacts n (.dependency d s) effects v' := by
      cases hheld : n.compiled.isSome || n.has .valid with
      | true =>
        refine ⟨_, _, .lost hs, ?_, ?_⟩
        · rw [hanswer, EntitlementNode.has_dependable]
        · rw [hanswer, hheld, if_pos rfl, EntitlementNode.view_invalidate,
            EntitlementNode.view_record]
      | false =>
        obtain ⟨hnone, hvalid⟩ := Bool.or_eq_false_iff.1 hheld
        have hnone' : (Node.view n).compiled = none := by
          rw [Option.isSome_eq_false_iff, Option.isNone_iff_eq_none] at hnone
          exact hnone
        have hplain : (Node.view n).dependable = false := by
          rw [NodeView.dependable, show (Node.view n).verified = false from hvalid, Bool.and_false]
        refine ⟨[], _, .noted hs hnone' hvalid, ?_, ?_⟩
        · rw [hanswer, EntitlementNode.has_dependable, hplain]
          rfl
        · rw [hanswer, hheld]
          exact EntitlementNode.view_record n d false
    cases s with
    | invalidated | deleted | updated => exact hlost (by simp) rfl
    | validated =>
      refine ⟨_, _, .regained, ?_, EntitlementNode.view_record n d true⟩
      show (n.record d true).compileIfReady = _
      rw [EntitlementNode.compileIfReady_eq, EntitlementNode.view_record]
    | added | compiled | customized => exact ⟨[], _, .nothing, rfl, rfl⟩
  unasked _ h := by simp [NodeKind.verifies] at h
  invalidated _ := ⟨rfl, rfl⟩

open NodeView in
instance : CandidNode ProfileNode where
  learns n d s := by
    -- Only a dependency that was ready can be lost, and only one that was not can be regained.
    cases hready : KeyMap.find? n.readiness d == some true with
    | true =>
      have hanswer (hs : s = .invalidated ∨ s = .deleted ∨ s = .updated) :
          Registry.answer n (.dependency d s) =
            (n.loss true, (n.record d false).invalidate) := by
        rcases hs with rfl | rfl | rfl <;>
          simp [Registry.answer, Node.onDependencySignal, ProfileNode.onDependencySignal, hready]
      have hlost (hs : s = .invalidated ∨ s = .deleted ∨ s = .updated) :
          ∃ effects v', (Node.view n).Learns d s effects v' ∧
            Node.Reacts n (.dependency d s) effects v' := by
        have hne : s ≠ .validated := by rcases hs with rfl | rfl | rfl <;> simp
        refine ⟨_, _, .lost hne, ?_, ?_⟩
        · rw [hanswer hs, ← ProfileNode.isValid_eq]
          rfl
        · rw [hanswer hs]
          exact congrArg fallen (ProfileNode.view_record n d false)
      cases s with
      | invalidated => exact hlost (.inl rfl)
      | deleted => exact hlost (.inr (.inl rfl))
      | updated => exact hlost (.inr (.inr rfl))
      | validated =>
        refine ⟨[], _, .nothing, ?_, ?_⟩ <;>
          simp [Registry.answer, Node.onDependencySignal, ProfileNode.onDependencySignal, hready]
      | added | compiled | customized => exact ⟨[], _, .nothing, rfl, rfl⟩
    | false =>
      cases s with
      | validated =>
        have hanswer : Registry.answer n (.dependency d .validated) =
            ((n.record d true).compileIfReady, n.record d true) := by
          simp [Registry.answer, Node.onDependencySignal, ProfileNode.onDependencySignal, hready]
        refine ⟨_, _, .regained, ?_, ?_⟩
        · rw [hanswer, ProfileNode.compileIfReady_eq, ProfileNode.view_record]
        · rw [hanswer, ProfileNode.view_record]
      | invalidated | deleted | updated =>
        refine ⟨[], _, .nothing, ?_, ?_⟩ <;>
          simp [Registry.answer, Node.onDependencySignal, ProfileNode.onDependencySignal, hready]
      | added | compiled | customized => exact ⟨[], _, .nothing, rfl, rfl⟩
  unasked _ _ := ⟨rfl, rfl⟩
  invalidated _ := ⟨rfl, rfl⟩

/-! ## Candor -/

namespace NodeView

/-- Nothing is told to others. -/
def Hushed (effects : List Effect) : Prop := ∀ s wide, .broadcast s wide ∉ effects

/-- What a node says of itself is true, and it says what there is to be said: whether it has become
dependable, or is not dependable any more. It speaks first and but once. -/
inductive Says (v v' : NodeView) : List Effect → Prop
  | nothing {effects : List Effect} (hhushed : Hushed effects)
    (hsame : v'.dependable = v.dependable) : Says v v' effects
  | gain {wide : Bool} {more : List Effect} (hnow : v'.dependable = true)
    (hhushed : Hushed more) : Says v v' (.broadcast .validated wide :: more)
  | loss {wide : Bool} {more : List Effect} (hnow : v'.dependable = false)
    (hhushed : Hushed more) : Says v v' (.broadcast .invalidated wide :: more)

theorem hushed_nil : Hushed [] := by simp [Hushed]

theorem hushed_compileIfReady (v : NodeView) : Hushed v.compileIfReady :=
  fun _ _ he => Effect.noConfusion (eq_compile_of_mem he)

variable {verifies : Bool} {v v' : NodeView} {notice : Notice} {effects : List Effect}

/-- A node that becomes dependable says so. -/
theorem Gain.says (h : Gain effects) (hnow : v'.dependable = true) : Says v v' effects := by
  cases h with
  | told => exact .gain hnow hushed_nil
  | announced => exact .gain hnow (by simp [Hushed])

/-- A node that falls says so if it was dependable. -/
theorem Loss.says (h : v.Loss effects) {more : List Effect} (hmore : Hushed more) :
    Says v v.fallen (effects ++ more) := by
  cases h with
  | told wide => exact .loss v.fallen_dependable hmore
  | silent hplain => exact .nothing hmore (by rw [fallen_dependable, hplain])

theorem Learns.says {d : String} {s : Signal} (h : v.Learns d s effects v') :
    Says v v' effects := by
  cases h with
  | nothing => exact .nothing hushed_nil rfl
  | regained => exact .nothing (hushed_compileIfReady _) rfl
  | noted => exact .nothing hushed_nil rfl
  | lost =>
    cases hdep : v.dependable with
    | true => exact .loss (fallen_dependable _) hushed_nil
    | false => exact .nothing hushed_nil (by rw [fallen_dependable, hdep])

theorem Switch.says {active : Bool} (h : v.Switch active effects) :
    Says v { v with inputs.active := active } effects := by
  cases h.switched with
  | stayed => exact .nothing hushed_nil rfl
  | off => exact .loss rfl hushed_nil
  | resumed _ hverified hgain => exact hgain.says (by simp [dependable, hverified])
  | unverified _ hverified => exact .nothing hushed_nil (by simp [dependable, hverified])
  | awoken _ hverified =>
    exact .nothing (hushed_compileIfReady v) (by simp [dependable, hverified])

/-- Every node is candid, provided that it has not been verified when it is entered. -/
theorem Answers.says (h : v.Answers verifies notice effects v')
    (hfresh : notice = .own .added .registry → v.verified = false) : Says v v' effects := by
  cases h with
  | echo | unasked | invalidated => exact .nothing hushed_nil rfl
  | added =>
    refine .nothing (hushed_compileIfReady v) ?_
    simp [dependable, hfresh rfl]
  | received => exact .nothing (by simp [Hushed]) rfl
  | accepted _ hactive => exact .gain (by simp [dependable, hactive]) hushed_nil
  | validated hgain =>
    cases hactive : v.inputs.active with
    | true => exact hgain.says (by simp [dependable, hactive])
    | false => exact .nothing hushed_nil (by simp [dependable, hactive])
  | updated hloss => exact hloss.says (hushed_compileIfReady v)
  | deleted hloss =>
    have hsays := hloss.says hushed_nil
    rwa [List.append_nil] at hsays
  | customized hswitch => exact hswitch.says
  | learnt hlearns => exact hlearns.says

/-- A node holds the value it was told of last, if any. -/
theorem Answers.compiled_eq (h : v.Answers verifies notice effects v') :
    v'.compiled = none ∨ v'.compiled = v.compiled ∨
      ∃ x, notice = .own (.compiled x) .registry ∧ v'.compiled = some x := by
  cases h with
  | echo | added | validated | unasked | customized | invalidated => exact .inr (.inl rfl)
  | received | accepted => exact .inr (.inr ⟨_, rfl, rfl⟩)
  | updated | deleted => exact .inl rfl
  | learnt hlearns =>
    cases hlearns with
    | nothing | regained | noted => exact .inr (.inl rfl)
    | lost => exact .inl rfl

/-- A node that is told of a value takes it. -/
theorem Answers.compiled_eq_some {x : Json}
    (h : v.Answers verifies (.own (.compiled x) .registry) effects v') :
    v'.compiled = some x := by
  cases h <;> rfl

/-- What counts as verified is held, provided that only held values are said to be verified. -/
theorem Answers.compiled_of_verified (h : v.Answers verifies notice effects v')
    (hheld : v.verified = true → v.compiled.isSome = true)
    (hasked : notice = .own .validated .registry → v.compiled.isSome = true) :
    v'.verified = true → v'.compiled.isSome = true := by
  cases h with
  | echo | added | unasked | customized | invalidated => exact hheld
  | received | accepted => exact fun _ => rfl
  | validated => exact fun _ => hasked rfl
  | updated | deleted => exact fun hv => by simp at hv
  | learnt hlearns =>
    cases hlearns with
    | nothing | regained | noted => exact hheld
    | lost => exact fun hv => by simp at hv

end NodeView

end LayeredAccess
