/-
  LayeredAccess.Proofs.Node.Bare

  What users have made of a node, apart from how far it has come: its bare form
  has no value and knows nothing of its dependencies.

  Only three things change it: patches, the word that a node is entered, and
  customizations. What a node is told beyond that, be it by the registry, by
  itself or by a dependency, leaves its bare form alone; and what users do to a
  node depends on the bare form alone.
-/
import LayeredAccess.Proofs.Node.Entitlement
import LayeredAccess.Proofs.Node.Profile

namespace LayeredAccess

/-! ## Plain notices -/

/-- The signals by which users change nothing of a node. -/
def Signal.Plain : Signal → Prop
  | .added | .customized _ => False
  | _ => True

def Notice.Plain : Notice → Prop
  | .own signal _ => signal.Plain
  | .dependency _ _ => True

def Effect.Plain : Effect → Prop
  | .broadcast signal _ => signal.Plain
  | _ => True

/-! ## Bare nodes -/

/-- A node without value, which knows nothing of its dependencies. -/
def Node.bare {ν : Type} [Node ν] (n : ν) : ν := Node.setReadiness (Node.reset n) []

open Node in
/-- The laws of bare nodes. -/
class BareNode (ν : Type) [Node ν] [NodeKind ν] : Prop where
  bare_setReadiness (n : ν) (r : Readiness) : bare (setReadiness n r) = bare n
  bare_reset (n : ν) : bare (reset n) = bare n
  inputs_congr {n n' : ν} : bare n = bare n' → inputs n = inputs n'
  checkDelete_congr {n n' : ν} : bare n = bare n' → checkDelete n = checkDelete n'
  checkUpdate_congr {n n' : ν} : bare n = bare n' → checkUpdate n = checkUpdate n'
  applyPatch_congr {n n' : ν} (p : Patch ν) : bare n = bare n' →
    (applyPatch n p).1 = (applyPatch n' p).1 ∧
      bare (applyPatch n p).2 = bare (applyPatch n' p).2
  answer_congr {n n' : ν} (notice : Notice) : bare n = bare n' →
    bare (Registry.answer n notice).2 = bare (Registry.answer n' notice).2
  bare_answer (n : ν) {notice : Notice} : notice.Plain → bare (Registry.answer n notice).2 = bare n
  /-- Nodes do not pass on what users do to them. -/
  plain_answer (n : ν) (notice : Notice) : ∀ e ∈ (Registry.answer n notice).1, e.Plain
  /-- Beyond the bare form there are the value and two marks. -/
  ext {n n' : ν} : bare n = bare n' → compiled n = compiled n' →
    NodeKind.isMarked n = NodeKind.isMarked n' → NodeKind.isVerified n = NodeKind.isVerified n' →
    setReadiness n [] = setReadiness n' []

/-! ## Profiles -/

namespace ProfileNode

open Node

theorem bare_eq (n : ProfileNode) : bare n = { profile := n.profile } := rfl

theorem bare_eq_iff {n n' : ProfileNode} : bare n = bare n' ↔ n.profile = n'.profile := by
  rw [bare_eq, bare_eq, ProfileNode.mk.injEq]
  simp

theorem profile_onSignal (n : ProfileNode) (s : Signal) (origin : Origin) :
    (n.onSignal s origin).2.profile = n.profile := by
  unfold onSignal
  split
  · rfl
  · cases s <;> rfl

theorem profile_onDependencySignal (n : ProfileNode) (d : String) (s : Signal) :
    (n.onDependencySignal d s).2.profile = n.profile := by
  cases s <;> simp only [onDependencySignal]
  all_goals split <;> rfl

theorem profile_answer (n : ProfileNode) (notice : Notice) :
    (Registry.answer n notice).2.profile = n.profile := by
  cases notice with
  | own s origin => exact profile_onSignal n s origin
  | dependency d s => exact profile_onDependencySignal n d s

theorem plain_compileIfReady (n : ProfileNode) : ∀ e ∈ n.compileIfReady, e.Plain :=
  fun _ he => eq_compile_of_mem he ▸ trivial

theorem plain_loss (n : ProfileNode) (wide : Bool) : ∀ e ∈ n.loss wide, e.Plain := by
  unfold loss
  split <;> simp [Effect.Plain, Signal.Plain]

theorem plain_onSignal (n : ProfileNode) (s : Signal) (origin : Origin) :
    ∀ e ∈ (n.onSignal s origin).1, e.Plain := by
  unfold onSignal
  split
  · simp
  · cases s with
    | added => exact plain_compileIfReady n
    | compiled value => simp [Effect.Plain, Signal.Plain]
    | updated =>
      exact List.forall_mem_append.2 ⟨plain_loss n false, plain_compileIfReady n⟩
    | deleted => exact plain_loss n false
    | validated | invalidated | customized => simp

theorem plain_onDependencySignal (n : ProfileNode) (d : String) (s : Signal) :
    ∀ e ∈ (n.onDependencySignal d s).1, e.Plain := by
  have hlost : ∀ e ∈ (if KeyMap.find? n.readiness d == some true then
      (n.loss true, (n.record d false).invalidate) else ([], n)).1, e.Plain := by
    split
    · exact plain_loss n true
    · simp
  cases s with
  | invalidated | deleted | updated => exact hlost
  | validated =>
    simp only [onDependencySignal]
    split
    · simp
    · exact plain_compileIfReady _
  | added | compiled | customized => simp [onDependencySignal]

instance : BareNode ProfileNode where
  bare_setReadiness _ _ := rfl
  bare_reset _ := rfl
  inputs_congr {n n'} h := by
    rw [bare_eq_iff] at h
    obtain ⟨p, st, rd, c⟩ := n
    obtain ⟨p', st', rd', c'⟩ := n'
    change p = p' at h
    subst h
    rfl
  checkDelete_congr _ := rfl
  checkUpdate_congr _ := rfl
  applyPatch_congr {n n'} p h := by
    rw [bare_eq_iff] at h ⊢
    show (n.applyPatch p).1 = (n'.applyPatch p).1 ∧
      (n.applyPatch p).2.profile = (n'.applyPatch p).2.profile
    simp only [applyPatch, h, and_self]
  answer_congr notice h := by
    rw [bare_eq_iff] at h ⊢
    rw [profile_answer, profile_answer, h]
  bare_answer n {notice} _ := by rw [bare_eq_iff, profile_answer]
  plain_answer n notice := by
    cases notice with
    | own s origin => exact plain_onSignal n s origin
    | dependency d s => exact plain_onDependencySignal n d s
  ext {n n'} h hcompiled _ hverified := by
    rw [bare_eq_iff] at h
    obtain ⟨p, st, rd, c⟩ := n
    obtain ⟨p', st', rd', c'⟩ := n'
    change p = p' at h
    change c = c' at hcompiled
    change (st == .valid) = (st' == .valid) at hverified
    subst h hcompiled
    have hstate : st = st' := by
      cases st <;> cases st' <;> first | rfl | exact absurd hverified (by decide)
    rw [hstate]
    rfl

end ProfileNode

/-! ## Entitlements -/

namespace Flags

/-- What is left of two sets without some flags is the same if they have the same other flags. -/
theorem remove_eq_iff (a b c : Flags) :
    a.remove c = b.remove c ↔ ∀ i < 8, c.bit i = false → a.bit i = b.bit i := by
  constructor
  · intro h i hi hc
    have hbit := congrArg (·.bit i) h
    simpa only [bit_remove _ _ hi, hc, Bool.not_false, Bool.and_true] using hbit
  · intro h
    refine ext_bit fun i hi => ?_
    rw [bit_remove _ _ hi, bit_remove _ _ hi]
    cases hc : c.bit i with
    | true => rw [Bool.not_true, Bool.and_false, Bool.and_false]
    | false => rw [h i hi hc]

/-- Flags that are not taken out are contained in what is left. -/
theorem contains_congr {a b c f : Flags} (h : a.remove c = b.remove c)
    (hf : ∀ i < 8, f.bit i = true → c.bit i = false) : a.contains f = b.contains f := by
  rw [remove_eq_iff] at h
  rw [Bool.eq_iff_iff, contains_iff, contains_iff]
  refine forall_congr' fun i => forall₂_congr fun hi hbit => ?_
  rw [h i hi (hf i hi hbit)]

end Flags

namespace EntitlementNode

open Node

theorem bare_eq_iff {n n' : EntitlementNode} : bare n = bare n' ↔
    n.entitlement = n'.entitlement ∧ n.state.remove .derived = n'.state.remove .derived := by
  show ({ n.invalidate with readiness := [] } : EntitlementNode) =
    { n'.invalidate with readiness := [] } ↔ _
  simp [invalidate]

/-- Marks of how far a node has come are no part of its bare form. -/
theorem bare_mark (n : EntitlementNode) (x : Option Json) {f : Flags}
    (hf : ∀ i < 8, f.bit i = true → Flags.derived.bit i = true) :
    bare ({ n with compiled := x, state := n.state.insert f } : EntitlementNode) = bare n := by
  refine bare_eq_iff.2 ⟨rfl, (Flags.remove_eq_iff _ _ _).2 fun i hi hd => ?_⟩
  rw [Flags.bit_insert]
  cases hbit : f.bit i with
  | false => rw [Bool.or_false]
  | true => simp [hf i hi hbit] at hd

theorem bare_invalidate (n : EntitlementNode) : bare n.invalidate = bare n := by
  refine bare_eq_iff.2 ⟨rfl, (Flags.remove_eq_iff _ _ _).2 fun i hi hd => ?_⟩
  show (n.state.remove .derived).bit i = n.state.bit i
  rw [Flags.bit_remove _ _ hi, hd, Bool.not_false, Bool.and_true]

theorem bare_onSignal (n : EntitlementNode) {s : Signal} (hs : s.Plain) (origin : Origin) :
    bare (n.onSignal s origin).2 = bare n := by
  unfold onSignal
  split
  · rfl
  · cases s with
    | added => exact hs.elim
    | customized flags => exact hs.elim
    | compiled value => exact bare_mark n (some value) (by decide)
    | validated => exact bare_mark n n.compiled (by decide)
    | updated => exact bare_invalidate n
    | deleted => exact bare_invalidate n
    | invalidated => rfl

theorem bare_onDependencySignal (n : EntitlementNode) (d : String) (s : Signal) :
    bare (n.onDependencySignal d s).2 = bare n := by
  have hlost : bare (if n.compiled.isSome || n.has .valid then (n.record d false).invalidate
      else n.record d false) = bare n := by
    split
    · exact bare_invalidate _
    · rfl
  cases s with
  | invalidated | deleted | updated => exact hlost
  | added | compiled | validated | customized => rfl

/-- Customizing leaves of the former flags only those that say how far the node has come. -/
theorem bare_customize_congr {n n' : EntitlementNode} (h : bare n = bare n') (flags : Flags) :
    bare (n.customize flags).2 = bare (n'.customize flags).2 := by
  refine bare_eq_iff.2 ⟨(bare_eq_iff.1 h).1, (Flags.remove_eq_iff _ _ _).2 fun i hi hd => ?_⟩
  show (flags &&& .customizable ||| n.state &&& .derived).bit i =
    (flags &&& .customizable ||| n'.state &&& .derived).bit i
  simp only [Flags.bit_or, Flags.bit_and, hd, Bool.and_false, Bool.or_false]

theorem bare_added_congr {n n' : EntitlementNode} (h : bare n = bare n') :
    bare ({ n with state := n.state.insert .active } : EntitlementNode) =
      bare ({ n' with state := n'.state.insert .active } : EntitlementNode) := by
  obtain ⟨he, hs⟩ := bare_eq_iff.1 h
  refine bare_eq_iff.2 ⟨he, (Flags.remove_eq_iff _ _ _).2 fun i hi hd => ?_⟩
  rw [Flags.bit_insert, Flags.bit_insert, (Flags.remove_eq_iff _ _ _).1 hs i hi hd]

theorem bare_onSignal_congr {n n' : EntitlementNode} (h : bare n = bare n') (s : Signal)
    (origin : Origin) : bare (n.onSignal s origin).2 = bare (n'.onSignal s origin).2 := by
  -- Most signals do not depend on what has been left out.
  have hplain (hs : s.Plain) : bare (n.onSignal s origin).2 = bare (n'.onSignal s origin).2 := by
    rw [bare_onSignal n hs, bare_onSignal n' hs, h]
  have hid : n.entitlement.id = n'.entitlement.id := by rw [(bare_eq_iff.1 h).1]
  by_cases horigin : origin = .node n.entitlement.id
  · unfold onSignal
    rw [if_pos horigin, if_pos (hid ▸ horigin)]
    exact h
  · have horigin' : ¬ origin = .node n'.entitlement.id := hid ▸ horigin
    cases s with
    | compiled | validated | updated | deleted | invalidated => exact hplain trivial
    | added =>
      unfold onSignal
      rw [if_neg horigin, if_neg horigin']
      exact bare_added_congr h
    | customized flags =>
      unfold onSignal
      rw [if_neg horigin, if_neg horigin']
      exact bare_customize_congr h flags

theorem plain_compileIfReady (n : EntitlementNode) : ∀ e ∈ n.compileIfReady, e.Plain :=
  fun _ he => eq_compile_of_mem he ▸ trivial

theorem plain_announce (n : EntitlementNode) : ∀ e ∈ n.announce, e.Plain := by
  unfold announce
  split <;> simp [Effect.Plain, Signal.Plain]

theorem plain_customize (n : EntitlementNode) (flags : Flags) :
    ∀ e ∈ (n.customize flags).1, e.Plain := by
  simp only [customize]
  split
  · simp [Effect.Plain, Signal.Plain]
  · split
    · exact plain_announce _
    · split
      · exact plain_compileIfReady _
      · simp
  · simp

theorem plain_onSignal (n : EntitlementNode) (s : Signal) (origin : Origin) :
    ∀ e ∈ (n.onSignal s origin).1, e.Plain := by
  unfold onSignal
  split
  · simp
  · cases s with
    | added => exact plain_compileIfReady _
    | compiled value => simp [Effect.Plain]
    | validated =>
      dsimp only
      split
      · exact plain_announce _
      · simp
    | updated =>
      exact List.forall_mem_cons.2 ⟨trivial, plain_compileIfReady _⟩
    | deleted => simp [Effect.Plain, Signal.Plain]
    | customized flags => exact plain_customize n flags
    | invalidated => simp

theorem plain_onDependencySignal (n : EntitlementNode) (d : String) (s : Signal) :
    ∀ e ∈ (n.onDependencySignal d s).1, e.Plain := by
  have hlost : ∀ e ∈ (if n.has .dependable then [Effect.broadcast .invalidated true] else []),
      e.Plain := by
    split <;> simp [Effect.Plain, Signal.Plain]
  cases s with
  | invalidated | deleted | updated => exact hlost
  | validated => exact plain_compileIfReady _
  | added | compiled | customized => simp [onDependencySignal]

/-- Entitlements with the same bare form that have come equally far have the same flags. -/
theorem state_eq {n n' : EntitlementNode} (h : bare n = bare n')
    (hcompiled : n.has .compiled = n'.has .compiled) (hvalid : n.has .valid = n'.has .valid) :
    n.state = n'.state := by
  rw [has, has, Flags.contains_compiled, Flags.contains_compiled] at hcompiled
  rw [has, has, Flags.contains_valid, Flags.contains_valid] at hvalid
  have hderived : ∀ i < 8, Flags.derived.bit i = true → i = 1 ∨ i = 2 := by decide
  refine Flags.ext_bit fun i hi => ?_
  cases hd : Flags.derived.bit i with
  | false => exact (Flags.remove_eq_iff _ _ _).1 (bare_eq_iff.1 h).2 i hi hd
  | true =>
    rcases hderived i hi hd with rfl | rfl
    · exact hcompiled
    · exact hvalid

instance : BareNode EntitlementNode where
  bare_setReadiness _ _ := rfl
  bare_reset n := bare_invalidate n
  inputs_congr {n n'} h := by
    obtain ⟨he, hs⟩ := bare_eq_iff.1 h
    have hactive : n.has .active = n'.has .active := Flags.contains_congr hs (by decide)
    obtain ⟨e, st, rd, c⟩ := n
    obtain ⟨e', st', rd', c'⟩ := n'
    change e = e' at he
    subst he
    show NodeInputs.mk _ _ _ _ = NodeInputs.mk _ _ _ _
    exact congrArg _ hactive
  checkDelete_congr {n n'} h := by
    obtain ⟨he, hs⟩ := bare_eq_iff.1 h
    have hpinned : n.has .pinned = n'.has .pinned := Flags.contains_congr hs (by decide)
    show (if n.has .pinned then _ else _) = if n'.has .pinned then _ else _
    rw [hpinned, he]
  checkUpdate_congr {n n'} h := by
    obtain ⟨he, hs⟩ := bare_eq_iff.1 h
    have hsealed : n.has .sealed = n'.has .sealed := Flags.contains_congr hs (by decide)
    show (if n.has .sealed then _ else _) = if n'.has .sealed then _ else _
    rw [hsealed, he]
  applyPatch_congr {n n'} p h := by
    obtain ⟨he, hs⟩ := bare_eq_iff.1 h
    show (n.applyPatch p).1 = (n'.applyPatch p).1 ∧
      bare (n.applyPatch p).2 = bare (n'.applyPatch p).2
    simp only [bare_eq_iff, applyPatch, he, hs, and_self]
  answer_congr notice h := by
    cases notice with
    | own s origin => exact bare_onSignal_congr h s origin
    | dependency d s =>
      exact (bare_onDependencySignal _ d s).trans (h.trans (bare_onDependencySignal _ d s).symm)
  bare_answer n {notice} hplain := by
    cases notice with
    | own s origin => exact bare_onSignal n hplain origin
    | dependency d s => exact bare_onDependencySignal n d s
  plain_answer n notice := by
    cases notice with
    | own s origin => exact plain_onSignal n s origin
    | dependency d s => exact plain_onDependencySignal n d s
  ext {n n'} h hcompiled hmarked hverified := by
    have hstate := state_eq h hmarked hverified
    obtain ⟨e, st, rd, c⟩ := n
    obtain ⟨e', st', rd', c'⟩ := n'
    obtain rfl : e = e' := (bare_eq_iff.1 h).1
    obtain rfl : c = c' := hcompiled
    obtain rfl : st = st' := hstate
    rfl

end EntitlementNode

end LayeredAccess
