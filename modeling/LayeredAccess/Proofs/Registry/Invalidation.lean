/-
  LayeredAccess.Proofs.Registry.Invalidation

  What a registry owes to those who build on a node, when the node is deleted,
  changed or switched off. Each dependent that others could build on is spoken
  of once, after a dependency of its own (`Invalidates`), and none is left with
  a value (`Emptied`).

  A deletion ends there. A change goes on: the node is compiled anew, but not
  before its dependents have lost their values (`Pauses`), and what follows
  then speaks of gains alone.
-/
import LayeredAccess.Proofs.Registry.LossOrder
import LayeredAccess.Proofs.Registry.Session
import Mathlib.Data.List.Nodup

namespace LayeredAccess

namespace Registry

open Relation

variable {ν : Type} [Node ν]

/-! ## What is owed -/

/-- The nodes that have been spoken of as invalid between two moments: apart from the node that
is lost, all who depend on it and could be built on, each once and after a dependency. -/
structure Invalidates (r r' : Registry ν) (lost : String) (told : List String) : Prop where
  /-- The lost node itself is spoken of to its followers at most. -/
  notified : Notified r r' (told.flatMap fun k => invalidNotices ν k (k ≠ lost))
  nodup : told.Nodup
  mem_iff : ∀ k, k ≠ lost →
    (k ∈ told ↔ TransGen r.DependsOn k lost ∧ r.isDependable k = true)
  learnt : ∀ before k after, told = before ++ k :: after → k ≠ lost → Learnt r lost before k

/-- A node holds no value, none is cached for it, and nobody can build on it. -/
structure Valueless (r : Registry ν) (k : String) : Prop where
  isCompiled_eq : ∀ n, r.get? k = some n → Node.isCompiled n = false
  isDependable_eq : r.isDependable k = false
  compiled?_eq : r.compiled? k = none

/-- All who depended on a node have lost their values. -/
def Emptied (r r' : Registry ν) (lost : String) : Prop :=
  ∀ k, TransGen r.DependsOn k lost → Valueless r' k

variable {r r₀ r₁ r' : Registry ν} {lost : String} {told : List String}

/-- Those who learn of a loss from each other depend on what is lost. -/
theorem reaches_of_learnt (h : ∀ before k after, told = before ++ k :: after → k ≠ lost →
    Learnt r lost before k) : ∀ k ∈ told, k ≠ lost → TransGen r.DependsOn k lost := by
  induction told using List.reverseRecOn with
  | nil => simp
  | append_singleton earlier last ih =>
    have hearlier : ∀ k ∈ earlier, k ≠ lost → TransGen r.DependsOn k lost := by
      refine ih fun before k after heq hk => h before k (after ++ [last]) ?_ hk
      rw [heq, List.append_assoc, List.cons_append]
    intro k hk hne
    rcases List.mem_append.1 hk with hk | hk
    · exact hearlier k hk hne
    · obtain rfl : k = last := by simpa using hk
      rcases h earlier k [] rfl hne with hdirect | ⟨d, hd, hdne, hdepends⟩
      · exact .single hdirect
      · exact .head hdepends (hearlier d hd hdne)

/-- A task list is worked off within its bound up to some point. -/
def Passes (r : Registry ν) (tasks : List Task) (mid : Registry ν) (left : List Task) : Prop :=
  ∃ steps ≤ r.cascadeBound tasks, Agenda.run step steps r tasks = (mid, left)

/-- What is left to do when only gains are left tells of no invalid node. -/
theorem Passes.notified [SpeakingNode ν] {tasks left : List Task} {mid : Registry ν}
    (h : r.Passes tasks mid left) (hleft : ∀ t ∈ left, t.IsGain) :
    Notified mid (r.settle tasks) [] := by
  obtain ⟨steps, hle, hrun⟩ := h
  obtain ⟨rest, hbound⟩ := Nat.exists_eq_add_of_le hle
  rw [settle, hbound, Agenda.run_add, hrun]
  exact notified_run_of_gain hleft rest mid

theorem Invalidates.of_published (h : Invalidates r r' lost told)
    (hpublished : Notified r' r₁ []) : Invalidates r r₁ lost told :=
  ⟨h.notified.trans_nil hpublished, h.nodup, h.mem_iff, h.learnt⟩

/-! ## Where a loss has spread -/

variable [NodeKind ν]

theorem value?_eq_none_iff {k : String} :
    r.value? k = none ↔ ∀ n, r.get? k = some n → Node.isCompiled n = false := by
  rw [value?, view?]
  cases r.get? k with
  | none => simp
  | some n =>
    simp only [Option.map_some, Option.bind_some, Option.some.injEq, forall_eq']
    rw [Node.isCompiled, Option.isSome_eq_false_iff, Option.isNone_iff_eq_none]
    rfl

theorem Unmoved.dependsOn_eq (h : Unmoved r r₀) : r₀.DependsOn = r.DependsOn := by
  funext k d
  refine propext (dependsOn_congr ?_ d)
  rw [links?, h.view?_eq, links?]

theorem Emptied.of_unmoved (ha : Unmoved r r₀) (h : Emptied r₀ r' lost) : Emptied r r' lost :=
  fun k hk => h k (ha.dependsOn_eq ▸ hk)

theorem Wired.not_reaches_self (h : Wired r) (k : String) : ¬ TransGen r.DependsOn k k :=
  h.dependsOn_eq ▸ h.ranked.acyclic k

section Spread

variable [LawfulNode ν] {verifier : Option Verifier} {width : Nat} {height : String → Nat}
  {doomed : String → Prop}

/-- What has been published before a loss makes no difference. -/
theorem Invalidates.of_unmoved (ha : Unmoved r r₀) (hpublished : Notified r r₀ [])
    (h : Invalidates r₀ r' lost told) : Invalidates r r' lost told := by
  have hlearnt : Learnt r₀ lost = Learnt r lost := by
    funext earlier k
    rw [Learnt, ha.dependsOn_eq, Learnt]
  refine ⟨hpublished.trans h.notified, h.nodup, fun k hk => ?_, hlearnt ▸ h.learnt⟩
  rw [h.mem_iff k hk, ha.dependsOn_eq, ha.isDependable_eq]

theorem Coherent.valueless {k : String} {v : NodeView} (h : Coherent verifier r)
    (hv : r.view? k = some v) (hnone : v.compiled = none) : Valueless r k := by
  refine ⟨value?_eq_none_iff.1 ?_, ?_, ?_⟩
  · rw [value?, hv]
    exact hnone
  · rw [isDependable_of_view? hv]
    exact (h.fits k v hv).dependable_eq_false hnone
  · rw [h.compiled?_eq, value?, hv]
    exact hnone

/-- In a coherent registry a node holds no value if it lacks a dependency. -/
theorem Coherent.valueless_of_lacks {k d : String} (h : Coherent verifier r)
    (hdepends : r.DependsOn k d) (hd : r.isDependable d = false) : Valueless r k := by
  obtain ⟨n, hn, hmem⟩ := hdepends
  have hv := view?_of_get? hn
  have hready : ¬ (Node.view n).Ready := by
    rw [h.ready_iff hv]
    intro hall
    have hdep : r.isDependable d = true := hall d hmem
    simp [hd] at hdep
  exact h.valueless hv ((h.fits k _ hv).compiled_eq_none hready)

/-- When a loss has spread, nobody can build on the lost node. -/
theorem Spreading.isDependable_lost
    (h : Spreading verifier width height doomed r₀ lost told r []) :
    r.isDependable lost = false := by
  rcases h.given_up with hdoomed | hplain
  · have hnone := (h.falling.ended lost hdoomed).resolve_left (by simp)
    rw [Bool.eq_false_iff]
    intro hdep
    have hsome := h.falling.steady.value?_of_isDependable hdep
    simp [hnone] at hsome
  · exact hplain

/-- When a loss has spread, nobody who depends on the lost node holds a value: the nearest lack
the node itself, all others a node that is nearer. -/
theorem Spreading.emptied (h : Spreading verifier width height doomed r₀ lost told r [])
    (hacyclic : ¬ TransGen r₀.DependsOn lost lost) : Emptied r₀ r lost := by
  have hcoherent := h.falling.coherent
  have hsame : ∀ k d, TransGen r₀.DependsOn k lost → r₀.DependsOn k d → r.DependsOn k d := by
    intro k d hk hd
    have hne : k ≠ lost := by
      rintro rfl
      exact hacyclic hk
    exact (dependsOn_congr (h.links?_eq k hne) d).2 hd
  intro k hk
  induction hk using TransGen.head_induction_on with
  | single hdirect =>
    exact hcoherent.valueless_of_lacks (hsame _ _ (.single hdirect) hdirect) h.isDependable_lost
  | head hstep hrest ih =>
    exact hcoherent.valueless_of_lacks (hsame _ _ (.head hstep hrest) hstep) ih.isDependable_eq

theorem Spreading.invalidates (h : Spreading verifier width height doomed r₀ lost told r [])
    (hacyclic : ¬ TransGen r₀.DependsOn lost lost) : Invalidates r₀ r lost told := by
  have hmem : ∀ k, k ≠ lost →
      (k ∈ told ↔ r₀.isDependable k = true ∧ r.isDependable k = false) := by
    simpa [pending] using h.mem_iff
  have hreaches := reaches_of_learnt h.learnt_told
  refine ⟨h.notified, by simpa [pending] using h.nodup, fun k hk => ⟨fun hin => ?_, ?_⟩,
    h.learnt_told⟩
  · exact ⟨hreaches k hin hk, ((hmem k hk).1 hin).1⟩
  · rintro ⟨hdepends, hdep⟩
    exact (hmem k hk).2 ⟨hdep, (h.emptied hacyclic k hdepends).isDependable_eq⟩

/-! ## How a loss starts to spread -/

/-- A node has turned into one that is not dependable, and is about to say so if it was. -/
theorem Coherent.spreading {loss : List Effect} (h : Coherent verifier r)
    (hs : Steady verifier r') (hg : Graded width height r')
    (hother : ∀ k, k ≠ lost → r'.view? k = r.view? k) (hplain : r'.isDependable lost = false)
    (hrecorded : ∀ v, r'.view? lost = some v → ∀ d ∈ v.inputs.dependencies,
      v.recorded d = some (r.isDependable d))
    (hloss : loss = [.broadcast .invalidated false] ∨
      (loss = [] ∧ r.isDependable lost = false))
    (hpublished : Notified r r' []) :
    Spreading verifier width height (fun _ => False) r lost [] r'
      (loss.map (.perform lost)) := by
  have hsame : ∀ k, k ≠ lost → r'.isDependable k = r.isDependable k :=
    fun k hk => isDependable_congr (hother k hk)
  have htasks : ∀ t ∈ loss.map (Task.perform lost),
      t = .perform lost (.broadcast .invalidated false) := by
    rcases hloss with rfl | ⟨rfl, -⟩ <;> simp
  -- The node is the only one that may be about to speak.
  have hpending : pending (loss.map (.perform lost)) = [lost] ∨
      pending (loss.map (.perform lost)) = [] := by
    rcases hloss with rfl | ⟨rfl, -⟩
    · exact .inl rfl
    · exact .inr rfl
  have honly : ∀ k ∈ pending (loss.map (.perform lost)), k = lost := by
    rcases hpending with heq | heq <;> simp [heq]
  refine ⟨h.falling hs hg hother hplain hrecorded (hloss.imp (fun heq => ⟨false, heq⟩) id),
    fun _ hf => hf.elim, fun k hk => ?links, hpublished, fun k s wide hin => ?wide, ?nodup,
    fun k hk => ⟨fun hin => absurd (honly k (by simpa using hin)) hk, ?mem⟩,
    fun k hk hdep => (hsame k hk).symm.trans hdep,
    fun k hin hk => absurd (honly k hin) hk, by simp, fun n d s hin => ?spoken, .inr hplain⟩
  case links => rw [links?, hother k hk, links?]
  case wide =>
    obtain ⟨rfl, -, rfl⟩ : k = lost ∧ s = .invalidated ∧ wide = false := by
      simpa using htasks _ hin
    simp
  case nodup => rcases hpending with heq | heq <;> simp [heq]
  case mem =>
    rintro ⟨hbefore, hafter⟩
    rw [hsame k hk, hbefore] at hafter
    simp at hafter
  case spoken => simpa using htasks _ hin

/-- The loss spreads, and is over within the reserve. -/
theorem Coherent.exists_spread [LinkedNode ν] [SpeakingNode ν] {loss : List Effect}
    (h : Coherent verifier r) (hs : Steady verifier r')
    (hother : ∀ k, k ≠ lost → r'.view? k = r.view? k) (hplain : r'.isDependable lost = false)
    (hrecorded : ∀ v, r'.view? lost = some v → ∀ d ∈ v.inputs.dependencies,
      v.recorded d = some (r.isDependable d))
    (hloss : loss = [.broadcast .invalidated false] ∨
      (loss = [] ∧ r.isDependable lost = false))
    (hpublished : Notified r r' []) :
    ∃ r'' told, Agenda.run step r'.reserve r' (loss.map (.perform lost)) = (r'', []) ∧
      Coherent verifier r'' ∧ Invalidates r r'' lost told ∧ Emptied r r'' lost := by
  obtain ⟨height, hg⟩ := hs.wired.exists_graded
  -- The reserve is enough for one broadcast.
  have hweight : Agenda.total (Task.weight r'.listenerCount height)
      (loss.map (.perform lost)) ≤ r'.reserve := by
    rcases hloss with rfl | ⟨rfl, -⟩
    · simpa using hg.weight_le (.perform lost (.broadcast .invalidated false))
    · simp
  obtain ⟨r'', told, hrun, hend⟩ :=
    (h.spreading hs hg hother hplain hrecorded hloss hpublished).run_eq hweight
  have hself := h.wired.not_reaches_self lost
  exact ⟨r'', told, hrun, hend.falling.coherent, hend.invalidates hself, hend.emptied hself⟩

omit [LawfulNode ν] in
/-- A node that is to be removed, and its channel, are told of it. -/
theorem Coherent.spreading_dispatch {v : NodeView} (h : Coherent verifier r)
    (hg : Graded width height r) (hv : r.view? lost = some v) :
    Spreading verifier width height (· = lost) r lost [] r
      (r.dispatch lost .deleted .registry) := by
  -- Only the node itself is to speak, once it has been told.
  have honly : ∀ k ∈ pending (r.dispatch lost .deleted .registry), k = lost := by
    intro k hk
    obtain ⟨t, ht, htk⟩ := List.mem_filterMap.1 hk
    obtain ⟨l, hl, rfl⟩ := List.mem_map.1 ht
    cases l with
    | dependent j => simp at htk
    | owner j =>
      obtain rfl : j = k := by simpa using htk
      exact ((h.wired.mem_listenersOf lost _).1 hl).1
  have hnodup : (pending (r.dispatch lost .deleted .registry)).Nodup := by
    rw [pending, dispatch, List.filterMap_map]
    refine List.Nodup.filterMap (fun l l' k hk hk' => ?_) (h.wired.nodup lost)
    cases l <;> cases l' <;> simp_all
  refine ⟨h.falling_dispatch hg hv, fun _ hk => hk, fun _ _ => rfl, notified_of_published rfl,
    fun k s wide hin => ?_, by simpa using hnodup,
    fun k hk => ⟨fun hin => absurd (honly k (by simpa using hin)) hk, ?_⟩,
    fun _ _ hdep => hdep, fun k hin hk => absurd (honly k hin) hk, by simp,
    fun n d s hin => ?_, .inl rfl⟩
  · obtain ⟨l, -, hl⟩ := List.mem_map.1 hin
    cases l <;> simp at hl
  · rintro ⟨hbefore, hafter⟩
    rw [hbefore] at hafter
    simp at hafter
  · obtain ⟨l, -, hl⟩ := List.mem_map.1 hin
    cases l with
    | owner j => simp at hl
    | dependent j =>
      obtain ⟨-, rfl, -⟩ : j = n ∧ lost = d ∧ _ := by simpa using hl
      exact .inl rfl

end Spread

/-! ## Deleting -/

variable [LawfulNode ν] [LinkedNode ν] [SpeakingNode ν] {verifier : Option Verifier}

omit [Node ν] [NodeKind ν] [LawfulNode ν] [LinkedNode ν] [SpeakingNode ν] in
/-- Taking out a node publishes nothing. -/
theorem published_uninstall (r : Registry ν) (k : String) (ds : List String) :
    (r.uninstall k ds).published = r.published := by
  obtain ⟨ls, huninstall⟩ := exists_uninstall r k ds
  rw [huninstall]
  rfl

omit [LinkedNode ν] [SpeakingNode ν] in
/-- Those who hold no value do not get one when a node is taken out. -/
theorem Valueless.uninstall {k j : String} {n : ν} (hw : Wired r) (hn : r.get? k = some n)
    (h : Valueless r j) : Valueless (r.uninstall k (Node.dependencies n)) j := by
  obtain ⟨-, hview, hcompiled, -⟩ := uninstall_spec hw (view?_of_get? hn)
  change ∀ i, (r.uninstall k (Node.dependencies n)).view? i = _ at hview
  change ∀ i, (r.uninstall k (Node.dependencies n)).compiled? i = _ at hcompiled
  refine ⟨value?_eq_none_iff.1 ?_, ?_, ?_⟩
  · rw [value?, hview]
    split
    · rfl
    · exact value?_eq_none_iff.2 h.isCompiled_eq
  · rw [Registry.isDependable_eq, hview]
    split
    · rfl
    · rw [← Registry.isDependable_eq]
      exact h.isDependable_eq
  · rw [hcompiled, h.compiled?_eq, ite_self]

/-- A node that is deleted: those who depend on it learn of it, and then it is taken out. -/
theorem Coherent.invalidates_delete {k : String} {n : ν} (h : Coherent verifier r)
    (hok : (r.delete k).1 = .ok n) :
    ∃ told, Invalidates r (r.delete k).2 k told ∧ Emptied r (r.delete k).2 k := by
  cases hn : r.get? k with
  | none => simp [Registry.delete, hn, refuse] at hok
  | some before =>
    cases hcheck : Node.checkDelete before with
    | error e => simp [Registry.delete, hn, hcheck, refuse] at hok
    -- First the deletion is published and spreads. Then the node is taken out, without a word.
    | ok u =>
      obtain ⟨-, m, hm, heq⟩ := exists_delete hn hcheck
      have ha := (silent_publishSignal r k .deleted true).alike
      have hpublished : Notified r (r.publishSignal k .deleted true) [] :=
        notified_publishSignal_of_ne r k true (by simp [Signal.label])
      generalize r.publishSignal k .deleted true = r₀ at ha hpublished hm heq
      have h₀ := h.of_unmoved ha.toUnmoved
      have hv₀ : r₀.view? k = some (Node.view before) := (ha.view?_eq k).trans (view?_of_get? hn)
      obtain ⟨height, hg⟩ := h₀.wired.exists_graded
      obtain ⟨r₁, told, hrun, hend⟩ :=
        (h₀.spreading_dispatch hg hv₀).run_eq (hg.total_le_cascadeBound _)
      rw [settle_eq hrun (Nat.le_refl _)] at hm heq
      rw [heq]
      have hself := h₀.wired.not_reaches_self k
      refine ⟨told, ((hend.invalidates hself).of_unmoved ha.toUnmoved hpublished).of_published
        (notified_of_published (published_uninstall r₁ k _)), fun j hj => ?_⟩
      have hvalueless := (hend.emptied hself).of_unmoved ha.toUnmoved j hj
      exact hvalueless.uninstall hend.falling.steady.wired hm

/-! ## Switching off -/

/-- A node takes part, but not once it has been told of some flags. -/
def SwitchesOff (n : ν) (flags : Flags) : Prop :=
  NodeKind.isActive n = true ∧
    NodeKind.isActive (answer n (.own (.customized flags) .registry)).2 = false

omit [LinkedNode ν] [SpeakingNode ν] in
/-- A node that is switched off answers that it has become invalid, and keeps its value. -/
theorem tell_switchedOff {k : String} {n : ν} {flags : Flags} (hn : r.get? k = some n)
    (hoff : SwitchesOff n flags) :
    ∃ r₁, r.tell k (.own (.customized flags) .registry) =
        (r₁, [.perform k (.broadcast .invalidated false)]) ∧
      Turns r r₁ k { Node.view n with inputs.active := false } := by
  obtain ⟨hactive, hplain⟩ := hoff
  obtain ⟨active, effects, hswitch, hreacts⟩ := LawfulNode.customized n flags
  obtain rfl : active = false := by
    rw [← hplain]
    exact (congrArg (·.inputs.active) hreacts.view_eq).symm
  obtain rfl : effects = [.broadcast .invalidated false] := by
    have hwas : (Node.view n).inputs.active = true := hactive
    generalize hplain' : false = active at hswitch
    cases hswitch.switched with
    | stayed => simp [hwas] at hplain'
    | off => rfl
    | resumed | unverified | awoken => simp at hplain'
  obtain ⟨r₁, htell, hc⟩ := tell_eq hn hreacts
  refine ⟨r₁, htell, hc.turns fun ⟨hl, hl'⟩ => ?_⟩
  simp only at hl'
  simp [hl'] at hl

/-- Those who depend on a node that is switched off learn that they have lost it. -/
theorem Coherent.invalidates_switchedOff {k : String} {n : ν} {flags : Flags}
    (h : Coherent verifier r) (hn : r.get? k = some n) (hoff : SwitchesOff n flags) :
    ∃ told, Invalidates r (r.deliver k (.customized flags)) k told ∧
      Emptied r (r.deliver k (.customized flags)) k := by
  obtain ⟨r₁, htell, hc⟩ := tell_switchedOff hn hoff
  have hv := view?_of_get? hn
  have hv₁ := (hc.view?_eq k).trans (if_pos rfl)
  have hs₁ : Steady verifier r₁ := h.toSteady.set hc.toFrame hv hc.view?_eq
    (hc.compiled?_eq_of_value h.toSteady hv rfl) rfl rfl ((h.fits k _ hv).switch false)
  -- What is not active is not dependable.
  have hplain : r₁.isDependable k = false := by
    rw [isDependable_of_view? hv₁]
    rfl
  have hsilent : Notified r r₁ [] := notified_of_published (published_of_tell htell)
  obtain ⟨r₂, told, hrun, -, hinvalidates, hemptied⟩ := h.exists_spread hs₁
    (fun j hj => (hc.view?_eq j).trans (if_neg hj)) hplain
    (fun v hw d hd => by
      obtain rfl := Option.some.inj (hv₁.symm.trans hw)
      exact h.recorded_eq k _ hv d hd)
    (.inl rfl) hsilent
  have hdeliver : r.deliver k (.customized flags) = r₂ := by
    refine deliver_eq htell hrun ?_
    rw [hc.toFrame.reserve_eq h.wired.sorted]
    omega
  rw [hdeliver]
  exact ⟨told, hinvalidates, hemptied⟩

theorem Coherent.invalidates_customize {k : String} {n : ν} {flags : Flags}
    (h : Coherent verifier r) (hn : r.get? k = some n) (hoff : SwitchesOff n flags) :
    ∃ told, Invalidates r (r.customize k flags).2 k told ∧
      Emptied r (r.customize k flags).2 k := by
  have hcontains : r.contains k = true := by rw [contains, hn]; rfl
  have hcustomize : (r.customize k flags).2 =
      (r.publishSignal k (.customized flags) true).deliver k (.customized flags) := by
    rw [customize, if_pos hcontains]
  have ha := (silent_publishSignal r k (.customized flags) true).alike
  have hpublished : Notified r (r.publishSignal k (.customized flags) true) [] :=
    notified_publishSignal_of_ne r k true (by simp [Signal.label])
  have hn₀ : (r.publishSignal k (.customized flags) true).get? k = some n := hn
  obtain ⟨told, hinvalidates, hemptied⟩ :=
    (h.of_unmoved ha.toUnmoved).invalidates_switchedOff hn₀ hoff
  rw [hcustomize]
  exact ⟨told, hinvalidates.of_unmoved ha.toUnmoved hpublished,
    hemptied.of_unmoved ha.toUnmoved⟩

/-! ## Changing -/

/-- The registry in which a node is told of the patch that it has got. -/
def patched (r : Registry ν) (key : String) (before : ν) (patch : Node.Patch ν) : Registry ν :=
  let (outcome, after) := Node.applyPatch before patch
  let r := r.setNode key after
  let r := if outcome.dependenciesChanged then r.relink key (Node.dependencies before) after else r
  (r.publishWide key .updated).publishNarrow key .updated

omit [NodeKind ν] [LawfulNode ν] [LinkedNode ν] [SpeakingNode ν] in
/-- An update that calls for compiling is a patch of which the node is told. -/
theorem update_eq {k : String} {n : ν} {patch : Node.Patch ν} (hn : r.get? k = some n)
    (hcheck : r.checkUpdate k n patch = .ok ())
    (hneeds : (Node.applyPatch n patch).1.needsRecompile = true) :
    r.update k patch = (.ok (), (r.patched k n patch).deliver k .updated) := by
  simp only [Registry.update, hn, hcheck, hneeds, if_true]
  rfl

omit [NodeKind ν] [LawfulNode ν] [LinkedNode ν] [SpeakingNode ν] in
/-- A patch changes the node, the graph and who listens, and is made known. -/
theorem exists_patched (r : Registry ν) (k : String) (n : ν) (patch : Node.Patch ν) :
    ∃ nodes listeners graph, r.patched k n patch =
        (Registry.publishWide { r with nodes, listeners, graph } k .updated).publishNarrow k
          .updated ∧
      ∀ j, j ≠ k → KeyMap.find? nodes j = r.get? j := by
  let after := (Node.applyPatch n patch).2
  have hset : ∀ j, j ≠ k → (r.setNode k after).get? j = r.get? j := fun j hj =>
    (KeyMap.find?_insert r.nodes k j after).trans (if_neg (Ne.symm hj))
  -- The tables change only if the dependencies do.
  have hplaced : ∃ nodes listeners graph,
      (if (Node.applyPatch n patch).1.dependenciesChanged then
        (r.setNode k after).relink k (Node.dependencies n) after else r.setNode k after) =
          { r with nodes, listeners, graph } ∧
      ∀ j, j ≠ k → KeyMap.find? nodes j = r.get? j := by
    split
    · obtain ⟨ls, hrelink⟩ := exists_relink (r.setNode k after) k (Node.dependencies n) after
      refine ⟨_, ls, _, hrelink, fun j hj => ?_⟩
      rw [← hset j hj, setNode, KeyMap.find?_insert, if_neg (Ne.symm hj)]
      rfl
    · exact ⟨_, r.listeners, r.graph, rfl, hset⟩
  obtain ⟨nodes, listeners, graph, heq, hother⟩ := hplaced
  refine ⟨nodes, listeners, graph, ?_, hother⟩
  rw [← heq]
  rfl

omit [NodeKind ν] [LawfulNode ν] [LinkedNode ν] [SpeakingNode ν] in
/-- A patch publishes no notice of an invalid node. -/
theorem notified_patched (r : Registry ν) (k : String) (n : ν) (patch : Node.Patch ν) :
    Notified r (r.patched k n patch) [] := by
  obtain ⟨nodes, listeners, graph, hpatched, -⟩ := exists_patched r k n patch
  have hplaced : Notified r ({ r with nodes, listeners, graph } : Registry ν) [] :=
    notified_of_published rfl
  have hlabel : Signal.updated.label ≠ "Invalid" := by simp [Signal.label]
  rw [hpatched]
  exact (hplaced.trans_nil (notified_publish_of_ne _ hlabel _ _)).trans_nil
    (notified_publish_of_ne _ hlabel _ _)

omit [LinkedNode ν] [SpeakingNode ν] in
/-- A permitted patch replaces a node, which is made known. -/
theorem Coherent.replaced_patched {k : String} {n : ν} {patch : Node.Patch ν}
    (h : Coherent verifier r) (hn : r.get? k = some n)
    (hcheck : r.checkUpdate k n patch = .ok ()) :
    ∃ v', Replaced r (r.patched k n patch) k (Node.view n) v' := by
  obtain ⟨v', hr⟩ := h.replaced hn hcheck
  have hwide : ∀ r' : Registry ν, Alike r' (r'.publishWide k .updated) :=
    fun _ => Silent.alike ⟨_, rfl⟩
  have hnarrow : ∀ r' : Registry ν, Alike r' (r'.publishNarrow k .updated) :=
    fun _ => Silent.alike ⟨_, rfl⟩
  exact ⟨v', (hr.alike (hwide _)).alike (hnarrow _)⟩

/-- Within an update, a point at which the node has lost its value, and nothing is left to do but
to compile it, if it can be. -/
structure Pauses (r : Registry ν) (k : String) (mid : Registry ν) : Prop where
  passes : r.Passes [.tell k (.own .updated .registry)] mid
    (if (mid.get? k).any Node.isCompilable then [.perform k .compile] else [])
  valueless : Valueless mid k

omit [NodeKind ν] [LawfulNode ν] [LinkedNode ν] in
/-- After such a point no node is said to be invalid. -/
theorem Pauses.notified {k : String} {mid : Registry ν} (h : r.Pauses k mid) :
    Notified mid (r.deliver k .updated) [] := by
  refine h.passes.notified fun t ht => ?_
  split at ht
  · obtain rfl : t = .perform k .compile := by simpa using ht
    trivial
  · simp at ht

omit [NodeKind ν] [LawfulNode ν] [LinkedNode ν] [SpeakingNode ν] in
/-- A node is told something, and all that follows from some of its effects is done, while the
other effects wait. -/
theorem passes_tell {k : String} {notice : Notice} {mid : Registry ν} {effects more : List Effect}
    (htell : r.tell k notice = (r₁, (effects ++ more).map (.perform k)))
    (hrun : Agenda.run step r.reserve r₁ (effects.map (.perform k)) = (mid, [])) :
    r.Passes [.tell k notice] mid (more.map (.perform k)) := by
  obtain ⟨steps, hle, hwhole⟩ := Agenda.exists_run_append_eq hrun (more.map (.perform k))
  refine ⟨1 + steps, ?_, ?_⟩
  · rw [cascadeBound_eq, List.length_singleton, Nat.mul_add r.reserve]
    have := r.one_le_reserve
    omega
  · have hleads := Agenda.leads_of_step (show step r (.tell k notice) = _ from htell)
    rw [hleads, List.append_nil, List.map_append]
    exact hwhole

/-- A node that is told of its patch: those who depend on it have lost their values before it is
compiled anew. -/
theorem Coherent.pauses_updated {k : String} {v v' : NodeView} (h : Coherent verifier r)
    (hr : Replaced r r' k v v') (hpublished : Notified r r' []) :
    ∃ told mid, r'.Pauses k mid ∧ Invalidates r mid k told ∧ Emptied r mid k := by
  have hv' : r'.view? k = some v' := (hr.view?_eq k).trans (if_pos rfl)
  obtain ⟨m, hm, rfl⟩ := exists_get? hv'
  obtain ⟨loss, hloss, hreacts⟩ := LawfulNode.updated m
  obtain ⟨r₁, htell, hc⟩ := tell_eq hm hreacts
  obtain ⟨hs₁, hview₁, -⟩ := hr.of_fallen h hc
  have hv₁ := (hview₁ k).trans (if_pos rfl)
  have hplain : r₁.isDependable k = false := by
    rw [isDependable_of_view? hv₁, NodeView.fallen_dependable]
  have hloss' : loss = [.broadcast .invalidated false] ∨
      (loss = [] ∧ r.isDependable k = false) := by
    refine (loss_eq hloss hreacts.effects_eq).imp id fun ⟨heq, hwas⟩ => ⟨heq, ?_⟩
    rw [isDependable_of_view? hr.before, ← hr.dependable_eq, hwas]
  have hsilent : Notified r r₁ [] :=
    hpublished.trans_nil (notified_of_published (published_of_tell htell))
  obtain ⟨mid, told, hrun, hcoherent, hinvalidates, hemptied⟩ := h.exists_spread hs₁
    (fun j hj => (hview₁ j).trans (if_neg hj)) hplain
    (fun w hw d hd => by
      obtain rfl := Option.some.inj (hv₁.symm.trans hw)
      exact hr.recorded_eq d hd)
    hloss' hsilent
  -- The node itself stays as it is while its dependents learn of the loss.
  obtain ⟨height, hg⟩ := hs₁.wired.exists_graded
  obtain ⟨r₂, hrun₂, -, -, hline, -⟩ := hr.exists_told h hc hg hloss
  obtain rfl : mid = r₂ := congrArg Prod.fst (hrun.symm.trans hrun₂)
  obtain ⟨w, hw, hnone, hready, -⟩ := exists_view?_of_outline hline
  have hleft : (if (mid.get? k).any Node.isCompilable then [Task.perform k .compile] else []) =
      (Node.view m).compileIfReady.map (.perform k) := by
    obtain ⟨n, hn, rfl⟩ := exists_get? hw
    simp only [hn, Option.any_some, isCompilable_iff, hready, NodeView.compileIfReady]
    split <;> rfl
  refine ⟨told, mid, ⟨?_, hcoherent.valueless hw hnone⟩, hinvalidates, hemptied⟩
  rw [hleft]
  rw [hc.toFrame.reserve_eq hr.wired.sorted] at hrun
  exact passes_tell htell hrun

/-! ## In terms of the operations -/

/-- What a registry does for those who depend on a node, where `Off` says which flags switch a
node off. -/
structure Cascades (r : Registry ν) (Off : ν → Flags → Prop) : Prop where
  delete : ∀ k n, (r.delete k).1 = .ok n →
    ∃ told, Invalidates r (r.delete k).2 k told ∧ Emptied r (r.delete k).2 k
  customize : ∀ k n flags, r.get? k = some n → Off n flags →
    ∃ told, Invalidates r (r.customize k flags).2 k told ∧ Emptied r (r.customize k flags).2 k
  /-- An update may go on to compile the node, but speaks of nobody else when it does. -/
  update : ∀ k n patch, r.get? k = some n → (r.update k patch).1 = .ok () →
    (Node.applyPatch n patch).1.needsRecompile = true →
    (r.update k patch).2 = (r.patched k n patch).deliver k .updated ∧
    ∃ told mid, (r.patched k n patch).Pauses k mid ∧ Invalidates r mid k told ∧
      Emptied r mid k ∧ Invalidates r (r.update k patch).2 k told

theorem Coherent.cascades (h : Coherent verifier r) : r.Cascades SwitchesOff := by
  refine ⟨fun k n hok => h.invalidates_delete hok,
    fun k n flags hn hoff => h.invalidates_customize hn hoff,
    fun k n patch hn hok hneeds => ?_⟩
  have hcheck : r.checkUpdate k n patch = .ok () := by
    cases hcheck : r.checkUpdate k n patch with
    | ok u => rfl
    | error e => simp [Registry.update, hn, hcheck, refuse] at hok
  have hupdate : (r.update k patch).2 = (r.patched k n patch).deliver k .updated :=
    congrArg Prod.snd (update_eq hn hcheck hneeds)
  obtain ⟨v', hpatched⟩ := h.replaced_patched hn hcheck
  obtain ⟨told, mid, hpauses, hinvalidates, hemptied⟩ :=
    h.pauses_updated hpatched (notified_patched r k n patch)
  have hend : Invalidates r ((r.patched k n patch).deliver k .updated) k told :=
    hinvalidates.of_published hpauses.notified
  exact ⟨hupdate, told, mid, hpauses, hinvalidates, hemptied, hupdate ▸ hend⟩

end Registry

namespace Session

/-- In every session those who depend on a node that is deleted, changed or switched off learn of it
as they should, be it entitlements or profiles. An entitlement is switched off when it is active and
the flags that are set are not; a profile is always switched on. Generations do not wrap: this is
about fewer than `2 ^ 64` compile requests. -/
theorem cascades_run (config : EngineConfig) (verifier : Option Verifier) :
    (∀ events : List (Event EntitlementNode),
      ((start config verifier).run events).registry.Cascades fun n flags =>
        n.has .active = true ∧ flags.contains .active = false) ∧
    (∀ events : List (Event ProfileNode),
      ((start config verifier).run events).registry.Cascades fun _ _ => False) := by
  constructor
  · intro events
    have hinv := (invariant_start (ν := EntitlementNode) config verifier).run events
    have h := hinv.coherent.cascades
    refine ⟨h.delete, fun k n flags hn hoff => h.customize k n flags hn ⟨hoff.1, ?_⟩, h.update⟩
    show (n.customize flags).2.has .active = false
    rw [← hoff.2, Flags.contains_active]
    exact congrArg (·.inputs.active) (EntitlementNode.view_customize n flags)
  · intro events
    have hinv := (invariant_start (ν := ProfileNode) config verifier).run events
    have h := hinv.coherent.cascades
    exact ⟨h.delete, fun _ _ _ _ hf => hf.elim, h.update⟩

end Session

end LayeredAccess
