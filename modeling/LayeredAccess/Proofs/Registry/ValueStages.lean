/-
  LayeredAccess.Proofs.Registry.ValueStages

  Rising cascades step by step.

  A value comes in stages. It is in the cache before its node is told of it, and
  the node holds it before it is known to comply (`Climbing`). Until its
  dependents are told, nothing else happens, so that every node is compiled in
  a registry that is as at the beginning of a rising cascade: all dependencies
  are dependable, and their values are in the cache (`Rising.prepared`).

  No value is dropped meanwhile. So compiling fills the cache place by place
  (`filling_compiled?`).
-/
import LayeredAccess.Proofs.Agenda.Moments
import LayeredAccess.Proofs.Registry.Steps
import LayeredAccess.Proofs.Registry.Structure

namespace LayeredAccess.Registry

/-- The node that a task compiles, if it does. -/
def compileKey? : Task → Option String
  | .perform k .compile => some k
  | _ => none

variable {ν : Type} [Node ν] [NodeKind ν] {verifier : Option Verifier} {width : Nat}
  {height : String → Nat} {bound : Nat} {r₀ r r' : Registry ν} {k : String} {v : NodeView}
  {x : Json} {t : Task} {tasks rest : List Task}

/-! ## Stages -/

/-- A node that is ready is about to get a value, which is in the cache already. `r₀` is the
registry before the value came. -/
structure Awaiting (verifier : Option Verifier) (width : Nat) (height : String → Nat) (bound : Nat)
    (r₀ r : Registry ν) (k : String) (v : NodeView) (x : Json) (rest : List Task) : Prop extends
    Frame r₀ r where
  rising : Rising verifier width height bound r₀ rest
  before : r₀.view? k = some v
  ready : v.Ready
  compiled_eq : v.compiled = none
  fresh : k ∉ dueOf rest
  height_le : height k ≤ bound
  compiled?_eq : ∀ j, r.compiled? j = if j = k then some x else r₀.compiled? j

/-- What holds between the steps of a rising cascade. -/
inductive Climbing (verifier : Option Verifier) (width : Nat) (height : String → Nat)
    (bound : Nat) : Registry ν → List Task → Prop
  | rising {r : Registry ν} {tasks : List Task}
    (h : Rising verifier width height bound r tasks) : Climbing verifier width height bound r tasks
  /-- The node is to be told of its value. -/
  | delivered {r₀ r : Registry ν} {k : String} {v : NodeView} {x : Json} {rest : List Task}
    (h : Awaiting verifier width height bound r₀ r k v x rest)
    (hview : ∀ j, r.view? j = r₀.view? j) :
    Climbing verifier width height bound r (.tell k (.own (.compiled x) .registry) :: rest)
  /-- The node holds the value, and wants it verified. -/
  | received {r₀ r : Registry ν} {k : String} {v : NodeView} {x : Json} {rest : List Task}
    (h : Awaiting verifier width height bound r₀ r k v x rest)
    (hkind : NodeKind.verifies ν = true)
    (hview : ∀ j, r.view? j =
      if j = k then some { v with compiled := some x, marked := true } else r₀.view? j) :
    Climbing verifier width height bound r (.perform k .validate :: rest)
  /-- The value complies, of which the node is to be told. -/
  | approved {r₀ r : Registry ν} {k : String} {v : NodeView} {x : Json} {rest : List Task}
    (h : Awaiting verifier width height bound r₀ r k v x rest)
    (hkind : NodeKind.verifies ν = true)
    (hview : ∀ j, r.view? j =
      if j = k then some { v with compiled := some x, marked := true } else r₀.view? j)
    (haccepts : accepts verifier v.inputs.resource x = true) :
    Climbing verifier width height bound r (.tell k (.own .validated .registry) :: rest)

/-- A step of a rising cascade leads on, and only compiling changes the cache. -/
structure Climbs (verifier : Option Verifier) (width : Nat) (height : String → Nat) (bound : Nat)
    (r : Registry ν) (t : Task) (rest : List Task) : Prop where
  climbing : Climbing verifier width height bound (r.step t).1 ((r.step t).2 ++ rest)
  compiled?_eq : ∀ j, compileKey? t ≠ some j → (r.step t).1.compiled? j = r.compiled? j

/-- Compiling only happens when nothing is on its way. -/
theorem Climbing.rising_of_compile
    (h : Climbing verifier width height bound r (.perform k .compile :: rest)) :
    Rising verifier width height bound r (.perform k .compile :: rest) := by
  cases h with
  | rising h => exact h

/-- At the end nothing is on its way. -/
theorem Climbing.rising_of_nil (h : Climbing verifier width height bound r []) :
    Rising verifier width height bound r [] := by
  cases h with
  | rising h => exact h

/-- A value goes on its way. -/
theorem Awaiting.advance (h : Awaiting verifier width height bound r₀ r k v x rest)
    (hf : Frame r r') (hcompiled : ∀ j, r'.compiled? j = r.compiled? j) :
    Awaiting verifier width height bound r₀ r' k v x rest :=
  ⟨h.toFrame.trans hf, h.rising, h.before, h.ready, h.compiled_eq, h.fresh, h.height_le,
    fun j => (hcompiled j).trans (h.compiled?_eq j)⟩

/-- In a coherent registry a value comes to a node that is ready for it. -/
theorem Coherent.climbing_delivered (h : Coherent verifier r) (hg : Graded width height r)
    (hv : r.view? k = some v) (hready : v.Ready) (hnone : v.compiled = none)
    (hd : Delivered r r' k x) :
    Climbing verifier width height (height k) r' [.tell k (.own (.compiled x) .registry)] := by
  have hrising : Rising verifier width height (height k) r [] :=
    h.rising hg (List.nodup_nil : ([] : List String).Nodup) (by simp)
  have hawaiting : Awaiting verifier width height (height k) r r' k v x [] :=
    ⟨hd.toFrame, hrising, hv, hready, hnone, List.not_mem_nil, Nat.le_refl _, hd.compiled?_eq⟩
  exact .delivered hawaiting (congrFun (view?_congr_nodes hd.nodes_eq))

variable [LawfulNode ν]

/-- A value has arrived: if others can build on it, they are told. -/
theorem Awaiting.arrived (h : Awaiting verifier width height bound r₀ r k v x rest)
    (hview : ∀ j, r.view? j = if j = k then some (v.valued verifier x) else r₀.view? j)
    {gain : List Effect} (hgain : NodeView.Gain gain) :
    Rising verifier width height bound r
      ((if (v.valued verifier x).dependable then gain.map (.perform k) else []) ++ rest) := by
  have hfits := h.rising.steady.fits k v h.before
  have hplain := hfits.dependable_eq_false h.compiled_eq
  have hfits' : (v.valued verifier x).Fits verifier :=
    ⟨rfl, rfl, fun _ => h.ready, hfits.known⟩
  exact h.rising.of_gain h.before hplain h.fresh h.height_le h.toFrame hview h.compiled?_eq rfl rfl
    rfl hfits' hgain

/-! ## Steps -/

/-- A node is told of its value. If nothing is to be verified, the value counts at once. -/
theorem Awaiting.climbs_compiled (h : Awaiting verifier width height bound r₀ r k v x rest)
    (hview : ∀ j, r.view? j = r₀.view? j) :
    Climbs verifier width height bound r (.tell k (.own (.compiled x) .registry)) rest := by
  obtain ⟨m, hm, hmv⟩ := exists_get? ((hview k).trans h.before)
  obtain ⟨r', htell, hc⟩ := tell_eq hm (LawfulNode.compiled m x)
  rw [hmv] at hc
  have hplain := (h.rising.steady.fits k v h.before).sound.verified_eq_false h.compiled_eq
  have hturns := hc.turns fun hl => by simp [NodeView.Loses, h.compiled_eq] at hl
  have hawaiting := h.advance hturns.toFrame hturns.compiled?_eq
  have hview' : ∀ j, r'.view? j = if j = k then some { v with
      compiled := some x, marked := true
      verified := v.verified || !NodeKind.verifies ν } else r₀.view? j := by
    intro j
    rw [hturns.view?_eq, hview]
  have hstep : r.step (.tell k (.own (.compiled x) .registry)) = (r', _) := htell
  refine ⟨?_, fun j _ => by rw [hstep]; exact hturns.compiled?_eq j⟩
  rw [hstep]
  cases hkind : NodeKind.verifies ν with
  | true =>
    refine .received hawaiting hkind fun j => ?_
    rw [hview', hkind, hplain]
    rfl
  | false =>
    -- Such a node has no schema to comply with, and is never switched off.
    have hresource : v.inputs.resource = none := by
      rw [← hmv]
      exact LawfulNode.resource_eq_none hkind m
    have hactive : v.inputs.active = true := by
      rw [← hmv]
      exact LawfulNode.isActive_eq_true hkind m
    have haccepts : accepts verifier v.inputs.resource x = true := by
      rw [hresource, accepts_none]
    have hdependable : (v.valued verifier x).dependable = true := by
      rw [NodeView.dependable, NodeView.valued, haccepts, hactive, Bool.and_true]
    have hgain : NodeView.Gain [.broadcast .validated false] := .told
    have hrising := hawaiting.arrived (fun j => by
      rw [hview', hkind, hplain, NodeView.valued, haccepts]
      rfl) hgain
    rw [hdependable] at hrising
    exact .rising hrising

/-- A value is verified. One that does not comply is of no use to others. -/
theorem Awaiting.climbs_validate (h : Awaiting verifier width height bound r₀ r k v x rest)
    (hkind : NodeKind.verifies ν = true)
    (hview : ∀ j, r.view? j =
      if j = k then some { v with compiled := some x, marked := true } else r₀.view? j) :
    Climbs verifier width height bound r (.perform k .validate) rest := by
  obtain ⟨m, hm, hmv⟩ := exists_get? ((hview k).trans (if_pos rfl))
  have hx : Node.compiled m = some x := congrArg NodeView.compiled hmv
  have hresource : Node.resource m = v.inputs.resource :=
    congrArg (fun w : NodeView => w.inputs.resource) hmv
  obtain ⟨r', hsilent, hvalidate⟩ := validate_eq hm hx
  rw [hresource, h.verifier_eq.trans h.rising.steady.verifier_eq] at hvalidate
  have ha := hsilent.alike
  have hawaiting := h.advance ha.toFrame ha.compiled?_eq
  have hview' : ∀ j, r'.view? j =
      if j = k then some { v with compiled := some x, marked := true } else r₀.view? j :=
    fun j => (ha.view?_eq j).trans (hview j)
  have hstep : r.step (.perform k .validate) = (r', _) := hvalidate
  refine ⟨?_, fun j _ => by rw [hstep]; exact ha.compiled?_eq j⟩
  rw [hstep]
  cases haccepts : accepts verifier v.inputs.resource x with
  | true => exact .approved hawaiting hkind hview' haccepts
  | false =>
    -- The node keeps its value, but nobody is told of it.
    have hplain := (h.rising.steady.fits k v h.before).sound.verified_eq_false h.compiled_eq
    have hdependable : (v.valued verifier x).dependable = false := by
      rw [NodeView.dependable, NodeView.valued, haccepts, Bool.and_false]
    have hgain : NodeView.Gain [.broadcast .validated false] := .told
    have hrising := hawaiting.arrived (fun j => by
      rw [hview', NodeView.valued, haccepts, ← hplain]) hgain
    rw [hdependable] at hrising
    exact .rising hrising

/-- A node is told that its value complies. -/
theorem Awaiting.climbs_validated (h : Awaiting verifier width height bound r₀ r k v x rest)
    (hkind : NodeKind.verifies ν = true)
    (hview : ∀ j, r.view? j =
      if j = k then some { v with compiled := some x, marked := true } else r₀.view? j)
    (haccepts : accepts verifier v.inputs.resource x = true) :
    Climbs verifier width height bound r (.tell k (.own .validated .registry)) rest := by
  obtain ⟨m, hm, hmv⟩ := exists_get? ((hview k).trans (if_pos rfl))
  obtain ⟨gain, hgain, hreacts⟩ := LawfulNode.validated m hkind
  obtain ⟨r', htell, hc⟩ := tell_eq hm hreacts
  have hactive : NodeKind.isActive m = v.inputs.active :=
    congrArg (fun w : NodeView => w.inputs.active) hmv
  rw [hactive] at htell
  rw [hmv] at hc
  have hturns := hc.turns fun hl => by simp [NodeView.Loses] at hl
  have hawaiting := h.advance hturns.toFrame hturns.compiled?_eq
  -- The value complies, so the node is dependable as soon as it is active.
  have hdependable : (v.valued verifier x).dependable = v.inputs.active := by
    rw [NodeView.dependable, NodeView.valued, haccepts, Bool.and_true]
  have hrising := hawaiting.arrived (fun j => by
    rw [hturns.view?_eq, hview, NodeView.valued, haccepts]
    split <;> rfl) hgain
  rw [hdependable] at hrising
  have hstep : r.step (.tell k (.own .validated .registry)) = (r', _) := htell
  refine ⟨?_, fun j _ => by rw [hstep]; exact hturns.compiled?_eq j⟩
  rw [hstep]
  cases hon : v.inputs.active <;> simp only [hon] at hrising ⊢ <;> exact .rising hrising

/-- A node is compiled on the spot, and its value is on its way. -/
theorem Rising.exists_awaiting (hmode : r.isDeferred = false)
    (h : Rising verifier width height bound r (.perform k .compile :: rest)) :
    ∃ v x r₁, r.step (.perform k .compile) = (r₁, [.tell k (.own (.compiled x) .registry)]) ∧
      Awaiting verifier width height bound r r₁ k v x rest ∧ ∀ j, r₁.view? j = r.view? j := by
  obtain ⟨v, hv, hready, hnone⟩ := h.due k List.mem_cons_self
  have hlt : height k < bound := h.allowed _ List.mem_cons_self
  -- The record of the node is up to date at this point, although a cascade is going on.
  have hdeps := h.isDependable_of_ready hv hready
  obtain ⟨hrest, hfresh⟩ := h.of_due
  obtain ⟨m, hm, rfl⟩ := exists_get? hv
  obtain ⟨r₁, hrequest, hd⟩ := requestCompile_inline hm hdeps hmode fun d hd => by
    rw [h.steady.compiled?_eq]
    exact h.steady.value?_of_isDependable (hdeps d hd)
  refine ⟨Node.view m, _, r₁, hrequest, ?_, congrFun (view?_congr_nodes hd.nodes_eq)⟩
  exact ⟨hd.toFrame, hrest, hv, hready, hnone, hfresh, Nat.le_of_lt hlt, hd.compiled?_eq⟩

/-- A node is compiled on the spot, or its job is queued. -/
theorem Rising.climbs_compile
    (h : Rising verifier width height bound r (.perform k .compile :: rest)) :
    Climbs verifier width height bound r (.perform k .compile) rest := by
  cases hmode : r.isDeferred with
  -- On the spot the value is there at once, and the node awaits word of it.
  | false =>
    obtain ⟨v, x, r₁, hstep, hawaiting, hview⟩ := h.exists_awaiting hmode
    refine ⟨?_, fun j hj => ?_⟩ <;> rw [hstep]
    · exact .delivered hawaiting hview
    · have hne : j ≠ k := fun he => hj (congrArg some he.symm)
      rw [hawaiting.compiled?_eq, if_neg hne]
  -- A queued job changes nothing that can be seen.
  | true =>
    obtain ⟨v, hv, hready, -⟩ := h.due k List.mem_cons_self
    have hdeps := h.isDependable_of_ready hv hready
    obtain ⟨m, hm, rfl⟩ := exists_get? hv
    have hstep : r.step (.perform k .compile) = _ := requestCompile_deferred hm hdeps hmode
    refine ⟨?_, fun j _ => ?_⟩ <;> rw [hstep]
    · have hqueued : Unmoved r ((r.bumpGeneration k).2.queueJob (r.nextJob k m)) :=
        ⟨⟨rfl, rfl, rfl, rfl, fun hs => ⟨hs, rfl⟩⟩, fun _ => rfl, fun _ => rfl⟩
      exact .rising (h.of_unmoved hqueued rfl rfl (by simp))
    · rfl

/-- Every step of a rising cascade leads on. -/
theorem Rising.climbs (h : Rising verifier width height bound r (t :: rest)) :
    Climbs verifier width height bound r t rest := by
  have hallowed := h.allowed t List.mem_cons_self
  -- These are the only tasks that a rising cascade has.
  match t, hallowed with
  | .tell n (.dependency d s), _ =>
    obtain ⟨w, r', -, -, -, -, htell, hturns, -, hnext⟩ := h.tell_regained
    have hstep : r.step (.tell n (.dependency d s)) = (r', _) := htell
    refine ⟨?_, fun j _ => ?_⟩ <;> rw [hstep]
    · exact .rising hnext
    · exact hturns.compiled?_eq j
  | .tell n (.own s origin), _ =>
    obtain ⟨-, r', htell, ha⟩ := h.tell_echo
    have hstep : r.step (.tell n (.own s origin)) = (r', _) := htell
    refine ⟨?_, fun j _ => ?_⟩ <;> rw [hstep]
    · exact .rising (h.of_unmoved ha.toUnmoved rfl rfl (fun _ hu => nomatch hu))
    · exact ha.compiled?_eq j
  | .perform d (.broadcast s wide), _ =>
    exact ⟨.rising h.of_broadcast,
      fun j _ => (silent_publishSignal r d s wide).alike.compiled?_eq j⟩
  | .perform n .announce, _ =>
    have ha := (silent_announce r n).alike
    exact ⟨.rising (h.of_unmoved ha.toUnmoved rfl rfl (fun _ hu => nomatch hu)),
      fun j _ => ha.compiled?_eq j⟩
  | .perform n .compile, _ => exact h.climbs_compile

theorem Climbing.climbs (h : Climbing verifier width height bound r (t :: rest)) :
    Climbs verifier width height bound r t rest := by
  cases h with
  | rising h => exact h.climbs
  | delivered h hview => exact h.climbs_compiled hview
  | received h hkind hview => exact h.climbs_validate hkind hview
  | approved h hkind hview haccepts => exact h.climbs_validated hkind hview haccepts

/-! ## Compiling -/

/-- A node may be compiled: it is registered, and its dependencies are registered and dependable
and have cached values. -/
structure Prepared (r : Registry ν) (k : String) (n : ν) : Prop where
  get?_eq : r.get? k = some n
  contains : ∀ d ∈ Node.dependencies n, r.contains d = true
  isDependable : ∀ d ∈ Node.dependencies n, r.isDependable d = true
  isCached : ∀ d ∈ Node.dependencies n, (r.compiled? d).isSome = true

/-- Whenever a node is compiled it may be, and it has no value yet. -/
theorem Rising.prepared (h : Rising verifier width height bound r (.perform k .compile :: rest)) :
    (∃ n, Prepared r k n) ∧ r.compiled? k = none := by
  obtain ⟨v, hv, hready, hnone⟩ := h.due k List.mem_cons_self
  obtain ⟨n, hn, rfl⟩ := exists_get? hv
  have hdeps : ∀ d ∈ Node.dependencies n, r.isDependable d = true :=
    h.isDependable_of_ready hv hready
  refine ⟨⟨n, hn, fun d hd => ?_, hdeps, fun d hd => ?_⟩, ?_⟩
  · obtain ⟨m, hm, -⟩ := (Option.any_eq_true _ _).1 (hdeps d hd)
    rw [Registry.contains, hm]
    rfl
  · rw [h.steady.compiled?_eq]
    exact h.steady.value?_of_isDependable (hdeps d hd)
  · rw [h.steady.compiled?_eq, value?, hv]
    exact hnone

/-- What holds throughout a rising cascade where compiling is done on the spot. -/
def ClimbsOn (verifier : Option Verifier) (width : Nat) (height : String → Nat) (bound : Nat)
    (r : Registry ν) (tasks : List Task) : Prop :=
  r.isDeferred = false ∧ Climbing verifier width height bound r tasks

omit [Node ν] [NodeKind ν] [LawfulNode ν] in
theorem eq_compile_of_compileKey? (h : compileKey? t = some k) : t = .perform k .compile := by
  unfold compileKey? at h
  split at h
  · rw [Option.some.inj h]
  · simp at h

variable [LinkedNode ν]

theorem ClimbsOn.step (h : ClimbsOn verifier width height bound r (t :: rest)) :
    ClimbsOn verifier width height bound (r.step t).1 ((r.step t).2 ++ rest) :=
  ⟨(linked_step r t).isDeferred_eq.trans h.1, h.2.climbs.climbing⟩

/-- Each node that is compiled gets its value into an empty place of the cache, and nothing else
changes the cache. -/
theorem filling_compiled? : Agenda.Filling (σ := Registry ν) step
    (ClimbsOn verifier width height bound) compiled? compileKey? where
  next _ _ _ h := h.step
  empty r t rest k h hk := by
    obtain rfl := eq_compile_of_compileKey? hk
    exact h.2.rising_of_compile.prepared.2
  filled r t rest k h hk := by
    obtain rfl := eq_compile_of_compileKey? hk
    obtain ⟨v, x, r₁, hstep, hawaiting, -⟩ := h.2.rising_of_compile.exists_awaiting h.1
    rw [hstep, hawaiting.compiled?_eq, if_pos rfl]
    rfl
  other r t rest k h hk := h.2.climbs.compiled?_eq k hk

end LayeredAccess.Registry
