/-
  LayeredAccess.Proofs.Registry.CascadePhases

  Every operation on a coherent registry falls before it rises. What it begins
  with speaks of losses alone until nothing but a rising cascade is left
  (`Ascends`). So no node is compiled while values are still being dropped,
  whatever the order in which nodes listen to each other.
-/
import LayeredAccess.Proofs.Registry.Ending
import LayeredAccess.Proofs.Registry.ValueStages

namespace LayeredAccess

/-- The call that an operation is. -/
def Operation.toCall {ν : Type} [Node ν] [NodeKind ν] : Operation ν → Call ν
  | .add definition => .add (NodeKind.ofDefinition definition)
  | .update key patch => .update key patch
  | .delete key => .delete key
  | .customize key flags => .customize key flags
  | .clearCache => .clearCache

/-- Operations enter fresh nodes. -/
theorem Operation.exists_definition {ν : Type} [Node ν] [NodeKind ν] {operation : Operation ν}
    {n : ν} (h : operation.toCall = .add n) :
    ∃ definition, NodeKind.ofDefinition definition = n := by
  cases operation with
  | add definition => exact ⟨definition, Call.add.inj h⟩
  | update | delete | customize | clearCache => simp [Operation.toCall] at h

namespace Registry

variable {ν : Type} [Node ν] [NodeKind ν] {verifier : Option Verifier} {width : Nat}
  {height : String → Nat} {bound : Nat} {r r' r₁ mid : Registry ν} {k : String} {v v' : NodeView}
  {tasks : List Task} {loss more effects : List Effect}

theorem operate_eq_call (r : Registry ν) (operation : Operation ν) :
    r.operate operation = r.call operation.toCall := by
  cases operation <;> rfl

/-- Before anything is compiled, the tasks have led to a rising cascade. -/
def Ascends (verifier : Option Verifier) (r : Registry ν) (tasks : List Task) : Prop :=
  ∃ steps ≤ r.cascadeBound tasks, ∃ mid left, Agenda.run step steps r tasks = (mid, left) ∧
    (∀ m ∈ Agenda.moments step steps r tasks, compileKey? m.2 = none) ∧
    ∃ width height bound, Rising verifier width height bound mid left

/-- Who speaks of losses compiles nothing. -/
theorem Task.IsLoss.compileKey?_eq {t : Task} (h : t.IsLoss) : compileKey? t = none := by
  unfold compileKey?
  split
  · exact h.elim
  · rfl

/-- In a coherent registry nothing has to be done. -/
theorem Coherent.rising_nil (h : Coherent verifier r) :
    ∃ width height bound, Rising verifier width height bound r [] := by
  obtain ⟨height, hg⟩ := h.wired.exists_graded
  exact ⟨_, height, 0, h.rising hg (List.nodup_nil : ([] : List String).Nodup) (by simp)⟩

/-- A cascade that rises from the beginning. -/
theorem Rising.ascends (h : Rising verifier width height bound r tasks) :
    Ascends verifier r tasks := by
  refine ⟨0, Nat.zero_le _, r, tasks, ?_, ?_, width, height, bound, h⟩
  · cases tasks <;> rfl
  · cases tasks <;> simp [Agenda.moments]

theorem Coherent.ascends_nil (h : Coherent verifier r) : Ascends verifier r [] := by
  obtain ⟨width, height, bound, hrising⟩ := h.rising_nil
  exact hrising.ascends

variable [LawfulNode ν] [CandidNode ν] [LinkedNode ν]

/-- Tasks that speak of losses and are settled in a coherent registry. -/
theorem Coherent.ascends_losses (hw : Wired r) (htasks : ∀ t ∈ tasks, t.Proper ∧ t.IsLoss)
    (h : Coherent verifier (r.settle tasks)) : Ascends verifier r tasks := by
  obtain ⟨height, hg⟩ := hw.exists_graded
  obtain ⟨r', hrun⟩ := hg.exists_settled fun t ht => (htasks t ht).1
  obtain rfl := settle_eq hrun (Nat.le_refl _)
  exact ⟨_, Nat.le_refl _, _, _, hrun,
    fun m hm => (hw.isLoss_of_mem_moments htasks hm).compileKey?_eq, h.rising_nil⟩

/-- A node is told something. It answers with losses first, and what it asks for after these have
been told everybody makes a rising cascade. -/
theorem Rising.ascends_tell {notice : Notice} (hw : Wired r)
    (htell : r.tell k notice = (r₁, (loss ++ more).map (.perform k)))
    (hloss : ∀ e ∈ loss, e.IsLoss)
    (hrun : Agenda.run step r₁.reserve r₁ (loss.map (.perform k)) = (mid, []))
    (h : Rising verifier width height bound mid (more.map (.perform k))) :
    Ascends verifier r [.tell k notice] := by
  have hstep : r.step (.tell k notice) = (r₁, (loss ++ more).map (.perform k)) := htell
  have hlinked : Linked r r₁ := by
    have hl := linked_step r (.tell k notice)
    rw [hstep] at hl
    exact hl
  have hw₁ : Wired r₁ := hw.of_frame hlinked.toFrame hlinked.links?_eq
  have hlosses : ∀ t ∈ loss.map (Task.perform k), t.Proper ∧ t.IsLoss := by
    intro t ht
    obtain ⟨e, he, rfl⟩ := List.mem_map.1 ht
    exact ⟨trivial, hloss e he⟩
  -- What waits behind the losses does not show in the moments until they have been told.
  obtain ⟨steps, hle, hwhole, hmoments⟩ :=
    Agenda.exists_moments_append_eq hrun (more.map (.perform k))
  rw [← List.map_append] at hwhole hmoments
  refine ⟨steps + 1, ?_, mid, more.map (.perform k), ?_, ?_, width, height, bound, h⟩
  · rw [hlinked.toFrame.reserve_eq hw.sorted] at hle
    rw [cascadeBound_eq, List.length_singleton, Nat.mul_add r.reserve]
    have := r.one_le_reserve
    omega
  · rw [Agenda.run_succ, hstep, List.append_nil]
    exact hwhole
  · rw [Agenda.moments_succ, hstep, List.append_nil, hmoments, List.forall_mem_cons]
    exact ⟨rfl, fun m hm => (hw₁.isLoss_of_mem_moments hlosses hm).compileKey?_eq⟩

/-- A node is told something, and what it asks for makes a rising cascade at once. -/
theorem Rising.ascends_tell_gain {notice : Notice} (hw : Wired r)
    (htell : r.tell k notice = (r₁, more.map (.perform k)))
    (h : Rising verifier width height bound r₁ (more.map (.perform k))) :
    Ascends verifier r [.tell k notice] := by
  have hnone : ∀ e ∈ ([] : List Effect), e.IsLoss := by simp
  exact h.ascends_tell hw htell hnone (Agenda.run_nil _ r₁)

/-! ## Entering and changing -/

/-- A node that has been entered is compiled if it is ready. -/
theorem Entered.ascends (he : Entered r r' k v) (h : Coherent verifier r) :
    Ascends verifier r' [.tell k (.own .added .registry)] := by
  obtain ⟨r₂, htell, hturns, hcoherent⟩ := h.tell_entered he
  have hview₂ : r₂.view? k = some { v with inputs.active := true } :=
    (hturns.view?_eq k).trans (if_pos rfl)
  have hnone : v.compiled = none := by rw [← he.fallen_eq, NodeView.fallen_compiled]
  obtain ⟨height, hg⟩ := hcoherent.wired.exists_graded
  have hrising := hcoherent.rising_compileIfReady hg hview₂ hnone
  exact hrising.ascends_tell_gain he.wired htell

/-- The dependents of a replaced node learn of the loss, and then it is compiled anew. -/
theorem Replaced.ascends (hr : Replaced r r' k v v') (h : Coherent verifier r) :
    Ascends verifier r' [.tell k (.own .updated .registry)] := by
  have hv' : r'.view? k = some v' := (hr.view?_eq k).trans (if_pos rfl)
  obtain ⟨m, hm, rfl⟩ := exists_get? hv'
  obtain ⟨loss, hloss, hreacts⟩ := LawfulNode.updated m
  obtain ⟨r₂, htell, hc⟩ := tell_eq hm hreacts
  obtain ⟨hs₂, -, -⟩ := hr.of_fallen h hc
  obtain ⟨height, hg⟩ := hs₂.wired.exists_graded
  obtain ⟨r₃, hrun, hcoherent, hg₃, hline, -⟩ := hr.exists_told h hc hg hloss
  obtain ⟨v₃, hv₃, hnone, -, htasks⟩ := exists_view?_of_outline hline
  have hrising := hcoherent.rising_compileIfReady hg₃ hv₃ hnone
  rw [htasks] at hrising
  exact hrising.ascends_tell hr.wired htell hloss.isLoss hrun

/-! ## Switching -/

/-- The dependents of a node that is switched off learn of the loss. -/
theorem Coherent.ascends_switchedOff {notice : Notice} (h : Coherent verifier r)
    (htell : r.tell k notice = (r', [.perform k (.broadcast .invalidated false)]))
    (hc : Turns r r' k { v with inputs.active := false }) (hv : r.view? k = some v) :
    Ascends verifier r [.tell k notice] := by
  obtain ⟨r'', hrun, hsound⟩ := h.sound_switchedOff hc hv
  obtain ⟨width, height, bound, hrising⟩ := hsound.coherent.rising_nil
  have hlost : v.Loss [.broadcast .invalidated false] := .told false
  have htell' : r.tell k notice =
      (r', ([Effect.broadcast .invalidated false] ++ []).map (.perform k)) := htell
  exact Rising.ascends_tell h.wired htell' hlost.isLoss hrun hrising

/-- A verified node that is switched on tells its dependents that they can build on it again. -/
theorem Coherent.ascends_resumed {notice : Notice} (h : Coherent verifier r)
    (htell : r.tell k notice = (r', effects.map (.perform k)))
    (hc : Turns r r' k { v with inputs.active := true }) (hv : r.view? k = some v)
    (hoff : v.inputs.active = false) (hverified : v.verified = true)
    (hgain : NodeView.Gain effects) : Ascends verifier r [.tell k notice] := by
  obtain ⟨height, hg⟩ := h.wired.exists_graded
  have hrising := h.rising_switchedOn hg hc hv hoff hgain
  rw [if_pos hverified] at hrising
  exact hrising.ascends_tell_gain h.wired htell

/-- A node without value that is switched on asks for what it has missed meanwhile. -/
theorem Coherent.ascends_awoken {notice : Notice} (h : Coherent verifier r)
    (htell : r.tell k notice = (r', v.compileIfReady.map (.perform k)))
    (hc : Turns r r' k { v with inputs.active := true }) (hv : r.view? k = some v)
    (hoff : v.inputs.active = false) (hnone : v.compiled = none) :
    Ascends verifier r [.tell k notice] := by
  obtain ⟨height, hg⟩ := h.wired.exists_graded
  have hview' : r'.view? k = some { v with inputs.active := true } :=
    (hc.view?_eq k).trans (if_pos rfl)
  have hrising := h.rising_switchedOn hg hc hv hoff .told
  rw [(h.fits k v hv).sound.verified_eq_false hnone] at hrising
  have hcompile := (Rising.coherent hrising).rising_compileIfReady hrising.graded hview' hnone
  exact hcompile.ascends_tell_gain h.wired htell

/-- A node is switched on or off, or left as it is. -/
theorem Coherent.ascends_switched {notice : Notice} {active : Bool} (h : Coherent verifier r)
    (htell : r.tell k notice = (r', effects.map (.perform k)))
    (hc : Turns r r' k { v with inputs.active := active }) (hv : r.view? k = some v)
    (hswitch : v.Switch active effects) : Ascends verifier r [.tell k notice] := by
  -- A node that tells nobody leaves a coherent registry with nothing to do.
  have hsilent : effects = [] → Coherent verifier r' → Ascends verifier r [.tell k notice] := by
    rintro rfl hend
    obtain ⟨width, height, bound, hrising⟩ := hend.rising_nil
    exact Rising.ascends_tell_gain h.wired htell hrising
  cases hswitch.switched with
  | stayed => exact hsilent rfl (h.sound_of_alike (hc.alike_self hv)).coherent
  | off => exact h.ascends_switchedOff htell hc hv
  | resumed hoff hverified hgain => exact h.ascends_resumed htell hc hv hoff hverified hgain
  | unverified hoff hverified =>
    exact hsilent rfl (h.sound_unverified hc hv hoff hverified).coherent
  | awoken hoff hverified hmarked =>
    exact h.ascends_awoken htell hc hv hoff ((h.fits k v hv).sound.compiled_eq_none hmarked)

/-! ## Operations -/

/-- A node that is told of flags is switched on or off, or left as it is. -/
theorem Coherent.ascends_customized {n : ν} (h : Coherent verifier r) (hn : r.get? k = some n)
    (flags : Flags) : Ascends verifier r [.tell k (.own (.customized flags) .registry)] := by
  obtain ⟨active, effects, hswitch, hreacts⟩ := LawfulNode.customized n flags
  obtain ⟨r', htell, hc⟩ := tell_eq hn hreacts
  have hturns := hc.turns fun ⟨hl, hl'⟩ => by
    simp only at hl'
    simp [hl'] at hl
  exact h.ascends_switched htell hturns (view?_of_get? hn) hswitch

/-- A node that is to be removed, and its channel, are told of it. -/
theorem Coherent.ascends_deleted {n : ν} (h : Coherent verifier r) (hn : r.get? k = some n) :
    Ascends verifier r (r.dispatch k .deleted .registry) := by
  obtain ⟨r', -, hsettle, hcoherent, -⟩ := h.exists_deleted (view?_of_get? hn)
  refine Coherent.ascends_losses h.wired (fun t ht => ⟨?_, ?_⟩) (hsettle.symm ▸ hcoherent)
  · obtain ⟨l, -, rfl⟩ := List.mem_map.1 ht
    cases l <;> trivial
  · exact isLoss_of_mem_dispatch (.inr rfl) ht

/-- Whatever an operation begins with leads to a rising cascade before anything is compiled. -/
theorem Coherent.ascends_opening (h : Coherent verifier r) (operation : Operation ν) :
    Ascends verifier (r.opening operation.toCall).1 (r.opening operation.toCall).2 := by
  have hopens := opens_opening r operation.toCall
  generalize (r.opening operation.toCall).1 = r', (r.opening operation.toCall).2 = tasks at hopens
  have hsilent : ∀ (key : String) (s : Signal), Alike r (r.publishSignal key s true) :=
    fun key s => (silent_publishSignal r key s true).alike
  generalize hcall : operation.toCall = c at hopens
  cases hopens with
  -- Nothing is left to do.
  | refused => exact (h.of_unmoved (Silent.alike ⟨_, rfl⟩).toUnmoved).ascends_nil
  | @entered n hnew hcheck =>
    obtain ⟨definition, rfl⟩ := Operation.exists_definition hcall
    exact (h.entered definition hnew hcheck).ascends h
  | @adopted key patch n hn hcheck hsame =>
    have hset := alike_setNode_patch hn hsame
    generalize r.setNode key _ = r₁ at hset ⊢
    have ha : Alike r (r₁.publishWide key .updated) := hset.trans (Silent.alike ⟨_, rfl⟩)
    exact (h.of_unmoved ha.toUnmoved).ascends_nil
  | patched hn hcheck =>
    obtain ⟨v', hr⟩ := h.replaced_patched hn hcheck
    exact hr.ascends h
  | deleted hn => exact (h.of_unmoved (hsilent _ .deleted).toUnmoved).ascends_deleted hn
  | @customized key flags n hn =>
    exact (h.of_unmoved (hsilent key (.customized flags)).toUnmoved).ascends_customized hn flags
  | cleared =>
    obtain ⟨height, hrising⟩ := h.rising_roots
    exact hrising.ascends
  | stale | failed | unmet | arrived | fetched | collected | shared =>
    cases operation <;> simp [Operation.toCall] at hcall

end Registry

/-! ## Sessions are made of calls -/

namespace Session

variable {ν : Type} [Node ν] [NodeKind ν]

/-- The call that an event is; an answer for no job is none. -/
def Event.call? (s : Session ν) : Event ν → Option (Call ν)
  | .operate operation => some operation.toCall
  | .takeOutbox => some .takeOutbox
  | .answer place result =>
    s.taken[place]?.map fun job => .apply job.id (.ofResult job.generation result)

theorem registry_step (s : Session ν) (event : Event ν) : (s.step event).registry =
    match event.call? s with
    | none => s.registry
    | some c => s.registry.call c := by
  cases event with
  | operate operation => exact Registry.operate_eq_call s.registry operation
  | takeOutbox => rfl
  | answer place result =>
    simp only [step, Event.call?]
    cases s.taken[place]? <;> rfl

theorem run_concat (s : Session ν) (events : List (Event ν)) (event : Event ν) :
    s.run (events ++ [event]) = (s.run events).step event := by
  rw [run, List.foldl_append]
  rfl

/-- In every session the tables of the registry agree. -/
theorem structured_run [LawfulNode ν] [LinkedNode ν] (config : EngineConfig)
    (verifier : Option Verifier) (events : List (Event ν)) :
    Registry.Structured ((start config verifier).run events).registry := by
  induction events using List.reverseRecOn with
  | nil => exact Registry.structured_fresh config verifier
  | append_singleton events event ih =>
    rw [run_concat, registry_step]
    cases event.call? ((start config verifier).run events) with
    | none => exact ih
    | some c => exact ih.call c

end Session

end LayeredAccess
