/-
  LayeredAccess.Proofs.Registry.Expectation

  What nodes are told in a session fits how far they have come, whenever they
  are told it (`Session.Invariant.expected`). Values only come once a cascade
  rises, and there the stages of a value follow one another; before that there
  is at most one notice that matters, with which the call begins.
-/
import LayeredAccess.Proofs.Node.Announcement
import LayeredAccess.Proofs.Registry.CascadePhases

namespace LayeredAccess

/-- Only a node that is told of a value asks for it to be verified. -/
theorem NodeView.Answers.validate_not_mem {verifies : Bool} {v v' : NodeView} {notice : Notice}
    {effects : List Effect} (h : v.Answers verifies notice effects v')
    (hnot : ∀ x, notice ≠ .own (.compiled x) .registry) : .validate ∉ effects := by
  have hcompile : ∀ w : NodeView, .validate ∉ w.compileIfReady :=
    fun _ he => Effect.noConfusion (NodeView.eq_compile_of_mem he)
  have hgain : ∀ {gain}, NodeView.Gain gain → .validate ∉ gain := by
    intro gain h
    cases h <;> simp
  have hloss : ∀ {loss}, v.Loss loss → .validate ∉ loss := by
    intro loss h
    cases h <;> simp
  -- What is compiled, gained or lost is never verified on the way.
  cases h with
  | echo | unasked | invalidated => simp
  | added => exact hcompile v
  | received | accepted => exact absurd rfl (hnot _)
  | validated hg =>
    split
    · exact hgain hg
    · simp
  | updated hl => exact List.not_mem_append (hloss hl) (hcompile v)
  | deleted hl => exact hloss hl
  | customized hswitch =>
    cases hswitch.switched with
    | stayed | off | unverified => simp
    | resumed _ _ hg => exact hgain hg
    | awoken => exact hcompile v
  | learnt hlearns =>
    cases hlearns with
    | nothing | noted => simp
    | regained => exact hcompile _
    | lost => split <;> simp

namespace Registry

variable {ν : Type} [Node ν] [NodeKind ν] {verifier : Option Verifier} {width : Nat}
  {height : String → Nat} {bound : Nat} {r : Registry ν} {k : String} {t u : Task}
  {tasks rest : List Task}

/-- If a node is told something, it expects that. -/
def Task.Expected (r : Registry ν) : Task → Prop
  | .tell k notice => ∀ v, r.view? k = some v → v.Expects notice
  | .perform _ _ => True

/-! ## Before values come -/

/-- Tasks that are expected in any case: no value is verified or said to have come or to comply,
and no node is entered or customized. -/
def Task.Routine : Task → Prop
  | .tell _ (.own signal .registry) => signal = .updated ∨ signal = .deleted
  | .perform _ effect => effect ≠ .validate
  | _ => True

theorem Task.Routine.expected (h : t.Routine) (r : Registry ν) : t.Expected r := by
  match t, h with
  | .perform _ _, _ => trivial
  | .tell _ (.dependency _ _), _ | .tell _ (.own _ (.node _)), _ => exact fun _ _ => trivial
  | .tell _ (.own .updated .registry), .inl rfl => exact fun _ _ => trivial
  | .tell _ (.own .deleted .registry), .inr rfl => exact fun _ _ => trivial

theorem Task.Routine.ne_compiled (h : t.Routine) (k : String) (x : Json) :
    t ≠ .tell k (.own (.compiled x) .registry) := by
  rintro rfl
  simp [Task.Routine] at h

theorem Task.Routine.ne_validate (h : t.Routine) (k : String) : t ≠ .perform k .validate := by
  rintro rfl
  exact h rfl

section Steps

variable [LawfulNode ν] [CandidNode ν]

/-- As long as no value is compiled, told of or verified, the tasks stay routine ones. -/
theorem Wired.routine_of_mem_step (hw : Wired r) (ht : t.Proper)
    (htold : ∀ k x, t ≠ .tell k (.own (.compiled x) .registry))
    (hverified : ∀ k, t ≠ .perform k .validate) (hcompiled : compileKey? t = none)
    (hu : u ∈ (r.step t).2) : u.Routine := by
  cases ensues_of_mem_step hu with
  | @told key notice n e hn he =>
    obtain ⟨v', hanswers, -⟩ := hw.exists_answers hn ht
    show e ≠ .validate
    rintro rfl
    exact hanswers.validate_not_mem (fun x hx => htold key x (hx ▸ rfl)) he
  | broadcast hu =>
    obtain ⟨l, -, rfl⟩ := List.mem_map.1 hu
    cases l <;> trivial
  | validated => exact absurd rfl (hverified _)
  | compiled => simp [compileKey?] at hcompiled

end Steps

/-! ## While values come -/

/-- In a rising cascade everything is expected. -/
theorem Climbing.expected (h : Climbing verifier width height bound r (t :: rest)) :
    t.Expected r := by
  cases h with
  | rising h =>
    have hallowed := h.allowed t List.mem_cons_self
    match t, hallowed with
    | .perform _ _, _ => trivial
    | .tell _ (.dependency _ _), _ => exact fun _ _ => trivial
    | .tell k (.own s origin), hallowed =>
      obtain ⟨rfl, -⟩ := hallowed
      exact fun _ _ => trivial
  | received => trivial
  | delivered => exact fun _ _ => trivial
  | approved h hkind hview =>
    intro w hw
    rw [hview, if_pos rfl] at hw
    obtain rfl := Option.some.inj hw
    have hplain := (h.rising.steady.fits _ _ h.before).sound.verified_eq_false h.compiled_eq
    exact ⟨hplain, rfl⟩

variable [LawfulNode ν]

theorem Climbing.expected_moments (h : Climbing verifier width height bound r tasks) (steps : Nat) :
    ∀ m ∈ Agenda.moments step steps r tasks, m.2.Expected m.1 := by
  intro m hm
  have hstep : ∀ (s : Registry ν) t rest, Climbing verifier width height bound s (t :: rest) →
      Climbing verifier width height bound (s.step t).1 ((s.step t).2 ++ rest) :=
    fun s t rest hs => hs.climbs.climbing
  obtain ⟨rest, hnow⟩ := Agenda.forall_mem_moments hstep h m hm
  exact hnow.expected

variable [CandidNode ν] [LinkedNode ν]

/-! ## Calls -/

/-- What a call begins with: routine tasks, or a single notice that is expected and brings no
value. -/
inductive Begins (r : Registry ν) : List Task → Prop
  | routine {tasks : List Task} (hroutine : ∀ u ∈ tasks, u.Routine) : Begins r tasks
  | notice {k : String} {s : Signal} (hnot : ∀ x, s ≠ .compiled x)
    (hexpected : (Task.tell k (.own s .registry)).Expected r) :
    Begins r [.tell k (.own s .registry)]

omit [LawfulNode ν] [CandidNode ν] [LinkedNode ν] in
theorem Begins.expected (h : Begins r (t :: rest)) : t.Expected r := by
  cases h with
  | routine hroutine => exact (hroutine t List.mem_cons_self).expected r
  | notice _ hexpected => exact hexpected

/-- A call that falls before it rises: everything is expected. -/
theorem Ascends.expected (h : Ascends verifier r tasks) (hw : Wired r)
    (hproper : ∀ u ∈ tasks, u.Proper) (hbegins : Begins r tasks) :
    ∀ m ∈ Agenda.moments step (r.cascadeBound tasks) r tasks, m.2.Expected m.1 := by
  obtain ⟨steps, hle, mid, left, hrun, hnone, width, height, bound, hrising⟩ := h
  obtain ⟨later, hbound⟩ := Nat.exists_eq_add_of_le hle
  rw [hbound, Agenda.moments_add, hrun]
  refine List.forall_mem_append.2 ⟨?_, (Climbing.rising hrising).expected_moments later⟩
  -- Up to the first compilation the tasks stay routine. After that the cascade rises.
  let P : Registry ν → List Task → Prop := fun s ts =>
    Wired s ∧ (∀ u ∈ ts, u.Proper) ∧ Begins s ts
  have hstep : ∀ (s : Registry ν) t rest, compileKey? t = none → P s (t :: rest) →
      P (s.step t).1 ((s.step t).2 ++ rest) := by
    rintro s t rest hcompiled ⟨hws, hproper, hbegins⟩
    obtain ⟨ht, hrest⟩ := List.forall_mem_cons.1 hproper
    have hl := linked_step s t
    refine ⟨hws.of_frame hl.toFrame hl.links?_eq, ?_, .routine ?_⟩
    · exact List.forall_mem_append.2 ⟨fun u hu => hws.proper_of_mem_step hu, hrest⟩
    · cases hbegins with
      | routine hroutine =>
        obtain ⟨hthis, hothers⟩ := List.forall_mem_cons.1 hroutine
        refine List.forall_mem_append.2 ⟨fun u hu => ?_, hothers⟩
        exact hws.routine_of_mem_step ht hthis.ne_compiled hthis.ne_validate hcompiled hu
      | notice hnot =>
        rw [List.append_nil]
        refine fun u hu => hws.routine_of_mem_step ht (fun k x he => ?_) (by simp) hcompiled hu
        exact hnot x (Notice.own.inj (Task.tell.inj he).2).1
  intro m hm
  obtain ⟨rest, -, -, hnow⟩ :=
    Agenda.forall_mem_moments_of (C := fun m => compileKey? m.2 = none) hstep
      (show P r tasks from ⟨hw, hproper, hbegins⟩) hnone m hm
  exact hnow.expected

omit [LawfulNode ν] [CandidNode ν] [LinkedNode ν] in
/-- A single task in a registry with one node in view. -/
theorem expected_tell {notice : Notice} {v : NodeView} (hv : r.view? k = some v)
    (h : v.Expects notice) : (Task.tell k notice).Expected r := by
  intro w hw
  rw [hv] at hw
  exact Option.some.inj hw ▸ h

/-- During an operation nodes are told what they expect. -/
theorem Coherent.expected_operation (h : Coherent verifier r) (operation : Operation ν) :
    ∀ m ∈ r.course operation.toCall, m.2.Expected m.1 := by
  have hopens := opens_opening r operation.toCall
  have hascends := h.ascends_opening operation
  have hproper := hopens.proper
  show ∀ m ∈ Agenda.moments step ((r.opening operation.toCall).1.cascadeBound
    (r.opening operation.toCall).2) (r.opening operation.toCall).1 (r.opening operation.toCall).2,
    m.2.Expected m.1
  generalize (r.opening operation.toCall).1 = r', (r.opening operation.toCall).2 = tasks
    at hopens hascends hproper ⊢
  have hsilent : ∀ (key : String) (s : Signal), Alike r (r.publishSignal key s true) :=
    fun key s => (silent_publishSignal r key s true).alike
  generalize hcall : operation.toCall = c at hopens
  -- Each opening begins with a cascade that is routine, or with a single notice that is expected.
  cases hopens with
  | refused | adopted | stale | failed | unmet | fetched | collected | shared => simp
  | @entered n hnew hcheck =>
    obtain ⟨definition, rfl⟩ := Operation.exists_definition hcall
    have he := h.entered definition hnew hcheck
    have hplain := congrArg NodeView.verified he.fallen_eq
    rw [NodeView.fallen_verified] at hplain
    have hexpected : (Task.tell _ (.own .added .registry)).Expected _ :=
      expected_tell ((he.view?_eq _).trans (if_pos rfl)) hplain.symm
    exact hascends.expected he.wired hproper (.notice (by simp) hexpected)
  | patched hn hcheck =>
    obtain ⟨v', hr⟩ := h.replaced_patched hn hcheck
    exact hascends.expected hr.wired hproper (.routine fun u hu => by
      obtain rfl := List.mem_singleton.1 hu
      exact .inl rfl)
  | @deleted key n hn =>
    have hw := (h.of_unmoved (hsilent key .deleted).toUnmoved).wired
    refine hascends.expected hw hproper (.routine fun u hu => ?_)
    obtain ⟨l, -, rfl⟩ := List.mem_map.1 hu
    cases l with
    | owner => exact .inr rfl
    | dependent => trivial
  | @customized key flags n hn =>
    have hcoherent := h.of_unmoved (hsilent key (.customized flags)).toUnmoved
    have hv : (r.publishSignal key (.customized flags) true).view? key = some (Node.view n) :=
      ((hsilent key (.customized flags)).view?_eq key).trans (view?_of_get? hn)
    have hheld := (hcoherent.fits key _ hv).sound.compiled_of_verified
    exact hascends.expected hcoherent.wired hproper (.notice (by simp) (expected_tell hv hheld))
  | cleared =>
    obtain ⟨height, hrising⟩ := h.rising_roots
    exact (Climbing.rising hrising).expected_moments _
  | arrived => cases operation <;> simp [Operation.toCall] at hcall

omit [CandidNode ν] [LinkedNode ν] in
/-- When a value is brought that was compiled elsewhere, nodes are told what they expect. -/
theorem Coherent.expected_apply (h : Coherent verifier r) {outcome : CompileOutcome}
    (hfree : KeyMap.find? r.generations k = some outcome.generation → r.value? k = none) :
    ∀ m ∈ r.course (.apply k outcome), m.2.Expected m.1 := by
  have hopens := opens_opening r (.apply k outcome)
  show ∀ m ∈ Agenda.moments step ((r.opening (.apply k outcome)).1.cascadeBound
    (r.opening (.apply k outcome)).2) (r.opening (.apply k outcome)).1
    (r.opening (.apply k outcome)).2, m.2.Expected m.1
  generalize (r.opening (.apply k outcome)).1 = r', (r.opening (.apply k outcome)).2 = tasks
    at hopens ⊢
  cases hopens with
  | refused | stale | failed | unmet => simp
  | @arrived _ generation value hcurrent hmet =>
    obtain ⟨height, hg⟩ := h.wired.exists_graded
    obtain ⟨v, hv, hready⟩ := (h.any_isDependable_iff k).1 hmet
    have hnone : v.compiled = none := by
      have hvalue := hfree hcurrent
      rw [value?, hv] at hvalue
      exact hvalue
    exact (h.climbing_delivered hg hv hready hnone (delivered_publish r k value)).expected_moments _

end Registry

/-- In a session nodes are told what they expect. -/
theorem Session.Invariant.expected {ν : Type} [Node ν] [NodeKind ν] [LawfulNode ν] [CandidNode ν]
    [LinkedNode ν] {verifier : Option Verifier} {s : Session ν} (h : s.Invariant verifier)
    {event : Event ν} {c : Call ν} (hc : event.call? s = some c) :
    ∀ m ∈ s.registry.course c, m.2.Expected m.1 := by
  cases event with
  | operate operation =>
    obtain rfl := Option.some.inj hc
    exact h.coherent.expected_operation operation
  | takeOutbox =>
    obtain rfl := Option.some.inj hc
    simp [Registry.course, Registry.opening]
  | answer place result =>
    obtain ⟨job, hjob, rfl⟩ := Option.map_eq_some_iff.1 hc
    refine h.coherent.expected_apply fun hcurrent => ?_
    rw [CompileOutcome.generation_ofResult] at hcurrent
    exact h.value?_eq_none (List.mem_of_getElem? hjob) hcurrent

end LayeredAccess
