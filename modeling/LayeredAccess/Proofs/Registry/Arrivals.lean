/-
  LayeredAccess.Proofs.Registry.Arrivals

  Results as they come in, each with the registry to which it comes, and what
  is told of them.

  A result that is taken in leads to one notice of how compiling has ended, and
  no other follows from it: where compiling is left to others, a cascade of values
  only queues jobs (`Climbing.compileNotices_settle`). Of the results of jobs that
  were taken together those are taken in that were waited for then, whatever comes
  in before them (`Receiving.applyAll`).
-/
import LayeredAccess.Proofs.Registry.Batch
import LayeredAccess.Proofs.Registry.LossOrder

namespace LayeredAccess

namespace Registry

variable {ν : Type} [Node ν]

/-! ## What is told of compiling -/

/-- Does an action tell how compiling a node has ended? -/
def isCompileNotice (ν : Type) [Node ν] (a : Action) : Bool :=
  a.kind == actionKind ν "Compile Ok" || a.kind == actionKind ν "Compile Error"

/-- The actions that tell how compiling has ended, oldest first. -/
def compileNotices (r : Registry ν) : List Action := r.published.filter (isCompileNotice ν)

/-- What is told of a result that is taken in. -/
def compileNotice (ν : Type) [Node ν] (key : String) : CompileOutcome → Action
  | .compiled _ value =>
    { kind := actionKind ν "Compile Ok", id := some key, payload := some value }
  | .failed _ missing =>
    { kind := actionKind ν "Compile Error"
      payload := some (errorPayload key (.missingDependency key missing)) }

theorem isCompileNotice_lifecycle (label : String) (id : Option String) (payload : Option Json) :
    isCompileNotice ν { kind := actionKind ν label, id, payload } =
      decide (label = "Compile Ok" ∨ label = "Compile Error") := by
  rw [isCompileNotice, Bool.eq_iff_iff, Bool.or_eq_true, beq_iff_eq, beq_iff_eq, actionKind_inj,
    actionKind_inj, decide_eq_true_eq]

variable {r r' : Registry ν}

theorem compileNotices_publish (r : Registry ν) (a : Action) :
    (r.publish a).compileNotices =
      r.compileNotices ++ if isCompileNotice ν a then [a] else [] := by
  show (r.published ++ [a]).filter (isCompileNotice ν) = _
  rw [List.filter_append, compileNotices, List.filter_singleton]
  cases isCompileNotice ν a <;> rfl

/-- Other labels tell nothing of compiling. -/
theorem compileNotices_publish_of_ne (r : Registry ν) {label : String} (hok : label ≠ "Compile Ok")
    (herror : label ≠ "Compile Error") (id : Option String) (payload : Option Json) :
    (r.publish { kind := actionKind ν label, id, payload }).compileNotices = r.compileNotices := by
  simp [compileNotices_publish, isCompileNotice_lifecycle, hok, herror]

theorem compileNotices_publishSignal_of_ne (r : Registry ν) (key : String) {s : Signal}
    (wide : Bool) (hok : s.label ≠ "Compile Ok") (herror : s.label ≠ "Compile Error") :
    (r.publishSignal key s wide).compileNotices = r.compileNotices := by
  unfold publishSignal
  split
  · exact (compileNotices_publish_of_ne _ hok herror _ _).trans
      (compileNotices_publish_of_ne r hok herror _ _)
  · exact compileNotices_publish_of_ne r hok herror _ _

section Telling

variable [NodeKind ν] [LawfulNode ν] {verifier : Option Verifier} {width : Nat}
  {height : String → Nat} {bound : Nat} {t : Task} {tasks rest : List Task}

/-- While values come that are compiled elsewhere nothing else is told of compiling: requests can
be met, and wait. -/
theorem Climbing.compileNotices_step (h : Climbing verifier width height bound r (t :: rest))
    (hmode : r.isDeferred = true) : (r.step t).1.compileNotices = r.compileNotices := by
  have hstep := steps_step r t
  generalize (r.step t).1 = r₁, (r.step t).2 = more at hstep ⊢
  cases hstep with
  | absent | valueless | validated | unregistered | queued => rfl
  | told => rw [Registry.compileNotices, published_reshape, Registry.compileNotices]
  | broadcast =>
    obtain ⟨rfl, -⟩ : RisingTask height bound r (.perform _ (.broadcast _ _)) := by
      cases h with
      | rising h => exact h.allowed _ List.mem_cons_self
    exact compileNotices_publishSignal_of_ne r _ _ (by decide) (by decide)
  | announced =>
    have hother : ∀ label : String, label.toList ≠ [] → label.toList.getLast? ≠ some 'w' →
        (Action.directoryPublish == actionKind ν label) = false :=
      fun label hlabel hlast => beq_eq_false_iff_ne.2 (directoryPublish_ne_actionKind hlabel hlast)
    rw [compileNotices_publish, isCompileNotice, hother _ (by decide) (by decide),
      hother _ (by decide) (by decide), Bool.or_false, if_neg Bool.false_ne_true, List.append_nil]
  | rejected => exact compileNotices_publish_of_ne r (by decide) (by decide) _ _
  -- A node is only asked for once all of its dependencies hold their values.
  | @lacking key n hn hmissing =>
    obtain ⟨m, hprepared⟩ := h.rising_of_compile.prepared.1
    obtain rfl := Option.some.inj (hn.symm.trans hprepared.get?_eq)
    refine absurd (List.filter_eq_nil_iff.2 fun d hd => ?_) hmissing
    simp [hprepared.isDependable d hd]
  | uncached _ _ hinline | compiled _ _ hinline => simp [isDeferred, hinline] at hmode

variable [LinkedNode ν]

theorem Climbing.compileNotices_settle (h : Climbing verifier width height bound r tasks)
    (hmode : r.isDeferred = true) : (r.settle tasks).compileNotices = r.compileNotices := by
  let P : Registry ν → List Task → Prop := fun s ts =>
    Climbing verifier width height bound s ts ∧ s.isDeferred = true ∧
      s.compileNotices = r.compileNotices
  have hstep : ∀ s t rest, P s (t :: rest) → P (s.step t).1 ((s.step t).2 ++ rest) := by
    rintro s t rest ⟨hclimbing, hdeferred, hnotices⟩
    exact ⟨hclimbing.climbs.climbing, (linked_step s t).isDeferred_eq.trans hdeferred,
      (hclimbing.compileNotices_step hdeferred).trans hnotices⟩
  exact (Agenda.run_preserves hstep (r.cascadeBound tasks) r tasks ⟨h, hmode, rfl⟩).2.2

/-- A value that is taken in is told once, whatever follows from it. -/
theorem Coherent.compileNotices_arrival (h : Coherent verifier r) (hg : Graded width height r)
    (hmode : r.isDeferred = true) {key : String} {generation : Nat} (value : Json)
    (hnone : r.value? key = none) (hawaits : r.awaits key generation = true) :
    (r.applyOutcome key (.compiled generation value)).compileNotices =
      r.compileNotices ++ [compileNotice ν key (.compiled generation value)] := by
  obtain ⟨hcurrent, hmet⟩ : KeyMap.find? r.generations key = some generation ∧
      (r.get? key).any (fun n => (Node.dependencies n).all r.isDependable) = true := by
    rwa [awaits, Bool.and_eq_true, decide_eq_true_eq] at hawaits
  obtain ⟨v, hv, hready⟩ := (h.any_isDependable_iff key).1 hmet
  rw [value?, hv] at hnone
  have hd := delivered_publish r key value
  have hclimbing := h.climbing_delivered hg hv hready hnone hd
  have happly : r.applyOutcome key (.compiled generation value) = Registry.settle _ _ :=
    (if_pos hcurrent).trans (if_pos hmet)
  rw [happly]
  refine (hclimbing.compileNotices_settle (hd.isDeferred_eq.trans hmode)).trans ?_
  refine (compileNotices_publish _ _).trans ?_
  rw [isCompileNotice_lifecycle]
  rfl

/-- A result that is taken in is told once, and one that is dropped is not. -/
theorem Coherent.compileNotices_applyOutcome (h : Coherent verifier r)
    (hg : Graded width height r) (hmode : r.isDeferred = true) {key : String}
    {outcome : CompileOutcome}
    (hfree : KeyMap.find? r.generations key = some outcome.generation → r.value? key = none) :
    (r.applyOutcome key outcome).compileNotices =
      r.compileNotices ++ if r.takes key outcome then [compileNotice ν key outcome] else [] := by
  by_cases hcurrent : KeyMap.find? r.generations key = some outcome.generation
  -- The job is the last one for its node.
  · cases outcome with
    | failed generation missing =>
      have happly : r.applyOutcome key (.failed generation missing) =
          (r.bumpGeneration key).2.publishError "Compile Error" key
            (.missingDependency key missing) := if_pos hcurrent
      have htakes : r.takes key (.failed generation missing) = true := decide_eq_true hcurrent
      rw [happly, if_pos htakes]
      refine (compileNotices_publish _ _).trans ?_
      rw [isCompileNotice_lifecycle]
      rfl
    | compiled generation value =>
      cases htakes : r.takes key (.compiled generation value) with
      | true => exact h.compileNotices_arrival hg hmode value (hfree hcurrent) htakes
      -- The node is not ready, and the value is dropped in silence.
      | false =>
        have hunmet : ¬ (r.get? key).any fun n => (Node.dependencies n).all r.isDependable := by
          intro hmet
          rw [takes, awaits, hmet, Bool.and_true, decide_eq_false_iff_not] at htakes
          exact htakes hcurrent
        have happly : r.applyOutcome key (.compiled generation value) = (r.bumpGeneration key).2 :=
          (if_pos hcurrent).trans (if_neg hunmet)
        rw [happly, if_neg Bool.false_ne_true, List.append_nil]
        rfl
  · have happly : r.applyOutcome key outcome = r := if_neg hcurrent
    rw [happly, takes_eq_false_of_stale hcurrent, if_neg Bool.false_ne_true, List.append_nil]

end Telling

/-! ## Results that come in -/

/-- A result that comes in, with the registry to which it comes. -/
structure Arrival (ν : Type) where
  registry : Registry ν
  key : String
  outcome : CompileOutcome

namespace Arrival

/-- The generation of the job that it answers. -/
def generation (a : Arrival ν) : Nat := a.outcome.generation

/-- Is it taken in? -/
def taken (a : Arrival ν) : Bool := a.registry.takes a.key a.outcome

/-- What is told of it if it is taken in. -/
def notice (a : Arrival ν) : Action := compileNotice ν a.key a.outcome

end Arrival

/-- The results of some jobs as they come in, one after the other, up to the first failure. -/
def arriving (r : Registry ν) :
    List (String × Except EngineError CompileOutcome) → List (Arrival ν)
  | (key, .ok outcome) :: rest =>
    { registry := r, key, outcome } :: arriving (r.applyOutcome key outcome) rest
  | (_, .error _) :: _ | [] => []

section Drives

variable {σ : Type}

/-- The results that come in during a round. -/
def roundArrivals (remote : RemoteCompiler σ) (r : Registry ν) (s : σ) : List (Arrival ν) :=
  let (commands, r) := r.takeOutbox
  match remote.sendAll s (commands.filter fun c => (job? c).isNone) with
  | (.error _, _) => []
  | (.ok (), s) => r.arriving (remote.compileAll s (commands.filterMap job?)).1

/-- The results that come in during a number of rounds. -/
def roundsArrivals (remote : RemoteCompiler σ) : Nat → Registry ν → σ → List (Arrival ν)
  | 0, _, _ => []
  | bound + 1, r, s =>
    if r.outbox.isEmpty then []
    else
      roundArrivals remote r s ++
        match driveRound remote r s 0 with
        | (.ok _, r, s) => roundsArrivals remote bound r s
        | (.error _, _, _) => []

/-- The results that come in during a drive, in order. -/
def arrivals (remote : RemoteCompiler σ) (r : Registry ν) (s : σ) : List (Arrival ν) :=
  roundsArrivals remote (r.size + 2) r s

end Drives

/-- The answers come in as they are. -/
theorem map_arriving (answers : List (String × CompileOutcome)) : ∀ r : Registry ν,
    (r.arriving (answers.map fun a => (a.1, .ok a.2))).map (fun a => (a.key, a.outcome)) =
      answers := by
  induction answers with
  | nil => exact fun _ => rfl
  | cons a rest ih => exact fun r => congrArg (a :: ·) (ih (r.applyOutcome a.1 a.2))

/-- Some results have come in, whose jobs were taken from a registry together. -/
structure Received (r : Registry ν) (arrivals : List (Arrival ν)) (r' : Registry ν) : Prop where
  /-- Of those that have been taken in, and of nothing else, it has been told. -/
  notices_eq : r'.compileNotices =
    r.compileNotices ++ (arrivals.filter Arrival.taken).map Arrival.notice
  /-- Those that were waited for have been taken in, -/
  taken_of_awaits : ∀ a ∈ arrivals, r.awaits a.key a.generation = true → a.taken = true
  /-- and of those that bring values no others. -/
  awaits_of_taken : ∀ a ∈ arrivals, ∀ x, a.outcome = .compiled a.generation x → a.taken = true →
    r.awaits a.key a.generation = true

theorem received_nil (r : Registry ν) : Received r [] r :=
  ⟨by simp, by simp, by simp⟩

/-- One more result has come in first, which decides nothing about the others. -/
theorem Received.cons {key : String} {outcome : CompileOutcome} {arrivals : List (Arrival ν)}
    (h : Received (r.applyOutcome key outcome) arrivals r')
    (hnotices : (r.applyOutcome key outcome).compileNotices =
      r.compileNotices ++ if r.takes key outcome then [compileNotice ν key outcome] else [])
    (hawaits : ∀ a ∈ arrivals,
      (r.applyOutcome key outcome).awaits a.key a.generation = r.awaits a.key a.generation) :
    Received r ({ registry := r, key, outcome } :: arrivals) r' := by
  refine ⟨?_, List.forall_mem_cons.2 ⟨takes_of_awaits, fun a ha hwaits => ?_⟩,
    List.forall_mem_cons.2 ⟨fun x hx htaken => ?_, fun a ha x hx htaken => ?_⟩⟩
  · rw [h.notices_eq, hnotices, List.filter_cons, List.append_assoc]
    show _ = _ ++ List.map _ (if r.takes key outcome = true then _ else _)
    split <;> rfl
  · exact h.taken_of_awaits a ha ((hawaits a ha).trans hwaits)
  · have hvalue : r.takes key outcome = r.awaits key outcome.generation := by
      rw [show outcome = .compiled outcome.generation x from hx]
      rfl
    exact hvalue.symm.trans htaken
  · exact (hawaits a ha).symm.trans (h.awaits_of_taken a ha x hx htaken)

section Receiving

variable [NodeKind ν] [LawfulNode ν] [LinkedNode ν] {verifier : Option Verifier} {width : Nat}
  {height : String → Nat} {bound : Nat} {given : List CompileJob}

/-- Answers to jobs of different nodes come in one after the other. -/
theorem Receiving.applyAll {answers : List (String × CompileOutcome)}
    (hgiven : ∀ a ∈ answers, ∃ job ∈ given, job.id = a.1 ∧ job.generation = a.2.generation)
    (hbound : ∀ a ∈ answers, height a.1 ≤ bound) (hnodup : (answers.map (·.1)).Nodup) :
    ∀ {r : Registry ν}, Receiving verifier width height bound given r →
      let outcomes := answers.map fun a => (a.1, .ok a.2)
      ∃ r', (∀ count, r.applyAll count outcomes = (.ok (count + answers.length), r')) ∧
        Receiving verifier width height bound given r' ∧ Received r (r.arriving outcomes) r' := by
  induction answers with
  | nil => exact fun {r} h => ⟨r, fun _ => rfl, h, received_nil r⟩
  | cons first rest ih =>
    intro r h outcomes
    obtain ⟨hfirst, hothers⟩ := List.forall_mem_cons.1 hgiven
    obtain ⟨hle, hlow⟩ := List.forall_mem_cons.1 hbound
    rw [List.map_cons, List.nodup_cons] at hnodup
    obtain ⟨hnext, hsame⟩ := h.applyOutcome hfirst hle
    obtain ⟨r', happly, hend, hreceived⟩ := ih hothers hlow hnodup.2 hnext
    have hfree : KeyMap.find? r.generations first.1 = some first.2.generation →
        r.value? first.1 = none := by
      intro hcurrent
      rw [← value?_outlook []]
      exact h.pumped.value?_eq_none hfirst hcurrent
    refine ⟨r', fun count => ?_, hend, hreceived.cons
      (h.coherent.compileNotices_applyOutcome h.graded h.pumped.deferred_eq hfree)
      fun a ha => ?_⟩
    · rw [List.length_cons, Nat.add_comm rest.length, ← Nat.add_assoc]
      exact happly (count + 1)
    -- What comes in later is waited for as before, since it is of other nodes.
    · have hin : (a.key, a.outcome) ∈ rest := by
        rw [← map_arriving rest (r.applyOutcome first.1 first.2)]
        exact List.mem_map_of_mem ha
      obtain ⟨job, hjob, hid, hgeneration⟩ := hothers _ hin
      refine hsame _ _ (fun he => hnodup.1 ?_) ?_
      · rw [← he]
        exact List.mem_map_of_mem hin
      · exact h.pumped.le_generation _ _ ⟨job, .inl hjob, hid, hgeneration⟩

end Receiving

end Registry

end LayeredAccess
