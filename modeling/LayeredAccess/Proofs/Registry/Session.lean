/-
  LayeredAccess.Proofs.Registry.Session

  A registry whose jobs are compiled elsewhere, by a compiler that may answer
  anything at any time: each answer counts for a job that has been taken from
  the outbox, but nothing is known of the value that it brings, and a job may
  be answered late, repeatedly or never. Drives are part of a session, wherever
  they fail (`exists_run_drive`).

  Even so no value is ever taken in by a node that holds one, since jobs stay
  answerable; so the flags of the nodes never speak of a value that is not the
  present one.
-/
import LayeredAccess.Proofs.Node.Entitlement
import LayeredAccess.Proofs.Node.Profile
import LayeredAccess.Proofs.Registry.Jobs
import LayeredAccess.Proofs.Registry.Operation
import LayeredAccess.Proofs.Registry.Outcome

namespace LayeredAccess

/-! ## Sessions -/

/-- A registry with the jobs that have been taken from its outbox. -/
structure Session (ν : Type) [Node ν] where
  registry : Registry ν
  taken : List CompileJob := []

namespace Session

variable {ν : Type} [Node ν] [NodeKind ν]

/-- Something that happens in a session. -/
inductive Event (ν : Type) [Node ν] [NodeKind ν] where
  | operate (operation : Operation ν)
  | takeOutbox
  /-- One of the jobs that have been taken, given by its place, ends in some way. -/
  | answer (place : Nat) (result : Except (List String) Json)

def step (s : Session ν) : Event ν → Session ν
  | .operate operation => { s with registry := s.registry.operate operation }
  | .takeOutbox =>
    let (commands, registry) := s.registry.takeOutbox
    { registry, taken := s.taken ++ commands.filterMap Registry.job? }
  | .answer place result =>
    match s.taken[place]? with
    | none => s
    | some job =>
      { s with registry := s.registry.applyOutcome job.id (.ofResult job.generation result) }

def run (s : Session ν) (events : List (Event ν)) : Session ν := events.foldl step s

/-- The session before anything has happened. -/
def start (config : EngineConfig) (verifier : Option Verifier) : Session ν where
  registry := .fresh config verifier

end Session

/-! ## What every session keeps -/

namespace Session

variable {ν : Type} [Node ν] [NodeKind ν] {verifier : Option Verifier} {s : Session ν}

/-- What holds at every point of a session. -/
structure Invariant (verifier : Option Verifier) (s : Session ν) : Prop where
  coherent : Registry.Coherent verifier s.registry
  answerable : (s.registry.outlook []).Answerable s.taken

theorem invariant_start (config : EngineConfig) (verifier : Option Verifier) :
    Invariant verifier (start config verifier : Session ν) := by
  refine ⟨Registry.coherent_fresh config verifier, ?_⟩
  have hnone : ∀ k g,
      ¬ ((start config verifier : Session ν).registry.outlook []).Issued [] k g := by
    rintro k g ⟨job, hjob, -⟩
    rcases hjob with hjob | hjob
    · simp at hjob
    · exact absurd hjob (List.not_mem_nil)
  exact ⟨fun k g hi => absurd hi (hnone k g), fun k g hi => absurd hi (hnone k g)⟩

theorem Invariant.takeOutbox (h : Invariant verifier s) :
    Invariant verifier (s.step .takeOutbox) :=
  ⟨h.coherent.takeOutbox, h.answerable.takeOutbox⟩

variable [LawfulNode ν]

omit [LawfulNode ν] in
/-- While the last job of a node is out, the node holds no value. -/
theorem Invariant.value?_eq_none (h : Invariant verifier s) {job : CompileJob}
    (hjob : job ∈ s.taken)
    (hcurrent : KeyMap.find? s.registry.generations job.id = some job.generation) :
    s.registry.value? job.id = none := by
  rw [← Registry.value?_outlook []]
  exact h.answerable.value?_eq_none ⟨job, hjob, rfl, rfl⟩ hcurrent

/-- An answer counts for a job that has been given away, whatever it brings. -/
theorem Invariant.answer (h : Invariant verifier s) {job : CompileJob} (hjob : job ∈ s.taken)
    (result : Except (List String) Json) :
    Invariant verifier
      { s with registry := s.registry.applyOutcome job.id (.ofResult job.generation result) } := by
  obtain ⟨height, hg⟩ := h.coherent.wired.exists_graded
  have hfree : KeyMap.find? s.registry.generations job.id =
      some (CompileOutcome.ofResult job.generation result).generation →
      s.registry.value? job.id = none := by
    intro hcurrent
    rw [CompileOutcome.generation_ofResult] at hcurrent
    exact h.value?_eq_none hjob hcurrent
  obtain ⟨hcoherent, -, hanswerable⟩ := h.coherent.applyOutcome_kept hg hfree h.answerable
    (fun o o' ha ho => Outlook.kept_answerable s.taken o o' (.advance ha) ho)
    (fun _ => h.answerable.supersede job.id) fun _ => h.answerable.arrive job.id
  exact ⟨hcoherent, hanswerable⟩

theorem Invariant.step (h : Invariant verifier s) (event : Event ν) :
    Invariant verifier (s.step event) := by
  cases event with
  | operate operation =>
    have hsound := h.coherent.sound_operate operation
    exact ⟨hsound.coherent, hsound.evolves _ (Outlook.kept_answerable s.taken) h.answerable⟩
  | takeOutbox => exact h.takeOutbox
  | answer place result =>
    show Invariant verifier (match s.taken[place]? with
      | none => s
      | some job => { s with
        registry := s.registry.applyOutcome job.id (.ofResult job.generation result) })
    split
    · exact h
    · next job hjob => exact h.answer (List.mem_of_getElem? hjob) result

theorem Invariant.run (h : Invariant verifier s) (events : List (Event ν)) :
    Invariant verifier (s.run events) := by
  induction events generalizing s with
  | nil => exact h
  | cons event rest ih => exact ih (h.step event)

end Session

/-! ## Drives -/

namespace Session

variable {ν : Type} [Node ν] [NodeKind ν] {σ : Type} {remote : RemoteCompiler σ}

/-- What comes in of jobs that have been taken, up to the first failure, is answered in a
session. -/
theorem exists_run_applyAll
    (hremote : ∀ c job outcome, (remote.compile c job).1 = .ok outcome →
      outcome.generation = job.generation) (jobs : List CompileJob) :
    ∀ (s : Session ν) (c : σ) (count : Nat), (∀ job ∈ jobs, job ∈ s.taken) →
      ∃ events, (s.run events).registry =
        (s.registry.applyAll count (remote.compileAll c jobs).1).2 := by
  -- Each outcome is an answer of the session to the job in the place where it was taken.
  induction jobs with
  | nil => exact fun s _ _ _ => ⟨[], rfl⟩
  | cons job rest ih =>
    intro s c count htaken
    obtain ⟨hfirst, hothers⟩ := List.forall_mem_cons.1 htaken
    have hgeneration := hremote c job
    rw [RemoteCompiler.compileAll]
    generalize remote.compile c job = compiled at hgeneration
    obtain ⟨e | outcome, c₁⟩ := compiled
    · exact ⟨[], rfl⟩
    · obtain ⟨place, hplace⟩ := List.mem_iff_getElem?.1 hfirst
      obtain ⟨result, hresult⟩ : ∃ result, outcome = .ofResult job.generation result := by
        have hg := hgeneration outcome rfl
        cases outcome with
        | compiled g x => exact ⟨.ok x, congrArg (CompileOutcome.compiled · x) hg⟩
        | failed g missing => exact ⟨.error missing, congrArg (CompileOutcome.failed · missing) hg⟩
      have hstep : s.step (.answer place result) =
          { s with registry := s.registry.applyOutcome job.id outcome } := by
        simp only [step, hplace, hresult]
      obtain ⟨events, hrun⟩ :=
        ih { s with registry := s.registry.applyOutcome job.id outcome } c₁ (count + 1) hothers
      refine ⟨.answer place result :: events, ?_⟩
      rw [run, List.foldl_cons, hstep]
      exact hrun

theorem exists_run_driveRounds
    (hremote : ∀ c job outcome, (remote.compile c job).1 = .ok outcome →
      outcome.generation = job.generation) (bound : Nat) :
    ∀ (s : Session ν) (c : σ) (count : Nat), ∃ events,
      (s.run events).registry = (s.registry.driveRounds remote bound c count).2.1 := by
  -- A round is the taking of the outbox and the answers that follow.
  induction bound with
  | zero => exact fun s _ _ => ⟨[], rfl⟩
  | succ bound ih =>
    intro s c count
    have hround : ∃ events,
        (s.run events).registry = (s.registry.driveRound remote c count).2.1 := by
      rw [Registry.driveRound]
      dsimp only
      split
      · exact ⟨[.takeOutbox], rfl⟩
      · next c₁ _ =>
        obtain ⟨events, hrun⟩ := exists_run_applyAll hremote
          (s.registry.takeOutbox.1.filterMap Registry.job?) (s.step .takeOutbox) c₁ count
          fun job hjob => List.mem_append_right _ hjob
        exact ⟨.takeOutbox :: events, hrun⟩
    obtain ⟨events, hrun⟩ := hround
    rw [Registry.driveRounds]
    split
    · exact ⟨[], rfl⟩
    · generalize s.registry.driveRound remote c count = round at hrun ⊢
      obtain ⟨e | count₁, r₁, c₁⟩ := round
      · exact ⟨events, hrun⟩
      · obtain rfl : (s.run events).registry = r₁ := hrun
        obtain ⟨later, hlater⟩ := ih (s.run events) c₁ count₁
        refine ⟨events ++ later, ?_⟩
        rw [run, List.foldl_append]
        exact hlater

/-- A drive is part of a session, wherever it fails, and whatever is made of the jobs. -/
theorem exists_run_drive
    (hremote : ∀ c job outcome, (remote.compile c job).1 = .ok outcome →
      outcome.generation = job.generation) (s : Session ν) (c : σ) :
    ∃ events, (s.run events).registry = (s.registry.drive remote c).2.1 :=
  exists_run_driveRounds hremote _ s c 0

end Session

/-! ## In terms of the nodes -/

namespace Registry

variable {ν : Type} [Node ν]

/-- What nodes and cache say is true: every node knows how its dependencies fare, holds a value
only while all of them are dependable, and has exactly that value cached. -/
structure Faithful (r : Registry ν) : Prop where
  recorded_eq : ∀ k n, r.get? k = some n → ∀ d ∈ Node.dependencies n,
    KeyMap.find? (Node.readiness n) d = some (r.isDependable d)
  dependable_of_compiled : ∀ k n, r.get? k = some n → Node.isCompiled n = true →
    ∀ d ∈ Node.dependencies n, r.isDependable d = true
  compiled?_eq : ∀ k, r.compiled? k = (r.get? k).bind Node.compiled

variable [NodeKind ν] {verifier : Option Verifier} {r : Registry ν}

theorem Coherent.faithful (h : Coherent verifier r) : r.Faithful := by
  refine ⟨fun k n hn => h.recorded_eq k _ (view?_of_get? hn), fun k n hn hc => ?_, fun k => ?_⟩
  · exact (h.ready_iff (view?_of_get? hn)).1 ((h.fits k _ (view?_of_get? hn)).ready_of_compiled hc)
  · rw [h.compiled?_eq, value?, view?]
    cases r.get? k <;> rfl

end Registry

namespace Session

/-- In every session the registry is faithful, be it one of entitlements or of profiles. The flags
of an entitlement fit the value that it holds at the moment; a profile is valid exactly while it
holds a value. Generations do not wrap: this is about fewer than `2 ^ 64` compile requests. -/
theorem faithful_run (config : EngineConfig) (verifier : Option Verifier) :
    (∀ events : List (Event EntitlementNode),
      let r := ((start config verifier).run events).registry
      r.Faithful ∧ ∀ k n, r.get? k = some n →
        n.has .compiled = n.compiled.isSome ∧
        (n.has .valid = true → n.has .compiled = true ∧ ∃ x, n.compiled = some x ∧
          Registry.accepts verifier n.entitlement.metadata.resource x = true)) ∧
    (∀ events : List (Event ProfileNode),
      let r := ((start config verifier).run events).registry
      r.Faithful ∧ ∀ k n, r.get? k = some n → n.isValid = n.compiled.isSome) := by
  constructor
  · intro events r
    have hinv := (invariant_start (ν := EntitlementNode) config verifier).run events
    refine ⟨hinv.coherent.faithful, fun k n hn => ?_⟩
    have hv := Registry.view?_of_get? hn
    have hfits := hinv.coherent.fits k _ hv
    refine ⟨hfits.marked_eq, fun hvalid => ?_⟩
    have hverified : n.compiled.any
        (Registry.accepts verifier n.entitlement.metadata.resource) = true :=
      hfits.verified_eq.symm.trans hvalid
    obtain ⟨x, hx, haccepts⟩ := (Option.any_eq_true _ _).1 hverified
    refine ⟨?_, x, hx, haccepts⟩
    have hmarked : n.has .compiled = n.compiled.isSome := hfits.marked_eq
    rw [hmarked, hx]
    rfl
  · intro events r
    have hinv := (invariant_start (ν := ProfileNode) config verifier).run events
    refine ⟨hinv.coherent.faithful, fun k n hn => ?_⟩
    have hv := Registry.view?_of_get? hn
    have hverified : n.isValid = n.compiled.any (Registry.accepts verifier none) :=
      (hinv.coherent.fits k _ hv).verified_eq
    rw [hverified]
    cases n.compiled <;> simp

end Session

end LayeredAccess
