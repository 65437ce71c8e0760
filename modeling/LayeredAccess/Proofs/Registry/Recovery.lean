/-
  LayeredAccess.Proofs.Registry.Recovery

  Driving a registry with a client that fails. Messages may be refused, lost on
  their way, or carried out without anybody hearing of it; a drive ends with the
  first failure it hears of, in the middle of sending or of taking answers in.

  A drive takes the whole outbox before it sends anything, and what it has taken
  does not come back. Whether the registry recovers is decided by the jobs that
  are gone: `refines_iff` in `Recovery`. If one of them still counts, its node is
  stranded; otherwise a later drive makes up for everything.
-/
import LayeredAccess.Proofs.Registry.Delegation
import LayeredAccess.Proofs.Registry.LostJobs

namespace LayeredAccess

/-! ## Clients that fail -/

/-- What becomes of a message. -/
structure Fate where
  /-- Does it reach the service? -/
  arrives : Bool := true
  /-- Does the sender hear of success? -/
  succeeds : Bool := true

namespace RemoteCompiler

/-- A service behind a client that fails as it is told, one message after the other, and not any
more after that. -/
def failing : RemoteCompiler (List Fate × Compiler) where
  send s command :=
    let fate := s.1.headD {}
    let service := if fate.arrives then (ofService.send s.2 command).2 else s.2
    (if fate.succeeds then .ok () else .error Compiler.Client.disconnected, s.1.tail, service)
  compile s job :=
    let fate := s.1.headD {}
    let (result, service) :=
      if fate.arrives then ofService.compile s.2 job
      else (.error Compiler.Client.disconnected, s.2)
    (if fate.succeeds then result else .error Compiler.Client.disconnected, s.1.tail, service)

/-- A compiler elsewhere may fail, but what it says of a job is what the service has made of it. -/
structure Honest {σ : Type} (remote : RemoteCompiler σ) (reaches : σ → Compiler → Prop) :
    Prop where
  send_spec : ∀ {s c}, reaches s c → ∀ command, (∀ job, command ≠ .compile job) →
    ∃ c', reaches (remote.send s command).2 c' ∧
      (c' = c ∨ c' = (c.handle command.toEnvelope).2)
  compile_spec : ∀ {s c}, reaches s c → ∀ job, job.generation < wordLimit →
    ∃ c', reaches (remote.compile s job).2 c' ∧
      ((∃ e, (remote.compile s job).1 = .error e) ∧ c' = c ∨ c' = (c.compile job).2) ∧
      ∀ outcome, (remote.compile s job).1 = .ok outcome →
        outcome = .ofResult job.generation (c.compile job).1

variable {σ : Type} {remote : RemoteCompiler σ} {reaches : σ → Compiler → Prop}

theorem Serves.honest (h : remote.Serves reaches) : remote.Honest reaches where
  send_spec hs command hcommand := by
    obtain ⟨s', hsend, hs'⟩ := h.send_eq hs command hcommand
    exact ⟨_, by rw [hsend]; exact hs', .inr rfl⟩
  compile_spec hs job hjob := by
    obtain ⟨s', hcompile, hs'⟩ := h.compile_eq hs job hjob
    refine ⟨_, by rw [hcompile]; exact hs', .inr rfl, fun outcome ho => ?_⟩
    rw [hcompile] at ho
    exact (Except.ok.inj ho).symm

/-- Clients fail, but they do not make anything up. -/
theorem honest_failing : failing.Honest fun s c => s.2 = c where
  send_spec := by
    rintro ⟨fates, service⟩ _ rfl command -
    cases harrives : (fates.headD {}).arrives with
    | false => exact ⟨_, rfl, .inl (if_neg (by rw [harrives]; exact Bool.false_ne_true))⟩
    | true => exact ⟨_, rfl, .inr (if_pos harrives)⟩
  compile_spec := by
    rintro ⟨fates, service⟩ _ rfl job hjob
    refine ⟨_, rfl, ?_⟩
    simp only [failing, compile_ofService hjob]
    cases (fates.headD {}).arrives <;> cases (fates.headD {}).succeeds <;> simp

end RemoteCompiler

/-! ## Sending with failures -/

namespace Outlook

variable {t : Traffic} {o : Outlook}

/-- Commands may be lost on their way. -/
theorem Matched.lose {commands rest : List CompilerCommand} (h : Matched t o)
    (hqueue : t.queue = commands ++ rest) : Matched { t with queue := rest } o := by
  induction commands generalizing t with
  | nil =>
    rw [← show t.queue = rest from hqueue]
    exact h
  | cons command commands ih =>
    have hrest := ih (h.carryOut hqueue t.cache fun _ _ => rfl) rfl
    exact hrest

end Outlook

namespace RemoteCompiler

variable {σ : Type} {remote : RemoteCompiler σ} {reaches : σ → Compiler → Prop} {o : Outlook}

/-- Wherever sending ends, what is left matches the registry. -/
theorem Honest.sendAll_spec (h : remote.Honest reaches) {commands rest : List CompilerCommand}
    (hjob : ∀ command ∈ commands, ∀ job, command ≠ .compile job) :
    ∀ {t : Traffic} {s : σ} {c : Compiler}, reaches s c → o.Matched t →
      t.queue = commands ++ rest → c.get? = t.cache →
      ∃ c', reaches (remote.sendAll s commands).2 c' ∧
        o.Matched { t with queue := rest, cache := c'.get? } := by
  -- Each command is handled or lost, and sending ends with the first error.
  induction commands with
  | nil =>
    intro t s c hs ht hqueue hcache
    refine ⟨c, hs, ?_⟩
    rw [hcache]
    exact ht.lose hqueue
  | cons command commands ih =>
    intro t s c hs ht hqueue hcache
    obtain ⟨hfirst, hrest⟩ := List.forall_mem_cons.1 hjob
    obtain ⟨c₁, hs₁, hc₁⟩ := h.send_spec hs command hfirst
    have ht₁ : o.Matched { t with queue := commands ++ rest, cache := c₁.get? } := by
      rcases hc₁ with rfl | rfl
      · exact ht.carryOut hqueue _ fun _ _ => by rw [hcache]
      · exact ht.handle hqueue hfirst hcache
    rw [sendAll]
    split
    · next s₁ hsend =>
      rw [hsend] at hs₁
      obtain ⟨c', hs', ht'⟩ := ih hrest hs₁ ht₁ rfl rfl
      exact ⟨c', hs', ht'⟩
    · next e s₁ hsend =>
      rw [hsend] at hs₁
      exact ⟨c₁, hs₁, ht₁.lose rfl⟩

/-- Whichever jobs fail, the outcomes of the others are answers to them. -/
theorem Honest.compileAll_spec (h : remote.Honest reaches)
    (hready : ∀ k l, o.outline? k = some l → l.ready = true →
      ∀ d ∈ l.dependencies, (o.value? d).isSome) {jobs : List CompileJob}
    (hword : ∀ job ∈ jobs, job.generation < wordLimit) :
    ∀ {t : Traffic} {s : σ} {c : Compiler}, reaches s c → o.Matched t →
      t.queue = jobs.map .compile → c.get? = t.cache →
      ∃ answers c', reaches (remote.compileAll s jobs).2 c' ∧
        o.Matched { t with queue := [], cache := c'.get?, answers := t.answers ++ answers } ∧
        (∀ a ∈ answers, a.1 ∈ jobs.map (·.id)) ∧
        ∀ key outcome, (key, .ok outcome) ∈ (remote.compileAll s jobs).1 →
          (key, outcome) ∈ answers := by
  induction jobs with
  | nil =>
    intro t s c hs ht hqueue hcache
    refine ⟨[], c, hs, ?_, by simp, fun _ _ hin => absurd hin List.not_mem_nil⟩
    rw [hcache, List.append_nil, ← show t.queue = [] from hqueue]
    exact ht
  | cons job jobs ih =>
    intro t s c hs ht hqueue hcache
    obtain ⟨hfirst, hrest⟩ := List.forall_mem_cons.1 hword
    obtain ⟨c₁, hs₁, hc₁, houtcome⟩ := h.compile_spec hs job hfirst
    rw [compileAll]
    generalize remote.compile s job = compiled at hs₁ hc₁ houtcome ⊢
    obtain ⟨result, s₁⟩ := compiled
    rcases hc₁ with ⟨⟨e, rfl⟩, rfl⟩ | rfl
    · -- The job is lost.
      have ht₁ := ht.carryOut hqueue c₁.get? fun _ _ => by rw [hcache]
      obtain ⟨answers, c', hs', ht', hids, hanswers⟩ := ih hrest hs₁ ht₁ rfl rfl
      refine ⟨answers, c', hs', ht', fun a ha => List.mem_cons_of_mem _ (hids a ha),
        fun key outcome hin => hanswers key outcome ?_⟩
      exact (List.mem_cons.1 hin).resolve_left (by simp)
    · obtain ⟨answers, c', hs', ht', hids, hanswers⟩ :=
        ih hrest hs₁ (ht.compile hqueue hcache hready) rfl rfl
      rw [List.append_assoc] at ht'
      refine ⟨(job.id, .ofResult job.generation (c.compile job).1) :: answers, c', hs', ht',
        fun a ha => ?_, fun key outcome hin => ?_⟩
      · rcases List.mem_cons.1 ha with rfl | ha
        · exact List.mem_cons_self
        · exact List.mem_cons_of_mem _ (hids a ha)
      · rcases List.mem_cons.1 hin with he | hin
        · obtain ⟨rfl, hresult⟩ := Prod.mk.inj he
          rw [houtcome outcome hresult.symm]
          exact List.mem_cons_self
        · exact List.mem_cons_of_mem _ (hanswers key outcome hin)

end RemoteCompiler

/-! ## Drives with failures -/

namespace Registry

section Rounds

variable {ν : Type} [Node ν] {σ : Type}

/-- The jobs that are taken from the outbox in a number of rounds. -/
def takenRounds (remote : RemoteCompiler σ) : Nat → Registry ν → σ → Nat → List CompileJob
  | 0, _, _, _ => []
  | bound + 1, r, s, count =>
    if r.outbox.isEmpty then []
    else
      r.outbox.filterMap job? ++
        match driveRound remote r s count with
        | (.ok count, r, s) => takenRounds remote bound r s count
        | (.error _, _, _) => []

/-- The jobs that a drive takes from the outbox. -/
def taken (remote : RemoteCompiler σ) (r : Registry ν) (s : σ) : List CompileJob :=
  takenRounds remote (r.size + 2) r s 0

/-- Of the outcomes those before the first failure are taken in. -/
theorem applyAll_of_error (answers : List (String × CompileOutcome)) (key : String)
    (e : EngineError) (rest : List (String × Except EngineError CompileOutcome)) :
    ∀ (r : Registry ν) (count : Nat),
      r.applyAll count (answers.map (fun a => (a.1, .ok a.2)) ++ (key, .error e) :: rest) =
        (.error e, answers.foldl (fun r a => r.applyOutcome a.1 a.2) r) := by
  induction answers with
  | nil => exact fun _ _ => rfl
  | cons a answers ih => exact fun r count => ih (r.applyOutcome a.1 a.2) (count + 1)

/-- A drive that hears of a failure in its first round leaves the registry without outbox, and
with the outcomes before that failure. -/
theorem drive_eq_of_error {remote : RemoteCompiler σ} {r : Registry ν} {s s₁ s₂ : σ}
    {answers : List (String × CompileOutcome)} {key : String} {e : EngineError}
    {rest : List (String × Except EngineError CompileOutcome)} (houtbox : r.outbox ≠ [])
    (hsend : remote.sendAll s (r.outbox.filter fun c => (job? c).isNone) = (.ok (), s₁))
    (hcompile : remote.compileAll s₁ (r.outbox.filterMap job?) =
      (answers.map (fun a => (a.1, .ok a.2)) ++ (key, .error e) :: rest, s₂)) :
    r.drive remote s =
      (.error e, answers.foldl (fun r a => r.applyOutcome a.1 a.2) r.takeOutbox.2, s₂) := by
  have hround : r.driveRound remote s 0 =
      (.error e, answers.foldl (fun r a => r.applyOutcome a.1 a.2) r.takeOutbox.2, s₂) := by
    simp only [driveRound, takeOutbox, hsend, hcompile, applyAll_of_error]
  rw [drive, driveRounds, if_neg (by simpa using houtbox), hround]

/-- A job counts: no other has been asked for since, and its node is ready to be compiled. -/
def Counts (r : Registry ν) (job : CompileJob) : Prop :=
  KeyMap.find? r.generations job.id = some job.generation ∧
    ∃ n, r.get? job.id = some n ∧ ∀ d ∈ Node.dependencies n, r.isDependable d = true

end Rounds

variable {ν : Type} [Node ν] [NodeKind ν]

/-- What holds of a registry whatever has failed. Of some nodes it is said that they are
stranded. -/
structure Weathered (verifier : Option Verifier) (lost : String → Prop) (t : Traffic)
    (r : Registry ν) : Prop where
  coherent : Coherent verifier r
  matched : (r.outlook []).Matched t
  asked : (r.outlook []).Asked t.given
  stranded : ∀ k, lost k → (r.outlook []).Stranded k

variable [LawfulNode ν] {verifier : Option Verifier} {lost : String → Prop} {t : Traffic}
  {r : Registry ν}

/-- An answer is taken in. -/
theorem Weathered.applyOutcome (h : Weathered verifier lost t r) {a : String × CompileOutcome}
    (ha : a ∈ t.answers) (hlost : ¬ lost a.1) :
    Weathered verifier lost t (r.applyOutcome a.1 a.2) := by
  obtain ⟨height, hg⟩ := h.coherent.wired.exists_graded
  obtain ⟨hcoherent, -, hmatched⟩ := h.coherent.matched_applyOutcome hg h.matched ha
  obtain ⟨-, -, hanswered⟩ :=
    h.coherent.applyOutcome_spec hg a.1 a.2 (value?_of_answer h.matched ha)
  have hgiven := h.matched.given_of_answers a ha
  have hkept : ((r.applyOutcome a.1 a.2).outlook []).Asked t.given ∧
      ∀ k, lost k → ((r.applyOutcome a.1 a.2).outlook []).Stranded k := by
    generalize r.applyOutcome a.1 a.2 = r' at hanswered ⊢
    cases hanswered with
    | stale hstale => exact ⟨h.asked, h.stranded⟩
    | dropped hcurrent hnot houtlook =>
      rw [houtlook]
      refine ⟨h.asked.supersede hgiven hcurrent ?_, fun k hk => (h.stranded k hk).supersede a.1⟩
      -- If its node waited, the answer would bring a value.
      rintro ⟨hdue, l, hl, hready, -⟩
      obtain ⟨x, hx, -⟩ := h.matched.answered a ha ⟨hcurrent, hdue, l, hl, hready⟩
      obtain ⟨v, hv, rfl⟩ := Option.map_eq_some_iff.1 hl
      exact hnot x v hx hv (of_decide_eq_true hready)
    | @taken _ x v hcurrent heq hv hready hkept =>
      refine hkept (fun o => o.Asked t.given ∧ ∀ k, lost k → o.Stranded k)
        (fun o o' hadvance ho => ?_) ⟨h.asked.arrive hgiven hcurrent _ _, fun k hk => ?_⟩
      · exact ⟨Outlook.kept_asked _ o o' (.advance hadvance) ho.1,
          fun k hk => (ho.2 k hk).advance hadvance⟩
      · refine (h.stranded k hk).arrive ?_ _ _
        rintro rfl
        exact hlost hk
  exact ⟨hcoherent, hmatched, hkept.1, hkept.2⟩

/-- Outcomes are taken in up to the first failure. -/
theorem Weathered.applyAll {outcomes : List (String × Except EngineError CompileOutcome)}
    (hanswers : ∀ key outcome, (key, .ok outcome) ∈ outcomes → (key, outcome) ∈ t.answers)
    (hlost : ∀ a ∈ t.answers, ¬ lost a.1) : ∀ {r : Registry ν} (count : Nat),
      Weathered verifier lost t r → Weathered verifier lost t (r.applyAll count outcomes).2 := by
  induction outcomes with
  | nil => exact fun _ h => h
  | cons first rest ih =>
    intro r count h
    obtain ⟨key, outcome | outcome⟩ := first
    · exact h
    · have hfirst := hanswers key outcome List.mem_cons_self
      exact ih (fun key' outcome' hin => hanswers key' outcome' (List.mem_cons_of_mem _ hin))
        (count + 1) (h.applyOutcome hfirst (hlost _ hfirst))

variable {σ : Type} {remote : RemoteCompiler σ} {reaches : σ → Compiler → Prop}

/-- What a round has taken from the outbox and not brought to an end is lost. -/
theorem Weathered.driveRound (hremote : remote.Honest reaches) {given : List CompileJob} {s : σ}
    {c : Compiler} (hs : reaches s c) (h : Weathered verifier lost (idle given c) r)
    (hword : r.generation < wordLimit) (count : Nat) :
    ∃ c', reaches (r.driveRound remote s count).2.2 c' ∧
      Weathered verifier lost (idle (given ++ r.outbox.filterMap job?) c')
        (r.driveRound remote s count).2.1 := by
  have hcoherent := h.coherent.takeOutbox
  have hstranded : ∀ k, lost k → (r.takeOutbox.2.outlook []).Stranded k :=
    fun k hk => (h.stranded k hk).takeOutbox
  have htaken : ∀ {t : Traffic}, t.given = given ++ r.outbox.filterMap job? →
      (r.takeOutbox.2.outlook []).Matched t → Weathered verifier lost t r.takeOutbox.2 :=
    fun ht hmatched => ⟨hcoherent, hmatched, ht ▸ h.asked.takeOutbox, hstranded⟩
  -- Evictions and clears go ahead of the jobs.
  have hreordered := h.matched.takeOutbox.reorder rfl
  obtain ⟨c₁, hs₁, ht₁⟩ :=
    hremote.sendAll_spec (ne_compile_of_mem_filter r.outbox) hs hreordered rfl rfl
  change reaches (remote.sendAll s (r.takeOutbox.1.filter fun c => (job? c).isNone)).2 c₁ at hs₁
  rw [Registry.driveRound]
  dsimp only
  split
  · next e s₁ hsend =>
    rw [hsend] at hs₁
    exact ⟨c₁, hs₁, htaken rfl (ht₁.lose (List.append_nil _).symm)⟩
  · next s₁ hsend =>
    rw [hsend] at hs₁
    have hjob : ∀ job ∈ r.outbox.filterMap job?, .compile job ∈ r.outbox :=
      fun job => (mem_filterMap_job? job).1
    have hwords : ∀ job ∈ r.outbox.filterMap job?, job.generation < wordLimit := fun job hin =>
      Nat.lt_of_le_of_lt
        (h.matched.le_generation_of_queue (List.mem_append_right _ (hjob job hin))) hword
    have hready : ∀ k l, (r.takeOutbox.2.outlook []).outline? k = some l → l.ready = true →
        ∀ d ∈ l.dependencies, ((r.takeOutbox.2.outlook []).value? d).isSome :=
      fun k l hl hready => hcoherent.values_of_ready hl hready
    obtain ⟨answers, c₂, hs₂, ht₂, hids, hanswers⟩ :=
      hremote.compileAll_spec hready hwords hs₁ ht₁ rfl rfl
    -- Nobody answers for a node that is stranded.
    have hlost : ∀ a ∈ answers, ¬ lost a.1 := by
      intro a ha hk
      obtain ⟨job, hin, hid⟩ := List.mem_map.1 (hids a ha)
      exact (h.stranded a.1 hk).unsent job (hjob job hin) hid
    have happlied := Weathered.applyAll hanswers hlost count (htaken rfl ht₂)
    exact ⟨c₂, hs₂, happlied.coherent, happlied.matched.forget (by simp), happlied.asked,
      happlied.stranded⟩

/-- A node that has come as far as in a registry at rest is compiled if it can be. -/
theorem Equivalent.isSome_compiled {r' : Registry ν} (h : Equivalent r r')
    (hr' : Rested verifier r') {k : String} {v : NodeView} (hv : r.view? k = some v)
    (hready : v.Ready) : v.compiled.isSome := by
  obtain ⟨n, hn, rfl⟩ := Option.map_eq_some_iff.1 hv
  have hget := h.get?_eq k
  rw [hn, Option.map_some] at hget
  obtain ⟨n', hn', he⟩ := Option.map_eq_some_iff.1 hget.symm
  have hview := congrArg Node.view he
  rw [LawfulNode.view_setReadiness, LawfulNode.view_setReadiness] at hview
  obtain ⟨-, hinputs, hcompiled, -⟩ := NodeView.mk.inj hview
  rw [← hcompiled]
  refine hr'.prompt k _ (view?_of_get? hn') fun d hd => ?_
  rw [hinputs] at hd
  exact (h.recorded_eq k n n' hn hn' d hd).symm.trans (hready d hd)

variable [BareNode ν]

/-- However a drive ends, what it has taken from the outbox has been given away. -/
theorem Weathered.driveRounds (hremote : remote.Honest reaches) (bound : Nat) :
    ∀ {given : List CompileJob} {s : σ} {c : Compiler} {r : Registry ν} (count : Nat),
      reaches s c → Weathered verifier lost (idle given c) r →
      (Registry.driveRounds remote bound r s count).2.1.generation < wordLimit →
      ∃ c', reaches (Registry.driveRounds remote bound r s count).2.2 c' ∧
        Weathered verifier lost (idle (given ++ takenRounds remote bound r s count) c')
          (Registry.driveRounds remote bound r s count).2.1 := by
  -- Each round gives away what it has taken, also the one that fails.
  induction bound with
  | zero =>
    intro given s c r count hs h _
    rw [takenRounds, List.append_nil]
    exact ⟨c, hs, h⟩
  | succ bound ih =>
    intro given s c r count hs h hword
    have hfirst : r.generation < wordLimit :=
      Nat.lt_of_le_of_lt (onward_driveRounds remote _ r s count).generation_le hword
    obtain ⟨c₁, hs₁, h₁⟩ := h.driveRound hremote hs hfirst count
    rw [Registry.driveRounds, takenRounds] at *
    cases houtbox : r.outbox.isEmpty with
    | true =>
      rw [if_pos rfl, if_pos rfl, List.append_nil]
      exact ⟨c, hs, h⟩
    | false =>
      simp only [houtbox, Bool.false_eq_true, if_false] at hword ⊢
      generalize r.driveRound remote s count = round at hs₁ h₁ hword ⊢
      obtain ⟨_ | count₁, r₁, s₁⟩ := round
      · rw [List.append_nil]
        exact ⟨c₁, hs₁, h₁⟩
      · rw [← List.append_assoc]
        exact ih count₁ hs₁ h₁ hword

end Registry

/-! ## Runs with failures -/

/-- A registry and the service that compiles for it, between drives that may fail. -/
structure Interrupted (ν : Type) [Node ν] where
  registry : Registry ν
  service : Compiler := {}
  /-- The jobs that drives have taken from the outbox so far. -/
  taken : List CompileJob := []

namespace Interrupted

open Registry

variable {ν : Type} [Node ν] [NodeKind ν]

/-- Something that happens to a registry that is driven now and then. -/
inductive Event (ν : Type) [Node ν] [NodeKind ν] where
  | operate (operation : Operation ν)
  /-- A drive with a client that fails. -/
  | drive (fates : List Fate)

def step (s : Interrupted ν) : Event ν → Interrupted ν
  | .operate operation => { s with registry := s.registry.operate operation }
  | .drive fates =>
    let (_, registry, _, service) := s.registry.drive RemoteCompiler.failing (fates, s.service)
    { registry, service
      taken := s.taken ++ s.registry.taken RemoteCompiler.failing (fates, s.service) }

def run (s : Interrupted ν) (events : List (Event ν)) : Interrupted ν := events.foldl step s

/-- Before anything has happened. -/
def start (sandbox : SandboxConfig) (verifier : Option Verifier) : Interrupted ν where
  registry := .fresh { compileMode := .deferred, sandbox } verifier

/-- What users do, without the drives. -/
def operations (events : List (Event ν)) : List (Operation ν) :=
  events.filterMap fun
    | .operate operation => some operation
    | .drive _ => none

/-- How a drive with a new client of the same service ends, and the registry then. -/
def resume (s : Interrupted ν) : Except EngineError Nat × Registry ν :=
  let (result, registry, _) := s.registry.drive Connection.remote { service := s.service }
  (result, registry)

/-- A registry that compiles on the spot, after what users do in some events. -/
def inline (sandbox : SandboxConfig) (verifier : Option Verifier) (events : List (Event ν)) :
    Registry ν :=
  Registry.operateAll (.fresh { compileMode := .inline, sandbox } verifier) (operations events)

/-- What becomes of the jobs that drives have taken. -/
structure Recovery (s : Interrupted ν) (r : Registry ν) : Prop where
  /-- They never come back into the outbox. -/
  gone : ∀ job ∈ s.taken, .compile job ∉ s.registry.outbox
  /-- A later drive makes up for all failures if and only if none of them still counts. -/
  refines_iff : Delegation.Refines s.resume r ↔ ∀ job ∈ s.taken, ¬ s.registry.Counts job

/-- Nothing is known of the jobs that have been taken; the definitions are those of a registry that
compiles on the spot. -/
structure Invariant (verifier : Option Verifier) (s : Interrupted ν) (r : Registry ν) : Prop where
  weathered : Weathered verifier (fun _ => False) (idle s.taken s.service) s.registry
  same : Same s.registry r

variable {verifier : Option Verifier} {s : Interrupted ν} {r : Registry ν}

theorem invariant_start (sandbox : SandboxConfig) (verifier : Option Verifier)
    (config : EngineConfig) :
    Invariant verifier (start sandbox verifier : Interrupted ν) (.fresh config verifier) := by
  have hmatched := Outlook.matched_empty
    (o := (start sandbox verifier : Interrupted ν).registry.outlook []) (fun _ => rfl) rfl rfl
    ({} : Compiler).get?
  refine ⟨⟨coherent_fresh _ verifier, hmatched,
    ⟨hmatched.toAnswerable, rfl, fun k hk => ?_, ?_, ?_⟩, fun _ hk => hk.elim⟩,
    ⟨fun _ => rfl, rfl⟩⟩
  · obtain ⟨-, l, hl, -⟩ := hk
    exact absurd hl (by simp [start, outlook, view?, get?, fresh])
  · exact fun _ hjob => absurd hjob List.not_mem_nil
  · exact fun _ hjob => absurd hjob List.not_mem_nil

/-- A job that counts is that of a node that is ready. -/
theorem counts_of_waiting {job : CompileJob} (h : Coherent verifier s.registry)
    (hcurrent : KeyMap.find? s.registry.generations job.id = some job.generation)
    (hwaiting : (s.registry.outlook []).Waiting job.id) : s.registry.Counts job := by
  obtain ⟨-, l, hl, hready, -⟩ := hwaiting
  obtain ⟨v, hv, rfl⟩ := Option.map_eq_some_iff.1 hl
  obtain ⟨n, hn, rfl⟩ := Option.map_eq_some_iff.1 hv
  exact ⟨hcurrent, n, hn, (h.ready_iff hv).1 (of_decide_eq_true hready)⟩

/-- If no job that counts is gone, no node has been forgotten. -/
theorem Invariant.tended (h : Invariant verifier s r)
    (hgone : ∀ job ∈ s.taken, ¬ s.registry.Counts job) :
    (s.registry.outlook []).Tended (idle s.taken s.service) := by
  refine ⟨h.weathered.matched, fun k hk => ?_⟩
  obtain ⟨g, hg, job, hjob, rfl, rfl⟩ := h.weathered.asked.asked k hk
  rcases hjob with hjob | hjob
  · exact absurd (counts_of_waiting h.weathered.coherent hg hk) (hgone job hjob)
  · exact ⟨_, hg, .inl ⟨job, List.mem_append_right _ hjob, rfl, rfl⟩⟩

/-- If a job that counts is gone, its node is stranded. -/
theorem Invariant.stranded (h : Invariant verifier s r) {job : CompileJob} (hjob : job ∈ s.taken)
    (hcounts : s.registry.Counts job) : (s.registry.outlook []).Stranded job.id := by
  obtain ⟨hcurrent, n, hn, hdeps⟩ := hcounts
  have hasked := h.weathered.asked
  have hgiven : ∃ job' ∈ s.taken, job'.id = job.id ∧ job'.generation = job.generation :=
    ⟨job, hjob, rfl, rfl⟩
  obtain ⟨l, hl, hnone⟩ := hasked.uncompiled job.id job.generation
    ⟨job, .inl hjob, rfl, rfl⟩ hcurrent
  refine ⟨⟨List.not_mem_nil, l, hl, ?_, hnone⟩, hasked.ne_of_given hgiven hcurrent⟩
  have hv := view?_of_get? hn
  rw [outline?_outlook hv] at hl
  rw [← Option.some.inj hl]
  exact decide_eq_true ((h.weathered.coherent.ready_iff hv).2 hdeps)

variable [BareNode ν]

theorem generation_le_step (s : Interrupted ν) (event : Event ν) :
    s.registry.generation ≤ (s.step event).registry.generation := by
  cases event with
  | operate operation => exact generation_le_operate s.registry operation
  | drive fates => exact (onward_drive _ s.registry (fates, s.service)).generation_le

theorem generation_le_run (s : Interrupted ν) (events : List (Event ν)) :
    s.registry.generation ≤ (s.run events).registry.generation := by
  induction events generalizing s with
  | nil => exact Nat.le_refl _
  | cons event rest ih => exact Nat.le_trans (generation_le_step s event) (ih (s.step event))

variable [LawfulNode ν]

theorem Invariant.step (h : Invariant verifier s r) (event : Event ν)
    (hword : (s.step event).registry.generation < wordLimit) :
    Invariant verifier (s.step event) (r.operateAll (operations [event])) := by
  cases event with
  | operate operation =>
    have hsound := h.weathered.coherent.sound_operate operation
    exact ⟨⟨hsound.coherent, hsound.evolves _ (Outlook.kept_matched _) h.weathered.matched,
      hsound.evolves _ (Outlook.kept_asked _) h.weathered.asked, fun _ hk => hk.elim⟩,
      h.same.operate operation⟩
  | drive fates =>
    obtain ⟨_, rfl, hweathered⟩ := h.weathered.driveRounds RemoteCompiler.honest_failing
      (s.registry.size + 2) 0
      (rfl : ((fates, s.service) : List Fate × Compiler).2 = s.service) hword
    exact ⟨hweathered, (onward_drive _ s.registry (fates, s.service)).toSame.symm.trans h.same⟩

theorem Invariant.run (h : Invariant verifier s r) (events : List (Event ν))
    (hword : (s.run events).registry.generation < wordLimit) :
    Invariant verifier (s.run events) (r.operateAll (operations events)) := by
  induction events generalizing s r with
  | nil => exact h
  | cons event rest ih =>
    have hfirst := Nat.lt_of_le_of_lt (generation_le_run (s.step event) rest) hword
    have hrest := ih (h.step event hfirst) hword
    cases event with
    | operate operation => exact hrest
    | drive fates => exact hrest

/-- A node that is stranded is not compiled by a later drive. -/
theorem Invariant.not_refines (h : Invariant verifier s r) (hr : Rested verifier r)
    (hword : s.resume.2.generation < wordLimit) {job : CompileJob} (hjob : job ∈ s.taken)
    (hcounts : s.registry.Counts job) : ¬ Delegation.Refines s.resume r := by
  intro hrefines
  have hweathered : Weathered verifier (· = job.id) (idle s.taken s.service) s.registry :=
    ⟨h.weathered.coherent, h.weathered.matched, h.weathered.asked,
      fun k hk => hk ▸ h.stranded hjob hcounts⟩
  have hidle : Connection.Reaches { service := s.service } s.service :=
    ⟨⟨rfl, rfl, rfl⟩, rfl⟩
  obtain ⟨_, -, hend⟩ := hweathered.driveRounds Connection.serves_remote.honest
    (s.registry.size + 2) 0 hidle hword
  obtain ⟨⟨-, l, hl, hready, hnone⟩, -⟩ := hend.stranded job.id rfl
  obtain ⟨v, hv, rfl⟩ := Option.map_eq_some_iff.1 hl
  have hsome := hrefines.equivalent.isSome_compiled hr hv (of_decide_eq_true hready)
  rw [show v.compiled = none from hnone] at hsome
  cases hsome

theorem Invariant.recovery (h : Invariant verifier s r) (hr : Rested verifier r)
    (hword : s.resume.2.generation < wordLimit) : Recovery s r := by
  refine ⟨fun job hjob hin => h.weathered.asked.apart job hjob job hin rfl rfl, fun hrefines => ?_,
    fun hgone => ?_⟩
  · exact fun job hjob hcounts => h.not_refines hr hword hjob hcounts hrefines
  · have hdelegation : Delegation.Invariant verifier
        { registry := s.registry, connection := { service := s.service } } r :=
      ⟨h.weathered.coherent, ⟨rfl, rfl, rfl⟩, ⟨s.taken, h.tended hgone⟩, h.same⟩
    exact hdelegation.refines hr hword

theorem recovery_of_word (sandbox : SandboxConfig) (verifier : Option Verifier)
    (events : List (Event ν))
    (hword : ((start sandbox verifier).run events).resume.2.generation < wordLimit) :
    Recovery ((start sandbox verifier).run events) (inline sandbox verifier events) := by
  have hrun := Nat.lt_of_le_of_lt (onward_drive Connection.remote
    ((start sandbox verifier).run events).registry _).generation_le hword
  have hinv :=
    (invariant_start sandbox verifier { compileMode := .inline, sandbox }).run events hrun
  exact hinv.recovery (rested_operateAll sandbox verifier (operations events)) hword

/-- Whatever has been done to a registry of entitlements or of profiles, and however drives have
failed, the jobs that have been taken never come back, and a later drive leaves the registry as if
it compiled on the spot if and only if none of them still counts. Generations have to fit into the
words that messages have for them. -/
theorem recovery_run (sandbox : SandboxConfig) (verifier : Option Verifier) :
    (∀ events : List (Event EntitlementNode),
      ((start sandbox verifier).run events).resume.2.generation < wordLimit →
        Recovery ((start sandbox verifier).run events) (inline sandbox verifier events)) ∧
    (∀ events : List (Event ProfileNode),
      ((start sandbox verifier).run events).resume.2.generation < wordLimit →
        Recovery ((start sandbox verifier).run events) (inline sandbox verifier events)) :=
  ⟨recovery_of_word sandbox verifier, recovery_of_word sandbox verifier⟩

/-- A job that is lost, and one whose answer is lost on its way back. -/
theorem recovery_run_root :
    let events : List (Event EntitlementNode) :=
      [.operate (.add { id := "root" }), .drive [{ arrives := false, succeeds := false }]]
    let events' : List (Event ProfileNode) :=
      [.operate (.add { name := "root" }), .drive [{ succeeds := false }], .operate .clearCache]
    (((start {} none).run events).resume.2.generation < wordLimit ∧
      Recovery ((start {} none).run events) (inline {} none events)) ∧
    ((start {} none).run events').resume.2.generation < wordLimit ∧
      Recovery ((start {} none).run events') (inline {} none events') := by
  intro events events'
  have hword : ((start {} none).run events).resume.2.generation < wordLimit := by decide +kernel
  have hword' : ((start {} none).run events').resume.2.generation < wordLimit := by decide +kernel
  exact ⟨⟨hword, (recovery_run {} none).1 events hword⟩, hword',
    (recovery_run {} none).2 events' hword'⟩

/-- A drive that fails loses a job that counts: it is not in the outbox any more, and a later drive
succeeds but does not compile its node. -/
theorem root_forsaken :
    let fates : List Fate := [{ arrives := false, succeeds := false }]
    let before : List (Event EntitlementNode) := [.operate (.add { id := "root" })]
    let events : List (Event EntitlementNode) := [.operate (.add { id := "root" }), .drive fates]
    (((start {} none).run before).registry.drive RemoteCompiler.failing
        (fates, ((start {} none).run before).service)).1.isOk = false ∧
      (∃ job ∈ ((start {} none).run events).taken,
        ((start {} none).run events).registry.Counts job ∧
        .compile job ∉ ((start {} none).run events).registry.outbox) ∧
      ((start {} none).run events).resume.1.isOk = true ∧
      ((((start {} none).run events).resume.2.get? "root").bind Node.compiled).isSome = false ∧
      ¬ Delegation.Refines ((start {} none).run events).resume (inline {} none events) := by
  intro fates before events
  have hword : ((start {} none).run events).resume.2.generation < wordLimit := by decide +kernel
  have hlost : (((start {} none).run events).taken.any fun job =>
      decide (KeyMap.find? ((start {} none).run events).registry.generations job.id =
        some job.generation) &&
      (((start {} none).run events).registry.get? job.id).any fun n =>
        (Node.dependencies n).all ((start {} none).run events).registry.isDependable) = true := by
    decide +kernel
  obtain ⟨job, hin, hjob⟩ := List.any_eq_true.1 hlost
  rw [Bool.and_eq_true, decide_eq_true_iff, Option.any_eq_true] at hjob
  obtain ⟨hgeneration, n, hn, hdeps⟩ := hjob
  have hcounts : ((start {} none).run events).registry.Counts job :=
    ⟨hgeneration, n, hn, List.all_eq_true.1 hdeps⟩
  have hrecovery := recovery_of_word {} none events hword
  exact ⟨by decide +kernel, ⟨job, hin, hcounts, hrecovery.gone job hin⟩, by decide +kernel,
    by decide +kernel, fun hrefines => hrecovery.refines_iff.1 hrefines job hin hcounts⟩

end Interrupted

end LayeredAccess
