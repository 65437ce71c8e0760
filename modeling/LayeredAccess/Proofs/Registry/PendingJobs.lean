/-
  LayeredAccess.Proofs.Registry.PendingJobs

  While all that is on its way arrives, no node is forgotten: of every node that
  waits for its value the job that counts is on its way, or its answer. An
  answer that is dropped has been overtaken by a newer job, or its node is not
  ready any more and will be asked for again when it is.

  Commands without answer may be sent ahead of all jobs, since they only touch
  nodes whose jobs do not count any more, or have not been given yet.
-/
import LayeredAccess.Proofs.Registry.Matching

namespace LayeredAccess

/-- The commands that are jobs. -/
theorem Registry.map_compile_filterMap_job? (commands : List CompilerCommand) :
    (commands.filterMap job?).map CompilerCommand.compile =
      commands.filter fun c => (job? c).isSome := by
  induction commands with
  | nil => rfl
  | cons c rest ih =>
    cases c with
    | compile job => exact congrArg (CompilerCommand.compile job :: ·) ih
    | evict ids => exact ih
    | clear => exact ih

/-- Every command is a job or not. -/
theorem Registry.mem_filter_job? (commands : List CompilerCommand) (c : CompilerCommand) :
    c ∈ commands.filter (fun c => (job? c).isNone) ++ commands.filter (fun c => (job? c).isSome) ↔
      c ∈ commands := by
  rw [List.mem_append, List.mem_filter, List.mem_filter]
  cases job? c <;> simp

theorem Registry.ne_compile_of_mem_filter (commands : List CompilerCommand) :
    ∀ c ∈ commands.filter (fun c => (job? c).isNone), ∀ job, c ≠ .compile job := by
  rintro c hc job rfl
  simp [job?] at hc

namespace Outlook

/-- A node waits for its value: it is ready, holds none and is not about to be compiled. -/
def Waiting (o : Outlook) (k : String) : Prop :=
  k ∉ o.due ∧ ∃ l, o.outline? k = some l ∧ l.ready = true ∧ l.compiled = none

/-- A job of a node is on its way to the compiler, or its answer is on its way back. -/
def Awaited (t : Traffic) (o : Outlook) (k : String) (g : Nat) : Prop :=
  (∃ job, .compile job ∈ t.queue ++ o.outbox ∧ job.id = k ∧ job.generation = g) ∨
    ∃ a ∈ t.answers, a.1 = k ∧ a.2.generation = g

/-- What is on its way matches the registry, and no node is forgotten. -/
structure Tended (t : Traffic) (o : Outlook) : Prop extends Matched t o where
  attended : ∀ k, o.Waiting k → ∃ g, o.generations k = some g ∧ o.Awaited t k g

variable {t t' : Traffic} {o o' : Outlook} {k : String} {l : Outline}

theorem Awaited.mono {g : Nat} (h : o.Awaited t k g)
    (hjobs : ∀ job, .compile job ∈ t.queue ++ o.outbox → job.id = k →
      .compile job ∈ t'.queue ++ o'.outbox)
    (hanswers : ∀ a ∈ t.answers, a.1 = k → a ∈ t'.answers) : o'.Awaited t' k g := by
  rcases h with ⟨job, hjob, hid, hgen⟩ | ⟨a, ha, hid, hgen⟩
  · exact .inl ⟨job, hjobs job hjob hid, hid, hgen⟩
  · exact .inr ⟨a, hanswers a ha hid, hid, hgen⟩

/-! ## Changes in the registry -/

/-- Changes that make no node wait, and drop no job of a node that waits. -/
theorem Tended.of_quiet (h : Tended t o) (hm : Matched t o')
    (hwaiting : ∀ j, o'.Waiting j → o.Waiting j ∧ o'.generations j = o.generations j)
    (houtbox : ∀ job, o'.Waiting job.id → .compile job ∈ o.outbox → .compile job ∈ o'.outbox) :
    Tended t o' := by
  refine ⟨hm, fun j hj => ?_⟩
  obtain ⟨hold, hgenerations⟩ := hwaiting j hj
  obtain ⟨g, hg, hawaited⟩ := h.attended j hold
  refine ⟨g, hgenerations.trans hg, hawaited.mono (fun job hjob hid => ?_) fun _ ha _ => ha⟩
  exact List.mem_append.2 ((List.mem_append.1 hjob).imp id (houtbox job (hid ▸ hj)))

/-- A node that is put in its place does not wait if it is due, or not ready. -/
theorem waiting_set {o' : Outlook} {l' : Option Outline}
    (hline : o'.outline? = (o.set k l').outline?)
    (hdue : ∀ j, j ≠ k → j ∈ o.due → j ∈ o'.due)
    (hk : ∀ l, l' = some l → l.ready = true → k ∈ o'.due) :
    ∀ j, o'.Waiting j → j ≠ k ∧ o.Waiting j := by
  rintro j ⟨hnot, l, hl, hready, hnone⟩
  rw [hline, outline?_set] at hl
  split at hl
  · next hj => exact absurd (hk l hl hready) (hj ▸ hnot)
  · next hj => exact ⟨hj, fun hin => hnot (hdue j hj hin), l, hl, hready, hnone⟩

theorem waiting_learn : ∀ j, ({ o.set k (some { l with ready := true }) with
    due := k :: o.due } : Outlook).Waiting j → j ≠ k ∧ o.Waiting j :=
  waiting_set rfl (fun _ _ hin => List.mem_cons_of_mem _ hin) fun _ _ _ => List.mem_cons_self

/-- Only the node whose job is queued begins to wait. -/
theorem waiting_request {due : List String} (hdue : o.due = k :: due) {j : String} (hjk : j ≠ k)
    (hj : ({ o.request k l with due } : Outlook).Waiting j) : o.Waiting j := by
  obtain ⟨hnot, hline⟩ := hj
  refine ⟨fun hin => ?_, hline⟩
  rw [hdue] at hin
  exact hnot ((List.mem_cons.1 hin).resolve_left hjk)

theorem waiting_lapse (hdue : l.ready = true → k ∈ o.due) :
    ∀ j, (o.lapse k l).Waiting j → j ≠ k ∧ o.Waiting j :=
  waiting_set rfl (fun _ _ hin => hin) fun _ hl' hready => hdue (Option.some.inj hl' ▸ hready)

theorem waiting_remove : ∀ j, (o.remove k).Waiting j → j ≠ k ∧ o.Waiting j :=
  waiting_set rfl (fun j hj hin => List.mem_filter.2 ⟨hin, by simpa using hj⟩)
    fun _ hl' => absurd hl' (by simp)

/-- Nobody waits after a reset: only nodes without dependencies are ready, and they are due. -/
theorem not_waiting_reset {due : List String}
    (hdue : ∀ k l, o.outline? k = some l → l.dependencies = [] → k ∈ due) (j : String) :
    ¬ (o.reset due).Waiting j := by
  rintro ⟨hnot, l', hl', hready, -⟩
  obtain ⟨l, hl, rfl⟩ := Option.map_eq_some_iff.1 hl'
  exact absurd (hdue j l hl (of_decide_eq_true hready)) hnot

/-- The node whose job is queued waits for it from then on; the others wait as before. -/
theorem Tended.request (h : Tended t o) {due : List String} (hdue : o.due = k :: due)
    (hm : Matched t { o.request k l with due }) : Tended t { o.request k l with due } := by
  refine ⟨hm, fun j hj => ?_⟩
  show ∃ g, (if j = k then some (o.generation + 1) else o.generations j) = some g ∧ _
  split
  · next hjk =>
    refine ⟨_, rfl, .inl ⟨_, List.mem_append_right _ (List.mem_append_right _
      List.mem_cons_self), hjk.symm, rfl⟩⟩
  · next hjk =>
    obtain ⟨g, hg, hawaited⟩ := h.attended j (waiting_request hdue hjk hj)
    refine ⟨g, hg, hawaited.mono (fun job hjob hid => ?_) fun _ ha _ => ha⟩
    -- Only jobs of the node itself are taken out of the outbox.
    have hne : ¬ job.id = k := fun he => hjk (hid ▸ he)
    refine List.mem_append.2 ((List.mem_append.1 hjob).imp id fun hjob => ?_)
    exact List.mem_append_left _
      (List.mem_filter.2 ⟨hjob, by simpa [CompilerCommand.isCompileOf] using hne⟩)

/-- Every move keeps all nodes tended. -/
theorem kept_tended (t : Traffic) : Kept (Tended t) := by
  intro o o' hmove h
  have hm := kept_matched t o o' hmove h.toMatched
  cases hmove with
  | advance hadvance =>
    cases hadvance with
    | learn =>
      exact h.of_quiet hm (fun j hj => ⟨(waiting_learn j hj).2, rfl⟩) fun _ _ hjob => hjob
    | @request k l due hmode hdue hl hready hnone hdeps hk =>
      exact h.request hdue hm
    | compile hmode => simp [h.deferred_eq] at hmode
  | lapse hlapse =>
    obtain @⟨k, l, hnone, hdue, hk⟩ := hlapse
    exact h.of_quiet hm (fun j hj => ⟨(waiting_lapse hdue j hj).2, rfl⟩)
      fun _ _ hjob => compile_mem_lapse.2 hjob
  | ask k =>
    refine h.of_quiet hm (fun j hj => ⟨?_, rfl⟩) fun _ _ hjob => hjob
    exact ⟨fun hin => hj.1 (List.mem_cons_of_mem _ hin), hj.2⟩
  | @remove k hvalue =>
    exact h.of_quiet hm (fun j hj => ⟨(waiting_remove j hj).2, if_neg (waiting_remove j hj).1⟩)
      fun job hj hjob => compile_mem_remove.2 ⟨hjob, (waiting_remove _ hj).1⟩
  | reset hdue => exact ⟨hm, fun j hj => absurd hj (not_waiting_reset hdue j)⟩

/-! ## Carrying out commands -/

/-- Taking the outbox moves its commands to the queue. -/
theorem Tended.takeOutbox (h : Tended t o) :
    Tended { t with
      given := t.given ++ o.outbox.filterMap Registry.job?
      queue := t.queue ++ o.outbox } { o with outbox := [] } := by
  refine ⟨h.toMatched.takeOutbox, fun j hj => ?_⟩
  obtain ⟨g, hg, hawaited⟩ := h.attended j hj
  refine ⟨g, hg, hawaited.mono (fun job hjob _ => ?_) fun _ ha _ => ha⟩
  exact List.mem_append_left _ hjob

/-- What is sent in another order is the same. -/
theorem mem_reordered (commands rest : List CompilerCommand) (c : CompilerCommand) :
    c ∈ (commands.filter (fun c => (Registry.job? c).isNone) ++
      (commands.filterMap Registry.job?).map .compile) ++ rest ↔ c ∈ commands ++ rest := by
  rw [Registry.map_compile_filterMap_job?, List.mem_append, Registry.mem_filter_job?,
    List.mem_append]

/-- Commands without answer are sent ahead of the jobs. -/
theorem Matched.reorder (h : Matched t o) (houtbox : o.outbox = []) :
    Matched { t with queue := t.queue.filter (fun c => (Registry.job? c).isNone) ++
      (t.queue.filterMap Registry.job?).map .compile } o := by
  have hmem := mem_reordered t.queue
  have hrests : ∀ k x, o.Rests t k x → o.Rests { t with
      queue := t.queue.filter (fun c => (Registry.job? c).isNone) ++
        (t.queue.filterMap Registry.job?).map .compile } k x :=
    fun k x hx => ⟨hx.1, fun c hc => hx.2 c ((hmem _ c).1 hc)⟩
  -- Commands without answer touch nothing that a counting job ahead of them has left.
  have hlast : (t.queue).Pairwise fun c c' => ∀ job, c = .compile job →
      o.Live job.id job.generation → ¬ c'.Touches job.id := by
    have hlast := h.last
    rwa [houtbox, List.append_nil] at hlast
  refine ⟨h.toAnswerable, h.deferred_eq, h.valued, fun job hjob => h.given_of_queue job ?_,
    h.given_of_answers,
    fun k x hx => hrests k x (h.held k x hx), fun job hjob => h.current job ((hmem _ _).1 hjob), ?_,
    fun a ha hl => ?_⟩
  · have hqueue := (hmem [] (.compile job)).1
    rw [List.append_nil, List.append_nil] at hqueue
    exact hqueue hjob
  · rw [houtbox, List.append_nil, Registry.map_compile_filterMap_job?, List.pairwise_append]
    refine ⟨hlast.filter _, hlast.filter _, ?_⟩
    exact fun c hc _ _ job he => absurd he (Registry.ne_compile_of_mem_filter t.queue c hc job)
  · obtain ⟨x, hx, hrest, hexpected⟩ := h.answered a ha hl
    exact ⟨x, hx, hrests _ x hrest, hexpected⟩

theorem Tended.reorder (h : Tended t o) (houtbox : o.outbox = []) :
    Tended { t with queue := t.queue.filter (fun c => (Registry.job? c).isNone) ++
      (t.queue.filterMap Registry.job?).map .compile } o := by
  refine ⟨h.toMatched.reorder houtbox, fun j hj => ?_⟩
  obtain ⟨g, hg, hawaited⟩ := h.attended j hj
  exact ⟨g, hg, hawaited.mono (fun job hjob _ => (mem_reordered _ _ _).2 hjob) fun _ ha _ => ha⟩

/-- A message that is no job is handled. -/
theorem Tended.handle (h : Tended t o) {c : CompilerCommand} {rest : List CompilerCommand}
    (hqueue : t.queue = c :: rest) (hjob : ∀ job, c ≠ .compile job) {s : Compiler}
    (hcache : s.get? = t.cache) :
    Tended { t with queue := rest, cache := (s.handle c.toEnvelope).2.get? } o := by
  refine ⟨h.toMatched.handle hqueue hjob hcache, fun j hj => ?_⟩
  obtain ⟨g, hg, hawaited⟩ := h.attended j hj
  refine ⟨g, hg, hawaited.mono (fun job hin _ => ?_) fun _ ha _ => ha⟩
  rw [hqueue, List.cons_append] at hin
  exact (List.mem_cons.1 hin).resolve_left fun he => hjob job he.symm

/-- A job is compiled and answered. -/
theorem Tended.compile (h : Tended t o) {job : CompileJob} {rest : List CompilerCommand}
    (hqueue : t.queue = .compile job :: rest) {c : Compiler} (hcache : c.get? = t.cache)
    (hready : ∀ k l, o.outline? k = some l → l.ready = true →
      ∀ d ∈ l.dependencies, (o.value? d).isSome) :
    Tended { t with
      queue := rest
      cache := (c.compile job).2.get?
      answers := t.answers ++ [(job.id, .ofResult job.generation (c.compile job).1)] } o := by
  refine ⟨h.toMatched.compile hqueue hcache hready, fun j hj => ?_⟩
  obtain ⟨g, hg, hawaited⟩ := h.attended j hj
  refine ⟨g, hg, ?_⟩
  rcases hawaited with ⟨job', hin, hid, hgen⟩ | ⟨a, ha, hid⟩
  · rw [hqueue, List.cons_append] at hin
    rcases List.mem_cons.1 hin with he | hin
    · obtain rfl := CompilerCommand.compile.inj he
      refine .inr ⟨_, List.mem_append_right _ List.mem_cons_self, hid, ?_⟩
      rw [CompileOutcome.generation_ofResult, hgen]
    · exact .inl ⟨job', hin, hid, hgen⟩
  · exact .inr ⟨a, List.mem_append_left _ ha, hid⟩

/-- Messages that are no jobs are handled one after the other. -/
theorem Tended.handleAll {commands rest : List CompilerCommand}
    (hjob : ∀ command ∈ commands, ∀ job, command ≠ .compile job) :
    ∀ {t : Traffic} {c : Compiler}, o.Tended t → t.queue = commands ++ rest → c.get? = t.cache →
      o.Tended { t with
        queue := rest
        cache := (c.handleAll (commands.map (·.toEnvelope))).2.get? } := by
  induction commands with
  | nil =>
    intro t c h hqueue hcache
    rw [← show t.queue = rest from hqueue]
    show o.Tended { t with cache := c.get? }
    rw [hcache]
    exact h
  | cons command commands ih =>
    intro t c h hqueue hcache
    obtain ⟨hfirst, hothers⟩ := List.forall_mem_cons.1 hjob
    have hrest := ih hothers (h.handle hqueue hfirst hcache) rfl rfl
    exact hrest

/-- Jobs are compiled and answered one after the other. -/
theorem Tended.answerAll
    (hready : ∀ k l, o.outline? k = some l → l.ready = true →
      ∀ d ∈ l.dependencies, (o.value? d).isSome) {jobs : List CompileJob} :
    ∀ {t : Traffic} {c : Compiler}, o.Tended t → t.queue = jobs.map .compile → c.get? = t.cache →
      o.Tended { t with
        queue := []
        cache := (c.answerAll jobs).2.get?
        answers := t.answers ++ (c.answerAll jobs).1 } := by
  induction jobs with
  | nil =>
    intro t c h hqueue hcache
    show o.Tended { t with queue := [], cache := c.get?, answers := t.answers ++ [] }
    rw [hcache, List.append_nil, ← show t.queue = [] from hqueue]
    exact h
  | cons job jobs ih =>
    intro t c h hqueue hcache
    have hrest := ih (h.compile hqueue hcache hready) rfl rfl
    rw [List.append_assoc] at hrest
    exact hrest

/-! ## Taking in answers -/

/-- Who waits for another job does not mind that an answer is gone. -/
theorem Awaited.forget {a : String × CompileOutcome} {rest : List (String × CompileOutcome)}
    {g : Nat} (h : o.Awaited t k g) (ha : t.answers = a :: rest)
    (hne : a.1 = k → a.2.generation ≠ g) : o.Awaited { t with answers := rest } k g := by
  rcases h with hjob | ⟨b, hb, hid, hgen⟩
  · exact .inl hjob
  · rw [ha] at hb
    rcases List.mem_cons.1 hb with rfl | hb
    · exact absurd hgen (hne hid)
    · exact .inr ⟨b, hb, hid, hgen⟩

section Answers

variable {a : String × CompileOutcome} {rest : List (String × CompileOutcome)}

/-- Nobody waits for an answer that does not count any more. -/
theorem Tended.stale (h : Tended t o) (ha : t.answers = a :: rest)
    (hstale : o.generations a.1 ≠ some a.2.generation) : Tended { t with answers := rest } o := by
  refine ⟨h.toMatched.forget fun b hb => ha ▸ List.mem_cons_of_mem _ hb, fun j hj => ?_⟩
  obtain ⟨g, hgen, hawaited⟩ := h.attended j hj
  refine ⟨g, hgen, hawaited.forget ha fun hid he => hstale ?_⟩
  rw [hid, he]
  exact hgen

/-- An answer that counts is only dropped if its node is not ready, and so does not wait. -/
theorem Tended.dropped (h : Tended t o) (ha : t.answers = a :: rest)
    (hcurrent : o.generations a.1 = some a.2.generation)
    (hnot : ∀ x l, a.2 = .compiled a.2.generation x → o.outline? a.1 = some l → l.ready = false) :
    Tended { t with answers := rest } (o.supersede a.1) := by
  refine ⟨(h.toMatched.supersede a.1).forget fun b hb => ha ▸ List.mem_cons_of_mem _ hb,
    fun j hj => ?_⟩
  obtain ⟨g, hgen, hawaited⟩ := h.attended j hj
  have hne : j ≠ a.1 := by
    rintro rfl
    obtain ⟨hdue, l, hl, hready, -⟩ := hj
    obtain ⟨x, hx, -⟩ := h.answered a (ha ▸ List.mem_cons_self) ⟨hcurrent, hdue, l, hl, hready⟩
    simp [hnot x l hx hl] at hready
  exact ⟨g, (if_neg hne).trans hgen, hawaited.forget ha fun hid => absurd hid.symm hne⟩

/-- The node of an answer that is taken in waits no longer. -/
theorem Tended.arrive {x : Json} (h : Tended t o) (ha : t.answers = a :: rest)
    (hm : Matched t (o.arrive a.1 l x)) :
    Tended { t with answers := rest } (o.arrive a.1 l x) := by
  refine ⟨hm.forget fun b hb => ha ▸ List.mem_cons_of_mem _ hb, fun j hj => ?_⟩
  obtain ⟨hdue, l', hl', hready, hnone⟩ := hj
  change (if j = a.1 then some _ else o.outline? j) = some l' at hl'
  split at hl'
  · rw [← Option.some.inj hl'] at hnone
    simp at hnone
  · next hne =>
    obtain ⟨g, hgen, hawaited⟩ := h.attended j ⟨hdue, l', hl', hready, hnone⟩
    exact ⟨g, (if_neg hne).trans hgen, hawaited.forget ha fun hid => absurd hid.symm hne⟩

end Answers

end Outlook

namespace Registry

variable {ν : Type} [Node ν] [NodeKind ν] [LawfulNode ν]
variable {verifier : Option Verifier} {r : Registry ν} {t : Traffic}

/-- Taking in the first answer. What follows has effect on nodes further up alone. -/
theorem Coherent.tended_applyOutcome {width : Nat} {height : String → Nat}
    (h : Coherent verifier r) (hg : Graded width height r) (ht : (r.outlook []).Tended t)
    {a : String × CompileOutcome} {rest : List (String × CompileOutcome)}
    (ha : t.answers = a :: rest) {X : Outlook → Prop} (hx : X (r.outlook []))
    (hX : ∀ o o', Outlook.Advance (fun j => height j < height a.1) o o' → X o → X o')
    (hsupersede : ∀ o, X o → X (o.supersede a.1))
    (harrive : ∀ o l x, X o → X (o.arrive a.1 l x)) :
    Coherent verifier (r.applyOutcome a.1 a.2) ∧ Graded width height (r.applyOutcome a.1 a.2) ∧
      ((r.applyOutcome a.1 a.2).outlook []).Tended { t with answers := rest } ∧
      X ((r.applyOutcome a.1 a.2).outlook []) := by
  have hfirst : a ∈ t.answers := ha ▸ List.mem_cons_self
  obtain ⟨hcoherent, hgraded, hanswered⟩ :=
    h.applyOutcome_spec hg a.1 a.2 (value?_of_answer ht.toMatched hfirst)
  refine ⟨hcoherent, hgraded, ?_⟩
  clear hcoherent hgraded
  generalize r.applyOutcome a.1 a.2 = r' at hanswered ⊢
  -- The answer is stale, used up without effect, or taken in. Each leaves the others tended.
  cases hanswered with
  | stale hstale => exact ⟨ht.stale ha hstale, hx⟩
  | dropped hcurrent hnot houtlook =>
    rw [houtlook]
    refine ⟨ht.dropped ha hcurrent fun x l hcompiled hl => ?_, hsupersede _ hx⟩
    obtain ⟨v, hv, rfl⟩ := Option.map_eq_some_iff.1 hl
    exact decide_eq_false (hnot x v hcompiled hv)
  | @taken _ x v hcurrent heq hv hready hkept =>
    have hmatched := h.matched_arrive ht.toMatched hfirst hcurrent heq hv hready
    refine hkept (fun o => o.Tended { t with answers := rest } ∧ X o) ?_
      ⟨ht.arrive ha hmatched, harrive _ _ _ hx⟩
    intro o o' hadvance ⟨htended, hxo⟩
    exact ⟨Outlook.kept_tended _ o o' (.advance hadvance) htended, hX o o' hadvance hxo⟩

end Registry

end LayeredAccess
