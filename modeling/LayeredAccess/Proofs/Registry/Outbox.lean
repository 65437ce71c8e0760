/-
  LayeredAccess.Proofs.Registry.Outbox

  What waits in the outbox of a registry, and what the compiler that it is
  meant for keeps.

  A queued job is the last request for its node, and the only one in the
  outbox. The compiler may hold values that the registry has dropped, or never
  taken in, also of nodes that are gone. But whatever there is of a node that is
  gone, or could still come about, will be dropped by a command that is on its
  way (`Swept`). So when nothing is on its way the compiler only has values of
  nodes that are registered, and of those that hold a value, this value.
-/
import LayeredAccess.Proofs.Registry.Exchange

namespace LayeredAccess

/-! ## What commands leave in a cache -/

namespace CompilerCommand

/-- Can there be a value of a node after a command, if there can be one before? -/
def leaves (k : String) (present : Bool) : CompilerCommand → Bool
  | .compile job => present || job.id == k
  | .evict ids => present && decide (k ∉ ids)
  | .clear => false

/-- Can there be a value of a node after some commands? -/
def leavesAll (k : String) (present : Bool) (commands : List CompilerCommand) : Bool :=
  commands.foldl (leaves k) present

variable {k : String}

@[simp] theorem leavesAll_append (k : String) (present : Bool) (cs cs' : List CompilerCommand) :
    leavesAll k present (cs ++ cs') = leavesAll k (leavesAll k present cs) cs' :=
  List.foldl_append

theorem leaves_mono {present present' : Bool} (h : present = true → present' = true)
    (c : CompilerCommand) (hc : leaves k present c = true) : leaves k present' c = true := by
  cases c with
  | compile job => exact Bool.or_eq_true_iff.2 ((Bool.or_eq_true_iff.1 hc).imp h id)
  | evict ids => exact Bool.and_eq_true_iff.2 ((Bool.and_eq_true_iff.1 hc).imp h id)
  | clear => exact hc

theorem leavesAll_mono {present present' : Bool} (h : present = true → present' = true)
    (cs : List CompilerCommand) (hc : leavesAll k present cs = true) :
    leavesAll k present' cs = true := by
  induction cs generalizing present present' with
  | nil => exact h hc
  | cons c cs ih => exact ih (leaves_mono h c) hc

/-- Where there is no value, only a job of the node brings one. -/
theorem leavesAll_false {cs : List CompilerCommand} (h : ∀ c ∈ cs, c.isCompileOf k = false) :
    leavesAll k false cs = false := by
  induction cs with
  | nil => rfl
  | cons c cs ih =>
    have hc : leaves k false c = false := by
      have hnot := h c List.mem_cons_self
      cases c with
      | compile job => simpa [leaves, isCompileOf] using hnot
      | evict | clear => simp [leaves]
    have hrest := ih fun c' hc' => h c' (List.mem_cons_of_mem _ hc')
    exact (congrArg (leavesAll k · cs) hc).trans hrest

/-- Jobs of other nodes do not matter. -/
theorem leavesAll_filter {j : String} (hj : j ≠ k) (present : Bool) (cs : List CompilerCommand) :
    leavesAll j present (cs.filter fun c => !c.isCompileOf k) = leavesAll j present cs := by
  induction cs generalizing present with
  | nil => rfl
  | cons c cs ih =>
    rw [List.filter_cons]
    split
    · exact ih _
    · next hc =>
      have hleaves : leaves j present c = present := by
        cases c with
        | compile job =>
          have hid : job.id = k := by simpa [isCompileOf] using hc
          simp [leaves, hid, Ne.symm hj]
        | evict | clear => simp [isCompileOf] at hc
      exact (ih present).trans (congrArg (leavesAll j · cs) hleaves.symm)

/-- A compiler that handles a command has no values but those that the command can leave. -/
theorem leaves_of_handle (s : Compiler) (c : CompilerCommand)
    (h : ((s.handle c.toEnvelope).2.get? k).isSome = true) :
    leaves k (s.get? k).isSome c = true := by
  cases c with
  -- Only the node of the job can get a value.
  | compile job =>
    rw [leaves, Bool.or_eq_true, beq_iff_eq]
    by_cases hk : k = job.id
    · exact .inr hk.symm
    · refine .inl ?_
      by_cases hword : job.generation < wordLimit
      · rw [Compiler.handle_compile hword, s.get?_compile job hk] at h
        exact h
      · obtain ⟨e, he⟩ := Compiler.handle_compile_error (Nat.le_of_not_lt hword) s
        rw [he] at h
        exact h
  | evict ids =>
    rw [Compiler.handle_evict, Compiler.get?_evict] at h
    split at h
    · simp at h
    · next hk => simpa [leaves, hk] using h
  | clear => simp [Compiler.handle, toEnvelope] at h

end CompilerCommand

/-! ## Order -/

namespace Outlook

open CompilerCommand (leavesAll)

/-- Every queued job is the last request for a registered node, and was asked for later than those
that come before it or have been taken. -/
structure Queued (given : List CompileJob) (o : Outlook) : Prop where
  increasing : (o.outbox.filterMap Registry.job?).Pairwise fun j j' =>
    j.id ≠ j'.id ∧ j.generation < j'.generation
  registered : ∀ job, .compile job ∈ o.outbox → (o.outline? job.id).isSome
  latest : ∀ job, .compile job ∈ o.outbox → o.generations job.id = some job.generation
  given_lt : ∀ job ∈ given, ∀ job', .compile job' ∈ o.outbox → job.generation < job'.generation

/-- Of a node that is gone the compiler has no value when all commands have been carried out. -/
def Swept (t : Traffic) (o : Outlook) : Prop :=
  ∀ k, o.outline? k = none → leavesAll k (t.cache k).isSome (t.queue ++ o.outbox) = false

variable {given : List CompileJob} {t : Traffic} {o o' : Outlook} {k : String} {l : Outline}

/-- With an empty outbox nothing is out of order. -/
theorem queued_of_nil (houtbox : o.outbox = []) (given : List CompileJob) : Queued given o := by
  refine ⟨?_, ?_, ?_, ?_⟩ <;> simp [houtbox]

/-- What queues no job keeps the order, if nodes with queued jobs stay and get no new generation. -/
theorem Queued.of_sublist (h : Queued given o)
    (hsub : (o'.outbox.filterMap Registry.job?).Sublist (o.outbox.filterMap Registry.job?))
    (hline : ∀ job, .compile job ∈ o'.outbox → (o.outline? job.id).isSome →
      (o'.outline? job.id).isSome)
    (hgenerations : ∀ job, .compile job ∈ o.outbox → .compile job ∈ o'.outbox →
      o'.generations job.id = o.generations job.id) : Queued given o' := by
  have hmem : ∀ job, .compile job ∈ o'.outbox → .compile job ∈ o.outbox := fun job hjob =>
    (Registry.mem_filterMap_job? job).1 (hsub.subset ((Registry.mem_filterMap_job? job).2 hjob))
  exact ⟨h.increasing.sublist hsub,
    fun job hjob => hline job hjob (h.registered job (hmem job hjob)),
    fun job hjob => (hgenerations job (hmem job hjob) hjob).trans (h.latest job (hmem job hjob)),
    fun job hin job' hjob => h.given_lt job hin job' (hmem job' hjob)⟩

/-- The jobs in an outbox to which a command has been added that is no job. -/
theorem jobs_append {cs extra : List CompilerCommand} (h : ∀ job, .compile job ∉ extra) :
    (cs ++ extra).filterMap Registry.job? = cs.filterMap Registry.job? := by
  have hnil : extra.filterMap Registry.job? = [] :=
    List.eq_nil_iff_forall_not_mem.2 fun job hjob =>
      h job ((Registry.mem_filterMap_job? job).1 hjob)
  rw [List.filterMap_append, hnil, List.append_nil]

/-- A new job comes last, in the place of an older one for the same node. -/
theorem Queued.request (h : Queued given o) (ha : o.Answerable given) (hl : o.outline? k = some l) :
    Queued given (o.request k l) := by
  have hle : ∀ job, .compile job ∈ o.outbox → job.generation ≤ o.generation :=
    fun job hjob => ha.le_generation _ _ ⟨job, .inr hjob, rfl, rfl⟩
  -- The new job has the newest generation, so the order stays.
  refine ⟨?_, fun job hjob => ?_, fun job hjob => ?_, fun job hin job' hjob => ?_⟩
  · show ((o.outbox.filter _ ++ [_]).filterMap Registry.job?).Pairwise _
    rw [List.filterMap_append, List.pairwise_append]
    refine ⟨h.increasing.sublist (List.filter_sublist.filterMap _),
      List.pairwise_singleton _ _, fun job hjob job' hjob' => ?_⟩
    obtain rfl := List.mem_singleton.1 hjob'
    obtain ⟨hin, hid⟩ := List.mem_filter.1 ((Registry.mem_filterMap_job? job).1 hjob)
    exact ⟨by simpa [CompilerCommand.isCompileOf] using hid, Nat.lt_succ_of_le (hle job hin)⟩
  · rcases compile_mem_request.1 hjob with ⟨hin, -⟩ | rfl
    · exact h.registered job hin
    · exact Option.isSome_iff_exists.2 ⟨l, hl⟩
  · show (if job.id = k then some (o.generation + 1) else o.generations job.id) = _
    rcases compile_mem_request.1 hjob with ⟨hin, hid⟩ | rfl
    · rw [if_neg hid]
      exact h.latest job hin
    · exact if_pos rfl
  · rcases compile_mem_request.1 hjob with ⟨hjob, -⟩ | rfl
    · exact h.given_lt job hin job' hjob
    · exact Nat.lt_succ_of_le (ha.le_generation _ _ ⟨job, .inl hin, rfl, rfl⟩)

/-- What removes no node and leaves the outbox as it is does not matter. -/
theorem Swept.of_same (h : Swept t o) (houtbox : o'.outbox = o.outbox)
    (hline : ∀ j, (o.outline? j).isSome → (o'.outline? j).isSome) : Swept t o' := by
  intro j hj
  rw [houtbox]
  exact h j (Option.not_isSome_iff_eq_none.1 fun hsome => by simpa [hj] using hline j hsome)

/-- A node that is changed is still there, as are all others. -/
theorem isSome_outline?_set (o : Outlook) (k : String) (l : Outline) (j : String)
    (hj : (o.outline? j).isSome) : ((o.set k (some l)).outline? j).isSome := by
  rw [outline?_set]
  split
  · rfl
  · exact hj

/-- Commands may be added that are no jobs of nodes that are gone, and jobs of another node
dropped. -/
theorem Swept.leavesAll_eq {j : String} {kept extra : List CompilerCommand} (h : Swept t o)
    (hj : o.outline? j = none)
    (hkept : kept = o.outbox ∨ j ≠ k ∧ kept = o.outbox.filter fun c => !c.isCompileOf k)
    (hextra : ∀ c ∈ extra, c.isCompileOf j = false) :
    leavesAll j (t.cache j).isSome (t.queue ++ (kept ++ extra)) = false := by
  have hfold := h j hj
  rw [CompilerCommand.leavesAll_append] at hfold
  have hsame : leavesAll j (leavesAll j (t.cache j).isSome t.queue) kept = false := by
    rcases hkept with rfl | ⟨hjk, rfl⟩
    · exact hfold
    · rw [CompilerCommand.leavesAll_filter hjk, hfold]
  simp only [CompilerCommand.leavesAll_append, hsame]
  exact CompilerCommand.leavesAll_false hextra

/-- What is on its way matches the registry, its outbox is in order, and nodes that are gone leave
nothing behind. -/
structure Orderly (t : Traffic) (o : Outlook) : Prop extends Matched t o where
  queued : Queued t.given o
  swept : Swept t o

theorem orderly_empty (hnone : ∀ k, o.outline? k = none) (houtbox : o.outbox = [])
    (hmode : o.deferred = true) : Orderly ⟨[], [], fun _ => none, []⟩ o := by
  refine ⟨matched_empty hnone houtbox hmode _, queued_of_nil houtbox _, fun k _ => ?_⟩
  simp [houtbox, leavesAll]

/-- Every move keeps the outbox in order. -/
theorem Queued.of_move (h : Queued given o) (ha : o.Answerable given) (hmode : o.deferred = true)
    (hmove : Move o o') : Queued given o' := by
  cases hmove with
  | advance hadvance =>
    cases hadvance with
    | learn =>
      exact h.of_sublist (List.Sublist.refl _)
        (fun job _ => isSome_outline?_set _ _ _ job.id) fun _ _ _ => rfl
    | request _ hdue hl =>
      exact (h.request ha hl).of_sublist (List.Sublist.refl _) (fun _ _ hl => hl) fun _ _ _ => rfl
    | compile hinline => simp [hmode] at hinline
  | lapse hlapse =>
    obtain @⟨k, l, hnone, hdue, hk⟩ := hlapse
    refine h.of_sublist ?_ (fun job _ => isSome_outline?_set _ _ _ job.id) fun _ _ _ => rfl
    have hjobs : (o.lapse k l).outbox.filterMap Registry.job? =
        o.outbox.filterMap Registry.job? :=
      jobs_append fun job => by split <;> simp
    rw [hjobs]
  | ask => exact h.of_sublist (List.Sublist.refl _) (fun _ _ hl => hl) fun _ _ _ => rfl
  -- The jobs of the node go with it.
  | @remove k hvalue =>
    have hjobs : (o.remove k).outbox.filterMap Registry.job? =
        (o.outbox.filter fun c => !c.isCompileOf k).filterMap Registry.job? :=
      jobs_append fun job => by split <;> simp
    have hother : ∀ job, .compile job ∈ (o.remove k).outbox → job.id ≠ k :=
      fun _ hjob => (compile_mem_remove.1 hjob).2
    refine h.of_sublist (hjobs ▸ List.filter_sublist.filterMap _) (fun job hjob hl => ?_)
      fun job _ hjob => if_neg (hother job hjob)
    have hline : (o.remove k).outline? job.id = o.outline? job.id := if_neg (hother job hjob)
    exact hline ▸ hl
  | @reset due hdue =>
    have houtbox : (o.reset due).outbox = [.clear] := if_pos hmode
    refine h.of_sublist ?_ (fun job hjob => ?_) fun job _ hjob => ?_
    · rw [houtbox]
      exact List.nil_sublist _
    all_goals simp [houtbox] at hjob

/-- After every move the commands on their way still drop what is left of nodes that are gone. -/
theorem Orderly.swept_of_move (h : Orderly t o) (hmove : Move o o') : Swept t o' := by
  cases hmove with
  | advance hadvance =>
    cases hadvance with
    | learn => exact h.swept.of_same rfl (isSome_outline?_set _ _ _)
    -- The job is for a registered node, so it brings no value of one that is gone.
    | @request k l due hmode hdue hl =>
      intro j hj
      have hjk : j ≠ k := by
        rintro rfl
        exact absurd (hj.symm.trans hl) (by simp)
      refine h.swept.leavesAll_eq hj (.inr ⟨hjk, rfl⟩) fun c hc => ?_
      obtain rfl := List.mem_singleton.1 hc
      simpa [CompilerCommand.isCompileOf] using Ne.symm hjk
    | compile hmode => simp [h.deferred_eq] at hmode
  | lapse hlapse =>
    obtain @⟨k, l, hnone, hdue, hk⟩ := hlapse
    intro j hj
    have hold : o.outline? j = none := by
      rw [← Option.not_isSome_iff_eq_none] at hj ⊢
      exact mt (isSome_outline?_set o k l j) hj
    refine h.swept.leavesAll_eq (k := k) hold (.inl rfl) fun c hc => ?_
    split at hc
    · obtain rfl := List.mem_singleton.1 hc
      rfl
    · simp at hc
  | ask => exact h.swept.of_same rfl fun _ hj => hj
  | @remove k hvalue =>
    intro j hj
    by_cases hjk : j = k
    -- The last command evicts the node itself.
    · subst hjk
      show leavesAll j _ (t.queue ++ (_ ++ if o.deferred = true then _ else _)) = false
      rw [if_pos h.deferred_eq, ← List.append_assoc, CompilerCommand.leavesAll_append]
      simp [leavesAll, CompilerCommand.leaves]
    · refine h.swept.leavesAll_eq ((if_neg hjk).symm.trans hj) (.inr ⟨hjk, rfl⟩) fun c hc => ?_
      split at hc
      · obtain rfl := List.mem_singleton.1 hc
        rfl
      · simp at hc
  -- The last command drops everything.
  | @reset due hdue =>
    intro j hj
    have houtbox : (o.reset due).outbox = [.clear] := if_pos h.deferred_eq
    rw [houtbox, CompilerCommand.leavesAll_append]
    rfl

/-- Every move keeps what is on its way in order. -/
theorem kept_orderly (t : Traffic) : Kept (Orderly t) := fun o o' hmove h =>
  ⟨kept_matched t o o' hmove h.toMatched, h.queued.of_move h.toAnswerable h.deferred_eq hmove,
    h.swept_of_move hmove⟩

/-- A node may get a new generation if no job of it is queued. -/
theorem Queued.supersede (h : Queued given o)
    (hnone : ∀ job, .compile job ∈ o.outbox → job.id ≠ k) : Queued given (o.supersede k) :=
  h.of_sublist (List.Sublist.refl _) (fun _ _ hl => hl) fun job hjob _ => if_neg (hnone job hjob)

/-- As long as a job that has been given away is the last request for its node, there is none of
its node in the outbox. -/
theorem Queued.ne_of_given (h : Queued given o) {g : Nat}
    (hgiven : ∃ job ∈ given, job.id = k ∧ job.generation = g)
    (hcurrent : o.generations k = some g) : ∀ job, .compile job ∈ o.outbox → job.id ≠ k := by
  obtain ⟨job', hgiven, -, rfl⟩ := hgiven
  intro job hjob hid
  have hlatest := h.latest job hjob
  rw [hid, hcurrent, Option.some.injEq] at hlatest
  have hlt := h.given_lt job' hgiven job hjob
  omega

/-- A value may come to a node if no job of it is queued. -/
theorem Queued.arrive (h : Queued given o)
    (hnone : ∀ job, .compile job ∈ o.outbox → job.id ≠ k) (l : Outline) (x : Json) :
    Queued given (o.arrive k l x) :=
  (h.supersede hnone).of_sublist (List.Sublist.refl _)
    (fun job _ => isSome_outline?_set _ _ _ job.id) fun _ _ _ => rfl

/-- The outbox is taken and its commands are put at the end of the queue. -/
theorem Orderly.takeOutbox (h : Orderly t o) :
    Orderly { t with
      given := t.given ++ o.outbox.filterMap Registry.job?
      queue := t.queue ++ o.outbox } { o with outbox := [] } := by
  refine ⟨h.toMatched.takeOutbox, queued_of_nil rfl _, fun k hk => ?_⟩
  rw [List.append_nil]
  exact h.swept k hk

/-- The compiler handles the first command. -/
theorem Swept.serve (h : Swept t o) {c : CompilerCommand} {rest : List CompilerCommand}
    (hqueue : t.queue = c :: rest) {s : Compiler} (hcache : s.get? = t.cache)
    (answers : List (String × CompileOutcome)) :
    Swept { t with queue := rest, cache := (s.handle c.toEnvelope).2.get?, answers } o := by
  intro k hk
  have hbefore := h k hk
  rw [hqueue, ← hcache] at hbefore
  rw [Bool.eq_false_iff] at hbefore ⊢
  exact mt (CompilerCommand.leavesAll_mono (CompilerCommand.leaves_of_handle s c) _) hbefore

end Outlook

/-! ## Exchanges -/

namespace Registry

variable {ν : Type} [Node ν] [NodeKind ν] [LawfulNode ν]
variable {verifier : Option Verifier} {r : Registry ν} {t : Traffic}

/-- Taking in one of the answers, whichever it is. -/
theorem Coherent.orderly_applyOutcome {width : Nat} {height : String → Nat}
    (h : Coherent verifier r) (hg : Graded width height r) (ho : (r.outlook []).Orderly t)
    {a : String × CompileOutcome} (ha : a ∈ t.answers) :
    ((r.applyOutcome a.1 a.2).outlook []).Orderly t := by
  obtain ⟨-, -, hanswered⟩ := h.applyOutcome_spec hg a.1 a.2 (value?_of_answer ho.toMatched ha)
  have hgiven := ho.given_of_answers a ha
  generalize r.applyOutcome a.1 a.2 = r' at hanswered ⊢
  cases hanswered with
  | stale => exact ho
  | dropped hcurrent hnot houtlook =>
    rw [houtlook]
    exact ⟨ho.toMatched.supersede a.1, ho.queued.supersede (ho.queued.ne_of_given hgiven hcurrent),
      ho.swept.of_same rfl fun _ hj => hj⟩
  | @taken _ x v hcurrent heq hv hready hkept =>
    refine hkept _ (fun o o' hadvance => Outlook.kept_orderly t o o' (.advance hadvance)) ?_
    exact ⟨h.matched_arrive ho.toMatched ha hcurrent heq hv hready,
      ho.queued.arrive (ho.queued.ne_of_given hgiven hcurrent) _ _,
      ho.swept.of_same rfl (Outlook.isSome_outline?_set _ _ _)⟩

omit [LawfulNode ν] in
theorem isSome_outline? (r : Registry ν) (due : List String) (k : String) :
    ((r.outlook due).outline? k).isSome = r.contains k := by
  simp [outlook, contains, view?]

end Registry

namespace Exchange

variable {ν : Type} [Node ν] [NodeKind ν]

/-- The messages in the channel are commands, and what is on its way is in order. -/
structure OrderlyInvariant (verifier : Option Verifier) (given : List CompileJob)
    (queue : List CompilerCommand) (s : Exchange ν) : Prop where
  coherent : Registry.Coherent verifier s.registry
  channel_eq : s.channel = queue.map CompilerCommand.toEnvelope
  orderly : (s.registry.outlook []).Orderly
    ⟨given, queue ++ s.taken, s.service.get?, s.replies.filterMap Compiler.answer?⟩

variable {verifier : Option Verifier} {given : List CompileJob} {queue : List CompilerCommand}
  {s : Exchange ν}

theorem OrderlyInvariant.toInvariant (h : OrderlyInvariant verifier given queue s) :
    Invariant verifier given queue s :=
  ⟨h.coherent, h.channel_eq, h.orderly.toMatched⟩

theorem orderlyInvariant_start (sandbox : SandboxConfig) (verifier : Option Verifier) :
    OrderlyInvariant verifier [] [] (start sandbox verifier : Exchange ν) :=
  ⟨Registry.coherent_fresh _ verifier, rfl, Outlook.orderly_empty (fun _ => rfl) rfl rfl⟩

variable [LawfulNode ν]

theorem OrderlyInvariant.serve (h : OrderlyInvariant verifier given queue s) :
    OrderlyInvariant verifier given queue.tail (s.step .serve) := by
  have hi := h.toInvariant
  have hi' := hi.serve
  refine ⟨hi'.coherent, hi'.channel_eq, ?_⟩
  cases queue with
  | nil =>
    rw [hi.step_serve_nil]
    exact h.orderly
  | cons command rest =>
    have hmatched := hi'.matched
    rw [hi.step_serve] at hmatched ⊢
    exact ⟨hmatched, h.orderly.queued, h.orderly.swept.serve rfl rfl _⟩

theorem OrderlyInvariant.step (h : OrderlyInvariant verifier given queue s) (event : Event ν) :
    ∃ given' queue', OrderlyInvariant verifier given' queue' (s.step event) := by
  have hi := h.toInvariant
  -- Commands pass from the outbox through the queue in order, whoever moves them.
  cases event with
  | operate operation =>
    have hsound := h.coherent.sound_operate operation
    exact ⟨given, queue, hsound.coherent, h.channel_eq,
      hsound.evolves _ (Outlook.kept_orderly _) h.orderly⟩
  | takeOutbox =>
    have horderly := h.orderly.takeOutbox
    rw [List.append_assoc] at horderly
    exact ⟨_, queue, hi.takeOutbox.coherent, hi.takeOutbox.channel_eq, horderly⟩
  | forward =>
    refine ⟨given, _, hi.forward.coherent, hi.forward.channel_eq, ?_⟩
    rw [step_forward, List.append_assoc, List.take_append_drop]
    exact h.orderly
  | serve => exact ⟨given, _, h.serve⟩
  | deliver place =>
    rcases step_deliver s place with heq | ⟨a, ha, heq⟩
    · rw [heq]
      exact ⟨given, queue, h⟩
    · rw [heq]
      obtain ⟨height, hg⟩ := h.coherent.wired.exists_graded
      obtain ⟨hcoherent, -, -⟩ := h.coherent.matched_applyOutcome hg hi.matched ha
      exact ⟨given, queue, hcoherent, h.channel_eq, h.coherent.orderly_applyOutcome hg h.orderly ha⟩

theorem OrderlyInvariant.run (h : OrderlyInvariant verifier given queue s)
    (events : List (Event ν)) :
    ∃ given' queue', OrderlyInvariant verifier given' queue' (s.run events) := by
  induction events generalizing s given queue with
  | nil => exact ⟨given, queue, h⟩
  | cons event rest ih =>
    obtain ⟨given', queue', h'⟩ := h.step event
    exact ih h'

/-- Nothing is on its way from the registry to the service. -/
structure Quiet (s : Exchange ν) : Prop where
  outbox_eq : s.registry.outbox = []
  taken_eq : s.taken = []
  channel_eq : s.channel = []

/-- The outbox is in order, and once nothing is on its way the service keeps what the registry
keeps. -/
structure InStep (s : Exchange ν) : Prop where
  /-- No two queued jobs are of one node, and later ones have greater generations. -/
  increasing : (s.registry.outbox.filterMap Registry.job?).Pairwise fun j j' =>
    j.id ≠ j'.id ∧ j.generation < j'.generation
  /-- A queued job is the last request for a registered node. -/
  latest : ∀ job, .compile job ∈ s.registry.outbox → s.registry.contains job.id = true ∧
    KeyMap.find? s.registry.generations job.id = some job.generation
  /-- All that the service keeps is of registered nodes. -/
  registered : s.Quiet → ∀ key, s.service.contains key = true → s.registry.contains key = true
  /-- The service has the values that nodes hold, as the registry has. -/
  agree : s.Quiet → ∀ key n x, s.registry.get? key = some n → Node.compiled n = some x →
    s.service.get? key = some x ∧ s.registry.compiled? key = some x

omit [LawfulNode ν] in
theorem OrderlyInvariant.inStep (h : OrderlyInvariant verifier given queue s) : s.InStep := by
  have hqueued := h.orderly.queued
  refine ⟨hqueued.increasing, fun job hjob => ⟨?_, hqueued.latest job hjob⟩,
    fun hquiet key hkey => ?_, fun hquiet key n x hn hx => ?_⟩
  · rw [← Registry.isSome_outline? _ []]
    exact hqueued.registered job hjob
  · have hqueue : queue = [] := List.map_eq_nil_iff.1 (h.channel_eq.symm.trans hquiet.channel_eq)
    rw [← Registry.isSome_outline? _ [], Option.isSome_iff_ne_none]
    intro hnone
    -- Nothing is on its way, so what is left in the cache is left for good.
    have hswept := h.orderly.swept key hnone
    have hcommands : (queue ++ s.taken) ++ (s.registry.outlook []).outbox = [] := by
      rw [hqueue, hquiet.taken_eq]
      exact hquiet.outbox_eq
    rw [hcommands] at hswept
    exact absurd (hswept.symm.trans hkey) Bool.false_ne_true
  · have hvalue : s.registry.value? key = some x := by
      rw [Registry.value?, Registry.view?_of_get? hn]
      exact hx
    refine ⟨(h.orderly.held key x ?_).1, (h.coherent.compiled?_eq key).trans hvalue⟩
    rw [Registry.value?_outlook]
    exact hvalue

/-- Whatever registry and service do to each other, and whenever messages come, the outbox is in
order, and what the service keeps is what the registry keeps once nothing is on its way. Generations
do not wrap: this is about fewer than `2 ^ 64` compile requests. -/
theorem inStep_run (sandbox : SandboxConfig) (verifier : Option Verifier) :
    (∀ events : List (Event EntitlementNode), ((start sandbox verifier).run events).InStep) ∧
    (∀ events : List (Event ProfileNode), ((start sandbox verifier).run events).InStep) := by
  constructor
  · intro events
    obtain ⟨given, queue, h⟩ :=
      (orderlyInvariant_start (ν := EntitlementNode) sandbox verifier).run events
    exact h.inStep
  · intro events
    obtain ⟨given, queue, h⟩ :=
      (orderlyInvariant_start (ν := ProfileNode) sandbox verifier).run events
    exact h.inStep

end Exchange

end LayeredAccess
