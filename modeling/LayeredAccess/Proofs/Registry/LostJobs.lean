/-
  LayeredAccess.Proofs.Registry.LostJobs

  What still holds of the jobs of a registry when some of them are lost on their
  way. Of every node that waits the job that counts has been given away, if it is
  not in the outbox; but nobody may be left who answers it.

  A job that has been given away never comes back into the outbox, since every
  request makes a job of its own. So a node whose job is lost is stranded: as long
  as nothing happens to it, nobody asks for it again.
-/
import LayeredAccess.Proofs.Registry.PendingJobs

namespace LayeredAccess.Outlook

variable {given : List CompileJob} {o o' : Outlook} {k : String} {l : Outline}

/-! ## Nodes that have been asked for -/

/-- Every node that waits has been asked for. -/
structure Asked (given : List CompileJob) (o : Outlook) : Prop extends Answerable given o where
  deferred_eq : o.deferred = true
  asked : ∀ k, o.Waiting k → ∃ g, o.generations k = some g ∧ o.Issued given k g
  /-- A job in the outbox is the newest of its node, -/
  newest : ∀ job, .compile job ∈ o.outbox → o.generations job.id = some job.generation
  /-- and it has not been given away. -/
  apart : ∀ job ∈ given, ∀ job', .compile job' ∈ o.outbox → job'.id = job.id →
    job'.generation ≠ job.generation

/-- Changes that make no node wait, and queue no job. -/
theorem Asked.of_quiet (h : Asked given o) (ha : o'.Answerable given) (hmode : o'.deferred = true)
    (hwaiting : ∀ j, o'.Waiting j → o.Waiting j ∧ o'.generations j = o.generations j)
    (houtbox : ∀ job, o'.Waiting job.id → .compile job ∈ o.outbox → .compile job ∈ o'.outbox)
    (hjobs : ∀ job, .compile job ∈ o'.outbox →
      .compile job ∈ o.outbox ∧ o'.generations job.id = o.generations job.id) :
    Asked given o' := by
  refine ⟨ha, hmode, fun j hj => ?_, fun job hjob => ?_, fun job hgiven job' hjob' => ?_⟩
  · obtain ⟨hold, hgenerations⟩ := hwaiting j hj
    obtain ⟨g, hg, job, hjob, rfl, rfl⟩ := h.asked j hold
    exact ⟨_, hgenerations.trans hg, job, hjob.imp id (houtbox job hj), rfl, rfl⟩
  · obtain ⟨hold, hgenerations⟩ := hjobs job hjob
    exact hgenerations.trans (h.newest job hold)
  · exact h.apart job hgiven job' (hjobs job' hjob').1

/-- A job that is queued is newer than all that have been given away. -/
theorem Asked.request (h : Asked given o) {due : List String} (hdue : o.due = k :: due)
    (ha : ({ o.request k l with due } : Outlook).Answerable given) :
    Asked given { o.request k l with due } := by
  -- A queued job is either an old one of another node, or the new one of this node.
  have hcases : ∀ job, .compile job ∈ (o.request k l).outbox →
      .compile job ∈ o.outbox ∧ job.id ≠ k ∨ job.id = k ∧ job.generation = o.generation + 1 := by
    intro job hjob
    refine (compile_mem_request.1 hjob).imp id ?_
    rintro rfl
    exact ⟨rfl, rfl⟩
  refine ⟨ha, h.deferred_eq, fun j hj => ?_, fun job hjob => ?_,
    fun job hgiven job' hjob' hid => ?_⟩
  -- For the node itself there is the new job. For the others there is the old one.
  · show ∃ g, (if j = k then some (o.generation + 1) else o.generations j) = some g ∧ _
    split
    · next hjk =>
      exact ⟨_, rfl, _, .inr (List.mem_append_right _ List.mem_cons_self), hjk.symm, rfl⟩
    · next hjk =>
      obtain ⟨g, hg, job, hjob, rfl, rfl⟩ := h.asked j (waiting_request hdue hjk hj)
      refine ⟨_, hg, job, hjob.imp id fun hjob => ?_, rfl, rfl⟩
      exact List.mem_append_left _
        (List.mem_filter.2 ⟨hjob, by simpa [CompilerCommand.isCompileOf] using hjk⟩)
  · show (if job.id = k then some (o.generation + 1) else o.generations job.id) = _
    rcases hcases job hjob with ⟨hold, hne⟩ | ⟨hid, hgen⟩
    · rw [if_neg hne]
      exact h.newest job hold
    · rw [if_pos hid, hgen]
  -- The new generation is above all that have been given away.
  · rcases hcases job' hjob' with ⟨hold, -⟩ | ⟨-, hgen⟩
    · exact h.apart job hgiven job' hold hid
    · have hle := h.le_generation job.id job.generation ⟨job, .inl hgiven, rfl, rfl⟩
      omega

/-- Every move keeps all nodes asked for. -/
theorem kept_asked (given : List CompileJob) : Kept (Asked given) := by
  intro o o' hmove h
  have ha := kept_answerable given o o' hmove h.toAnswerable
  cases hmove with
  | advance hadvance =>
    cases hadvance with
    | learn =>
      exact h.of_quiet ha h.deferred_eq (fun j hj => ⟨(waiting_learn j hj).2, rfl⟩)
        (fun _ _ hjob => hjob) fun _ hjob => ⟨hjob, rfl⟩
    | request hmode hdue hl hready hnone hdeps hk => exact h.request hdue ha
    | compile hmode => simp [h.deferred_eq] at hmode
  | lapse hlapse =>
    obtain @⟨k, l, hnone, hdue, hk⟩ := hlapse
    exact h.of_quiet ha h.deferred_eq (fun j hj => ⟨(waiting_lapse hdue j hj).2, rfl⟩)
      (fun _ _ hjob => compile_mem_lapse.2 hjob) fun _ hjob => ⟨compile_mem_lapse.1 hjob, rfl⟩
  | ask k =>
    refine h.of_quiet ha h.deferred_eq (fun j hj => ⟨?_, rfl⟩) (fun _ _ hjob => hjob)
      fun _ hjob => ⟨hjob, rfl⟩
    exact ⟨fun hin => hj.1 (List.mem_cons_of_mem _ hin), hj.2⟩
  | @remove k hvalue =>
    refine h.of_quiet ha h.deferred_eq
      (fun j hj => ⟨(waiting_remove j hj).2, if_neg (waiting_remove j hj).1⟩)
      (fun job hj hjob => compile_mem_remove.2 ⟨hjob, (waiting_remove _ hj).1⟩) fun job hjob => ?_
    obtain ⟨hold, hne⟩ := compile_mem_remove.1 hjob
    exact ⟨hold, if_neg hne⟩
  | @reset due hdue =>
    refine h.of_quiet ha h.deferred_eq (fun j hj => absurd hj (not_waiting_reset hdue j))
      (fun job hj => absurd hj (not_waiting_reset hdue _)) fun job hjob => ?_
    have hinline := (compile_mem_reset.1 hjob).2
    simp [h.deferred_eq] at hinline

/-- Taking the outbox gives all of its jobs away. -/
theorem Asked.takeOutbox (h : Asked given o) :
    Asked (given ++ o.outbox.filterMap Registry.job?) { o with outbox := [] } := by
  refine ⟨h.toAnswerable.takeOutbox, h.deferred_eq, fun j hj => ?_, by simp, by simp⟩
  obtain ⟨g, hg, job, hjob, hid⟩ := h.asked j hj
  refine ⟨g, hg, job, .inl (List.mem_append.2 ?_), hid⟩
  exact hjob.imp id (Registry.mem_filterMap_job? job).2

/-- As long as a job counts that has been given away, there is none of its node in the outbox. -/
theorem Asked.ne_of_given (h : Asked given o) {g : Nat}
    (hgiven : ∃ job ∈ given, job.id = k ∧ job.generation = g)
    (hcurrent : o.generations k = some g) : ∀ job, .compile job ∈ o.outbox → job.id ≠ k := by
  obtain ⟨job', hgiven, rfl, rfl⟩ := hgiven
  intro job hjob hid
  have hnewest := h.newest job hjob
  rw [hid, hcurrent] at hnewest
  exact h.apart job' hgiven job hjob hid (Option.some.inj hnewest).symm

/-- An answer is dropped whose node does not wait. -/
theorem Asked.supersede (h : Asked given o) {g : Nat}
    (hgiven : ∃ job ∈ given, job.id = k ∧ job.generation = g)
    (hcurrent : o.generations k = some g) (hnot : ¬ o.Waiting k) : Asked given (o.supersede k) := by
  have hne := h.ne_of_given hgiven hcurrent
  refine h.of_quiet (h.toAnswerable.supersede k) h.deferred_eq (fun j hj => ⟨hj, if_neg ?_⟩)
    (fun _ _ hjob => hjob) fun job hjob => ⟨hjob, if_neg (hne job hjob)⟩
  rintro rfl
  exact hnot hj

/-- The node of an answer that is taken in waits no longer. -/
theorem Asked.arrive (h : Asked given o) {g : Nat}
    (hgiven : ∃ job ∈ given, job.id = k ∧ job.generation = g)
    (hcurrent : o.generations k = some g) (l : Outline) (x : Json) :
    Asked given (o.arrive k l x) := by
  have hne := h.ne_of_given hgiven hcurrent
  have hwaiting : ∀ j, (o.arrive k l x).Waiting j → j ≠ k ∧ o.Waiting j := by
    rintro j ⟨hdue, l', hl', hready, hnone⟩
    change (if j = k then some _ else o.outline? j) = some l' at hl'
    split at hl'
    · rw [← Option.some.inj hl'] at hnone
      simp at hnone
    · next hj => exact ⟨hj, hdue, l', hl', hready, hnone⟩
  exact h.of_quiet (h.toAnswerable.arrive k l x) h.deferred_eq
    (fun j hj => ⟨(hwaiting j hj).2, if_neg (hwaiting j hj).1⟩) (fun _ _ hjob => hjob)
    fun job hjob => ⟨hjob, if_neg (hne job hjob)⟩

/-! ## Nodes that are stranded -/

/-- A node that waits, and for which there is nothing in the outbox. -/
structure Stranded (o : Outlook) (k : String) : Prop where
  waiting : o.Waiting k
  unsent : ∀ job, .compile job ∈ o.outbox → job.id ≠ k

/-- Nobody asks for a node that is stranded, whatever happens to the others. -/
theorem Stranded.advance {reach : String → Prop} (h : o.Stranded k) (ha : Advance reach o o') :
    o'.Stranded k := by
  obtain ⟨⟨hdue, l, hl, hready, hnone⟩, hunsent⟩ := h
  -- A stranded node is ready, so it is not the one that learns. It is not due, so it is not the one
  -- that is asked for or compiled.
  cases ha with
  | @learn j l' hl' hready' hnone' hj =>
    have hne : k ≠ j := by
      rintro rfl
      rw [hl] at hl'
      rw [Option.some.inj hl', hready'] at hready
      cases hready
    refine ⟨⟨fun hin => ?_, l, (if_neg hne).trans hl, hready, hnone⟩, hunsent⟩
    exact (List.mem_cons.1 hin).elim hne hdue
  | @request j l' due hmode hdue' hl' hready' hnone' hdeps hj =>
    have hne : j ≠ k := by
      rintro rfl
      exact hdue (hdue' ▸ List.mem_cons_self)
    refine ⟨⟨fun hin => hdue (hdue' ▸ List.mem_cons_of_mem _ hin), l, hl, hready, hnone⟩,
      fun job hjob => ?_⟩
    rcases compile_mem_request.1 hjob with ⟨hold, -⟩ | rfl
    · exact hunsent job hold
    · exact hne
  | @compile j l' due hmode hdue' hl' hready' hnone' hdeps hunused hj =>
    have hne : k ≠ j := by
      rintro rfl
      exact hdue (hdue' ▸ List.mem_cons_self)
    exact ⟨⟨fun hin => hdue (hdue' ▸ List.mem_cons_of_mem _ hin), l, (if_neg hne).trans hl, hready,
      hnone⟩, hunsent⟩

theorem Stranded.supersede (h : o.Stranded k) (j : String) : (o.supersede j).Stranded k :=
  ⟨h.waiting, h.unsent⟩

/-- The value of another node arrives. -/
theorem Stranded.arrive (h : o.Stranded k) {j : String} (hj : j ≠ k) (l : Outline) (x : Json) :
    (o.arrive j l x).Stranded k := by
  obtain ⟨⟨hdue, l', hl', hready⟩, hunsent⟩ := h
  exact ⟨⟨hdue, l', (if_neg hj.symm).trans hl', hready⟩, hunsent⟩

theorem Stranded.takeOutbox (h : o.Stranded k) : ({ o with outbox := [] } : Outlook).Stranded k :=
  ⟨h.waiting, by simp⟩

end LayeredAccess.Outlook
