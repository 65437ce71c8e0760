/-
  LayeredAccess.Proofs.Sandbox.SoleCaller

  A caller who has the workroom for himself: no job is waiting, and the worker at
  work has been asked what the sandbox has been asked. He is told what the
  sandbox tells him, and leaves the workroom as the sandbox would be.
-/
import LayeredAccess.Proofs.Sandbox.Workroom

namespace LayeredAccess.Workroom

variable {lang : Script.Language} {b : Workroom lang} {s : Sandbox (Programs lang)}

/-! ## A workroom with nobody in it -/

/-- A workroom in which nobody waits, beside the sandbox that it amounts to. -/
structure Alone (b : Workroom lang) (s : Sandbox (Programs lang)) : Prop where
  interpreter_eq : b.sandbox.interpreter = interpreter
  scripts_eq : s.interpreter = Programs.interpreter lang
  config_eq : b.sandbox.config = s.config
  worker_eq : b.sandbox.worker = s.worker
  nextWorker_eq : b.sandbox.nextWorker = s.nextWorker
  nextScript_eq : b.sandbox.nextScript = s.nextScript
  atWork_lt : ∀ serial, s.worker = some serial → serial < s.nextWorker
  atWork : ∀ serial, s.worker = some serial → b.workers serial = { known := s.state }
  unstarted : ∀ serial, s.nextWorker ≤ serial → b.workers serial = {}

theorem alone_start (lang : Script.Language) (config : SandboxConfig) :
    Alone (start lang config) (Programs.sandbox lang config) :=
  ⟨rfl, rfl, rfl, rfl, rfl, rfl, fun _ h => by simp [Programs.sandbox] at h,
    fun _ h => by simp [Programs.sandbox] at h, fun _ _ => rfl⟩

theorem Alone.present?_eq (h : Alone b s) : b.present? = s.worker := by
  rw [present?, h.worker_eq]
  cases hw : s.worker with
  | none => rfl
  | some serial =>
    rw [Option.filter_some, h.atWork serial hw]
    rfl

/-- The worker that a call goes to, and the sandbox with that worker. -/
def acquired (b : Workroom lang) : Nat × Sandbox (Workers lang) :=
  { b.sandbox with worker := b.present? }.acquire

/-- Whoever is alone finds the worker that the sandbox would give him. -/
theorem Alone.acquire (h : Alone b s) :
    b.acquired.1 = s.acquire.1 ∧ Alone { b with sandbox := b.acquired.2 } s.acquire.2 := by
  rw [acquired, h.present?_eq]
  unfold Sandbox.acquire
  -- A worker at work is there in the workroom too, and a new one gets the same number.
  cases hw : s.worker with
  | some serial =>
    exact ⟨rfl, h.interpreter_eq, h.scripts_eq, h.config_eq, hw.symm, h.nextWorker_eq,
      h.nextScript_eq, h.atWork_lt, h.atWork, h.unstarted⟩
  | none =>
    dsimp only
    rw [h.interpreter_eq, h.scripts_eq]
    refine ⟨h.nextWorker_eq, rfl, rfl, h.config_eq, congrArg some h.nextWorker_eq,
      congrArg (· + 1) h.nextWorker_eq, h.nextScript_eq, fun serial hserial => ?_,
      fun serial hserial => ?_, fun serial hle => h.unstarted serial (Nat.le_of_succ_le hle)⟩
    · obtain rfl := Option.some.inj hserial
      exact Nat.lt_succ_self _
    · obtain rfl := Option.some.inj hserial
      exact h.unstarted s.nextWorker (Nat.le_refl _)

/-- What becomes of a job that is done at once: the call is told what the sandbox says, and the
caller leaves the workroom as the sandbox would be. -/
structure Served (b : Workroom lang) (result : Except SandboxError Answer)
    (s : Sandbox (Programs lang)) (b' : Workroom lang) : Prop where
  alone : Alone b' s
  told_eq : b'.calls[b.calls.length]?.bind Call.told = some result

theorem dispatch_ready (b : Workroom lang) (job : Job) :
    b.dispatch job .ready =
      { b with sandbox := b.acquired.2 }.enqueue b.acquired.1 job := by
  unfold dispatch acquired
  cases b.present? <;> rfl

/-- Something is entered for the newest call. -/
theorem calls_setCall_last {b' : Workroom lang} {calls : List Call} {c : Call}
    (h : b'.calls = calls ++ [c]) (f : Call → Call) :
    (b'.setCall calls.length f).calls = calls ++ [f c] := by
  rw [setCall, h]
  clear h
  induction calls with
  | nil => rfl
  | cons first rest ih => exact congrArg (first :: ·) ih

theorem calls_giveUp_last {calls : List Call} {c : Call} (h : b.calls = calls ++ [c])
    (e : SandboxError) : (b.giveUp calls.length c e).calls =
      calls ++ [{ c with told := some (.error e) }] := calls_setCall_last h _

theorem open?_last {b' : Workroom lang} {calls : List Call} {c : Call} (h : b'.calls = calls ++ [c])
    (hnone : c.told = none) : b'.open? calls.length = some c := by
  rw [open?, h, List.getElem?_concat_length, Option.filter_some, hnone]
  rfl

/-- A caller finds the reply. -/
theorem step_collect_of_reply {n : Nat} {c : Call} {result : Except SandboxError Answer}
    (hopen : b.open? n = some c) (h : c.reply = some result) :
    b.step (.collect n) = b.setCall n fun c => { c with told := some result } := by
  simp only [step, hopen, h]

/-- A caller finds that there will be no reply. -/
theorem step_collect_of_stopped {n : Nat} {c : Call} (hopen : b.open? n = some c)
    (h : c.reply = none) (hstopped : (b.workers c.serial).running = false) :
    b.step (.collect n) = b.giveUp n c .workerGone := by
  simp only [step, hopen, h, hstopped]
  rfl

/-- A worker without other jobs does the job of the newest call. -/
theorem work_enqueue {b : Workroom lang} {serial : Nat} {known : Programs lang}
    (hw : b.workers serial = { known }) (job : Job) :
    (b.enqueue serial job).work serial =
      match job.perform known with
      | (.answer result, known) =>
        ((b.enqueue serial job).setWorker serial { known }).setCall b.calls.length
          fun c => { c with reply := some result }
      | (.late, _) => b.enqueue serial job
      | (.stopped, _) => (b.enqueue serial job).setWorker serial { known, running := false } := by
  have hworker : (b.enqueue serial job).workers serial =
      { known, queue := [(b.calls.length, job)] } := by
    show (b.setWorker serial _).workers serial = _
    rw [workers_setWorker, if_pos rfl, hw]
    rfl
  rcases hperform : job.perform known with ⟨reply, known'⟩
  cases reply <;> simp only [work, hworker, hperform]

/-- The worker at work has done what it was asked, or has stopped and been given up. -/
theorem Alone.proceed {b' : Workroom lang} {s' : Sandbox (Programs lang)} (h : Alone b s)
    {serial : Nat} (hworker : s.worker = some serial)
    (hb' : b'.sandbox = { b.sandbox with worker := s'.worker, state := b'.workers })
    (hs' : s' = { s with worker := s'.worker, state := s'.state })
    (hat : ∀ serial', s'.worker = some serial' →
      serial' = serial ∧ b'.workers serial' = { known := s'.state })
    (hothers : ∀ serial', serial' ≠ serial → b'.workers serial' = b.workers serial') :
    Alone b' s' := by
  have hlt := h.atWork_lt serial hworker
  have hnext : s'.nextWorker = s.nextWorker := by rw [hs']
  refine ⟨hb' ▸ h.interpreter_eq, by rw [hs']; exact h.scripts_eq,
    by rw [hb', hs']; exact h.config_eq, by rw [hb'], by rw [hb', hs']; exact h.nextWorker_eq,
    by rw [hb', hs']; exact h.nextScript_eq, fun serial' hserial' => ?_,
    fun serial' hserial' => (hat serial' hserial').2, fun serial' hle => ?_⟩
  · rw [(hat serial' hserial').1, hnext]
    exact hlt
  · rw [hnext] at hle
    rw [hothers serial' (by omega)]
    exact h.unstarted serial' hle

/-- The queue of the worker is as it was before, whatever has come of its job. -/
theorem workers_enqueue_setWorker (b : Workroom lang) (serial : Nat) (job : Job) (w : Worker lang)
    {serial' : Nat} (hne : serial' ≠ serial) :
    ((b.enqueue serial job).setWorker serial w).workers serial' = b.workers serial' := by
  rw [workers_setWorker, if_neg hne]
  exact (workers_setWorker b serial _ serial').trans (if_neg hne)

/-- The worker at work has replied to the newest call, and the caller finds the reply. -/
theorem Alone.answered (h : Alone b s) {serial : Nat} (hworker : s.worker = some serial)
    (job : Job) (known : Programs lang) (result : Except SandboxError Answer) :
    Served b result { s with state := known }
      ((((b.enqueue serial job).setWorker serial { known }).setCall b.calls.length
        fun c => { c with reply := some result }).step (.collect b.calls.length)) := by
  let b' := (b.enqueue serial job).setWorker serial { known }
  let c : Call := { job, serial }
  have hcalls : (b'.setCall b.calls.length fun c => { c with reply := some result }).calls =
      b.calls ++ [{ c with reply := some result }] :=
    calls_setCall_last (rfl : b'.calls = b.calls ++ [c]) _
  rw [step_collect_of_reply (open?_last hcalls rfl) rfl]
  refine ⟨h.proceed hworker ?_ rfl (fun serial' hserial' => ?_)
    fun _ hne => workers_enqueue_setWorker b serial job { known } hne, ?_⟩
  · exact congrArg (fun w => { b.sandbox with worker := w, state := b'.workers }) h.worker_eq
  · obtain rfl : serial' = serial := Option.some.inj (hserial'.symm.trans hworker)
    exact ⟨rfl, (workers_setWorker _ _ _ _).trans (if_pos rfl)⟩
  · rw [calls_setCall_last hcalls, List.getElem?_concat_length]
    rfl

/-- Once the newest call is over, its time no longer counts. -/
theorem Served.expire {result : Except SandboxError Answer} {b' : Workroom lang}
    (h : Served b result s b') : Served b result s (b'.step (.expire b.calls.length)) := by
  obtain ⟨c, hc, htold⟩ := Option.bind_eq_some_iff.1 h.told_eq
  have hover : b'.open? b.calls.length = none := by
    rw [open?, hc, Option.filter_some, htold]
    rfl
  have hstep : b'.step (.expire b.calls.length) = b' := by simp only [step, hover]
  exact hstep.symm ▸ h

theorem setWorker_self (b : Workroom lang) (serial : Nat) :
    b.setWorker serial (b.workers serial) = b := by
  rw [setWorker, Function.update_eq_self]
  rfl

/-- The caller of the newest call gives up the worker at work, whatever that has come to. -/
theorem Alone.givenUp (h : Alone b s) {serial : Nat} (hworker : s.worker = some serial)
    (job : Job) (w : Worker lang) (known : Programs lang) (e : SandboxError) :
    Served b (.error e) (({ s with state := known } : Sandbox (Programs lang)).abandon serial)
      (((b.enqueue serial job).setWorker serial w).giveUp b.calls.length { job, serial } e) := by
  let b' := (b.enqueue serial job).setWorker serial w
  let c : Call := { job, serial }
  have hcalls : b'.calls = b.calls ++ [c] := rfl
  have habandon : ({ s with state := known } : Sandbox (Programs lang)).abandon serial =
      { s with state := known, worker := none } := if_pos hworker
  have hgiven : (b'.giveUp b.calls.length c e).sandbox = { b'.sandbox with worker := none } :=
    if_pos (h.worker_eq.trans hworker)
  rw [habandon]
  -- Nobody is at work afterwards; all other workers are as before.
  refine ⟨h.proceed hworker ?_ rfl (fun serial' hserial' => ?_) fun serial' hne => ?_, ?_⟩
  · rw [workers, hgiven]
    rfl
  · simp at hserial'
  · rw [workers, hgiven]
    exact workers_enqueue_setWorker b serial job _ hne
  · rw [calls_giveUp_last hcalls, List.getElem?_concat_length]
    rfl

/-- The worker at work has stopped at the job of the newest call. -/
theorem Alone.halted (h : Alone b s) {serial : Nat} (hworker : s.worker = some serial)
    (job : Job) (known : Programs lang) :
    Served b (.error .workerGone)
      (({ s with state := known } : Sandbox (Programs lang)).abandon serial)
      (((b.enqueue serial job).setWorker serial { known := s.state, running := false }).step
        (.collect b.calls.length)) := by
  have hstopped : (((b.enqueue serial job).setWorker serial
      { known := s.state, running := false }).workers serial).running = false := by
    rw [workers_setWorker, if_pos rfl]
  rw [step_collect_of_stopped (open?_last rfl rfl) rfl hstopped]
  exact h.givenUp hworker job { known := s.state, running := false } known .workerGone

/-- The worker at work never comes to an end with the job of the newest call: there is no reply, and
the time of the caller runs out. -/
theorem Alone.expired (h : Alone b s) {serial : Nat} (hworker : s.worker = some serial)
    (job : Job) (known : Programs lang) :
    Served b (.error (.timeout (job.budget s.config)))
      (({ s with state := known } : Sandbox (Programs lang)).abandon serial)
      (((b.enqueue serial job).step (.collect b.calls.length)).step
        (.expire b.calls.length)) := by
  have hopen : (b.enqueue serial job).open? b.calls.length = some { job, serial } :=
    open?_last rfl rfl
  have hrunning : ((b.enqueue serial job).workers serial).running = true := by
    show ((b.setWorker serial _).workers serial).running = true
    rw [workers_setWorker, if_pos rfl, h.atWork serial hworker]
  have hcollect : (b.enqueue serial job).step (.collect b.calls.length) =
      b.enqueue serial job := by
    simp only [step, hopen, hrunning, if_true]
  have hexpire : (b.enqueue serial job).step (.expire b.calls.length) =
      (b.enqueue serial job).giveUp b.calls.length { job, serial }
        (.timeout (job.budget s.config)) := by
    have hconfig : (b.enqueue serial job).sandbox.config = s.config := h.config_eq
    simp only [step, hopen, hconfig]
  rw [hcollect, hexpire]
  have hgiven := h.givenUp hworker job ((b.enqueue serial job).workers serial) known
    (.timeout (job.budget s.config))
  rwa [setWorker_self] at hgiven

/-- Whoever is alone, and waits as long as he may, is told what the sandbox would tell him. -/
theorem Alone.request {α : Type} (h : Alone b s) (job : Job) (f : α → Answer)
    (act : Programs lang → Reply α × Programs lang)
    (hact : ∀ known, job.perform known = ((act known).1.map f, (act known).2)) :
    Served b ((s.request (job.budget s.config) act).1.map f)
      (s.request (job.budget s.config) act).2
      ((((b.dispatch job .ready).work s.acquire.1).step (.collect b.calls.length)).step
        (.expire b.calls.length)) := by
  obtain ⟨hserial, h₁⟩ := h.acquire
  have hworker := s.worker_acquire
  have hconfig := s.config_acquire
  rw [dispatch_ready, hserial]
  simp only [Sandbox.request]
  generalize b.acquired.2 = sandbox at *
  generalize s.acquire.1 = serial at *
  generalize s.acquire.2 = s₁ at *
  rw [work_enqueue (h₁.atWork serial hworker), hact]
  generalize act s₁.state = done at *
  obtain ⟨reply, known⟩ := done
  -- Either the worker has replied, or it has stopped, or it goes on for ever.
  cases reply with
  | answer result =>
    obtain ⟨halone, htold⟩ := (h₁.answered hworker job known (result.map f)).expire
    exact ⟨halone, htold⟩
  | late =>
    obtain ⟨halone, htold⟩ := h₁.expired hworker job known
    rw [hconfig] at htold
    exact ⟨halone, htold⟩
  | stopped =>
    obtain ⟨halone, htold⟩ := (h₁.halted hworker job known).expire
    exact ⟨halone, htold⟩

theorem Alone.compile (h : Alone b s) (source : String) :
    Served b ((s.compile source).1.map fun _ => .accepted) (s.compile source).2
      (b.run [.compile source .ready, .work s.acquire.1, .collect b.calls.length,
        .expire b.calls.length]) := by
  -- The next number is used up on both sides.
  have h' : Alone
      { b with sandbox := { b.sandbox with nextScript := b.sandbox.nextScript + 1 } }
      { s with nextScript := s.nextScript + 1 } :=
    ⟨h.interpreter_eq, h.scripts_eq, h.config_eq, h.worker_eq, h.nextWorker_eq,
      congrArg (· + 1) h.nextScript_eq, h.atWork_lt, h.atWork, h.unstarted⟩
  have hserved := h'.request ⟨⟨b.sandbox.nextScript, source⟩, .compile⟩ (fun _ => .accepted)
    (Programs.compile ⟨b.sandbox.nextScript, source⟩) fun _ => rfl
  have hacquire : { s with nextScript := s.nextScript + 1 }.acquire.1 = s.acquire.1 := by
    unfold Sandbox.acquire
    cases s.worker <;> rfl
  have hrequest : s.interpreter.compile ⟨s.nextScript, source⟩ =
      Programs.compile ⟨b.sandbox.nextScript, source⟩ := by
    rw [h.scripts_eq, h.nextScript_eq]
    rfl
  simp only [hacquire, ← hrequest, Job.budget] at hserved
  refine ⟨hserved.alone, hserved.told_eq.trans (congrArg some ?_)⟩
  rw [Sandbox.compile_fst]
  generalize Sandbox.request _ _ _ = reply
  rcases reply with ⟨_ | _, s'⟩ <;> rfl

theorem Alone.evaluate (h : Alone b s) {n : Nat} {handle : ScriptHandle}
    (hn : b.calls[n]?.bind Call.handle? = some handle) (value : Json) (args : List Json) :
    Served b ((s.evaluate handle value args).1.map .judged) (s.evaluate handle value args).2
      (b.run [.evaluate n value args .ready, .work s.acquire.1, .collect b.calls.length,
        .expire b.calls.length]) := by
  have hserved := h.request ⟨handle, .evaluate value args⟩ .judged
    (Programs.evaluate handle value args) fun _ => rfl
  have hstep : b.step (.evaluate n value args .ready) =
      b.dispatch ⟨handle, .evaluate value args⟩ .ready := by
    simp only [step, hn]
  rw [Sandbox.evaluate, h.scripts_eq, run, List.foldl_cons, hstep]
  exact hserved

end LayeredAccess.Workroom
