/-
  LayeredAccess.Proofs.Sandbox.Workroom

  Many callers of one sandbox at the same time. Each queues its job with the
  worker at work and waits; a worker that a caller has given up may still be
  busy with the jobs of others, and those may still hear from it. Callers run
  out of time, workers stop and new ones start in any pattern.

  The language of the scripts is left open. All that is used is that one source
  always gives one program, and a program one result in one context.

  What a worker has kept depends on what it was asked before. But a number
  stands for one source, so it only ever keeps what a new worker would find:
  `Sound` says so, every event keeps it, and `reliable_run` follows.
-/
import LayeredAccess.Proofs.Sandbox
import Mathlib.Logic.Function.Basic

namespace LayeredAccess

/-- The reply with its answer put in other words. -/
def Reply.map {α β : Type} (f : α → β) : Reply α → Reply β
  | .answer result => .answer (result.map f)
  | .late => .late
  | .stopped => .stopped

namespace Workroom

variable {lang : Script.Language}

/-! ## Jobs, workers and calls -/

/-- What is to be done with a script. -/
inductive Request where
  | compile
  | evaluate (value : Json) (args : List Json)

/-- What a caller brings to a worker. -/
structure Job where
  handle : ScriptHandle
  request : Request

/-- What a worker has to say to a job. -/
inductive Answer where
  | accepted
  | judged (holds : Bool)

/-- A worker does a job, going by the programs that it has kept. -/
def Job.perform (job : Job) (known : Programs lang) : Reply Answer × Programs lang :=
  match job.request with
  | .compile =>
    let (reply, known) := Programs.compile job.handle known
    (reply.map fun _ => .accepted, known)
  | .evaluate value args =>
    let (reply, known) := Programs.evaluate job.handle value args known
    (reply.map .judged, known)

variable (lang) in
/-- What a worker says to a job that has never been asked anything else. -/
def Job.fresh (job : Job) : Reply Answer := (job.perform ([] : Programs lang)).1

/-- A worker with the jobs that it has not looked at yet, oldest first, each with the number of its
call. -/
structure Worker (lang : Script.Language) where
  known : Programs lang := []
  queue : List (Nat × Job) := []
  running : Bool := true

structure Call where
  job : Job
  /-- The worker that was asked. -/
  serial : Nat
  /-- The reply, once the worker has given it. -/
  reply : Option (Except SandboxError Answer) := none
  /-- What the caller was told, once the call is over. -/
  told : Option (Except SandboxError Answer) := none

/-- The handle that a call has returned. -/
def Call.handle? (c : Call) : Option ScriptHandle :=
  match c.job.request, c.told with
  | .compile, some (.ok _) => some c.job.handle
  | _, _ => none

/-- How the start of a worker goes, if one has to be started. -/
inductive Start where
  | ready
  /-- There is none to be had. -/
  | refused (reason : String)
  /-- It stops before it gets its job. -/
  | gone

def Start.error? : Start → Option SandboxError
  | ready => none
  | refused reason => some (.spawn reason)
  | gone => some .workerGone

/-- A worker that has not started yet has not been asked anything. -/
abbrev Workers (lang : Script.Language) := Nat → Worker lang

/-- Jobs are queued, so that no request is answered on the spot. -/
def interpreter : Interpreter (Workers lang) where
  start := id
  compile := fun _ workers => (.late, workers)
  evaluate := fun _ _ _ workers => (.late, workers)

end Workroom

/-- A sandbox with its workers, each under its serial number, and the calls that have been made,
oldest first. -/
structure Workroom (lang : Script.Language) where
  sandbox : Sandbox (Workroom.Workers lang)
  calls : List Workroom.Call := []

namespace Workroom

variable {lang : Script.Language}

variable (lang) in
/-- Before the first call. -/
def start (config : SandboxConfig) : Workroom lang where
  sandbox := { interpreter, config, state := fun _ => {} }

def workers (b : Workroom lang) : Workers lang := b.sandbox.state

/-- Puts a worker in its place. -/
def setWorker (b : Workroom lang) (serial : Nat) (w : Worker lang) : Workroom lang :=
  { b with sandbox := { b.sandbox with state := Function.update b.workers serial w } }

def setCall (b : Workroom lang) (n : Nat) (f : Call → Call) : Workroom lang :=
  { b with calls := b.calls.modify n f }

/-- The worker at work, unless it has stopped. -/
def present? (b : Workroom lang) : Option Nat :=
  b.sandbox.worker.filter fun serial => (b.workers serial).running

/-! ## Events -/

/-- Something that a caller or a worker does, or that happens to it. -/
inductive Event where
  | compile (source : String) (start : Start)
  /-- A script is to be run whose handle a call has returned. -/
  | evaluate (call : Nat) (value : Json) (args : List Json) (start : Start)
  /-- A worker does its oldest job. -/
  | work (serial : Nat)
  /-- A worker stops, whatever it is doing. -/
  | halt (serial : Nat)
  /-- A caller looks for the reply. -/
  | collect (call : Nat)
  /-- The time of a caller has run out. -/
  | expire (call : Nat)

/-- A job is put at the end of the queue of a worker. -/
def enqueue (b : Workroom lang) (serial : Nat) (job : Job) : Workroom lang :=
  let w := b.workers serial
  let call : Call := { job, serial }
  { b.setWorker serial { w with queue := w.queue ++ [(b.calls.length, job)] } with
    calls := b.calls ++ [call] }

/-- A call is made: the job is queued with the worker at work, or else with a new one. -/
def dispatch (b : Workroom lang) (job : Job) (start : Start) : Workroom lang :=
  match b.present?, start.error? with
  | none, some e =>
    let call : Call := { job, serial := b.sandbox.nextWorker, told := some (.error e) }
    { sandbox := { b.sandbox with nextWorker := b.sandbox.nextWorker + 1 }
      calls := b.calls ++ [call] }
  | present?, _ =>
    let (serial, sandbox) := { b.sandbox with worker := present? }.acquire
    { b with sandbox }.enqueue serial job

/-- A worker does its oldest job, and gives its reply to the call of that job. If it stops at it,
the jobs that are still queued go with it. -/
def work (b : Workroom lang) (serial : Nat) : Workroom lang :=
  let w := b.workers serial
  match w.queue with
  | [] => b
  | (n, job) :: rest =>
    match job.perform w.known with
    | (.answer result, known) =>
      (b.setWorker serial { w with known, queue := rest }).setCall n
        fun c => { c with reply := some result }
    | (.late, _) => b
    | (.stopped, _) => b.setWorker serial { w with queue := [], running := false }

/-- A worker that is running stops. -/
def halt (b : Workroom lang) (serial : Nat) : Workroom lang :=
  if serial < b.sandbox.nextWorker then
    b.setWorker serial { b.workers serial with queue := [], running := false }
  else b

/-- A caller gives up, and the worker that he has waited for is given up with him. -/
def giveUp (b : Workroom lang) (n : Nat) (c : Call) (e : SandboxError) : Workroom lang :=
  { b with sandbox := b.sandbox.abandon c.serial }.setCall n
    fun c => { c with told := some (.error e) }

/-- The time that a caller has. -/
def Job.budget (config : SandboxConfig) (job : Job) : Nat :=
  match job.request with
  | .compile => config.compileBudget
  | .evaluate _ _ => config.evalBudget

/-- A call that is not over yet. -/
def open? (b : Workroom lang) (n : Nat) : Option Call := b.calls[n]?.filter (·.told.isNone)

def step (b : Workroom lang) : Event → Workroom lang
  | .compile source start =>
    let handle := { id := b.sandbox.nextScript, source }
    { b with sandbox := { b.sandbox with nextScript := b.sandbox.nextScript + 1 } }.dispatch
      ⟨handle, .compile⟩ start
  | .evaluate n value args start =>
    match b.calls[n]?.bind Call.handle? with
    | none => b
    | some handle => b.dispatch ⟨handle, .evaluate value args⟩ start
  | .work serial => b.work serial
  | .halt serial => b.halt serial
  | .collect n =>
    match b.open? n with
    | none => b
    | some c =>
      match c.reply with
      | some result => b.setCall n fun c => { c with told := some result }
      | none => if (b.workers c.serial).running then b else b.giveUp n c .workerGone
  | .expire n =>
    match b.open? n with
    | none => b
    | some c => b.giveUp n c (.timeout (c.job.budget b.sandbox.config))

def run (b : Workroom lang) (events : List Event) : Workroom lang := events.foldl step b

/-- An answer that no worker has given. -/
def IsLost : Except SandboxError Answer → Prop
  | .error (.timeout _) | .error .workerGone | .error (.spawn _) => True
  | _ => False

/-! ## What an event can do -/

/-- The number of the next script is used up. -/
def reserve (b : Workroom lang) : Workroom lang :=
  { b with sandbox := { b.sandbox with nextScript := b.sandbox.nextScript + 1 } }

/-- What an event does, with all that is known in each case. -/
inductive Steps (b : Workroom lang) : Event → Workroom lang → Prop
  /-- There is nothing to be done. -/
  | idle {event : Event} : Steps b event b
  | compile {source : String} {start : Start} : Steps b (.compile source start)
      (b.reserve.dispatch ⟨⟨b.sandbox.nextScript, source⟩, .compile⟩ start)
  | evaluate {n : Nat} {value : Json} {args : List Json} {start : Start} {handle : ScriptHandle}
    (hhandle : b.calls[n]?.bind Call.handle? = some handle) :
    Steps b (.evaluate n value args start) (b.dispatch ⟨handle, .evaluate value args⟩ start)
  /-- A worker replies to its oldest job. -/
  | reply {serial n : Nat} {job : Job} {rest : List (Nat × Job)}
    {result : Except SandboxError Answer} {known : Programs lang}
    (hqueue : (b.workers serial).queue = (n, job) :: rest)
    (hperform : job.perform (b.workers serial).known = (.answer result, known)) :
    Steps b (.work serial)
      ((b.setWorker serial { b.workers serial with known, queue := rest }).setCall n
        fun c => { c with reply := some result })
  /-- A worker stops, by itself or at its job. -/
  | stop {event : Event} {serial : Nat} : Steps b event
      (b.setWorker serial { b.workers serial with queue := [], running := false })
  /-- A caller finds the reply. -/
  | tell {n : Nat} {c : Call} {result : Except SandboxError Answer} (hopen : b.open? n = some c)
    (hreply : c.reply = some result) :
    Steps b (.collect n) (b.setCall n fun c => { c with told := some result })
  | giveUp {event : Event} {n : Nat} {c : Call} {e : SandboxError}
    (hevent : event = .collect n ∨ event = .expire n) (hopen : b.open? n = some c)
    (he : IsLost (.error e)) : Steps b event (b.giveUp n c e)

theorem steps_work (b : Workroom lang) (serial : Nat) : Steps b (.work serial) (b.work serial) := by
  unfold work
  dsimp only
  split
  · exact .idle
  · next n job rest hqueue =>
    split
    · next result known hperform => exact .reply hqueue hperform
    · exact .idle
    · exact .stop

theorem steps_collect (b : Workroom lang) (n : Nat) :
    Steps b (.collect n) (b.step (.collect n)) := by
  simp only [step]
  split
  · exact .idle
  · next c hopen =>
    split
    · next result hreply => exact .tell hopen hreply
    · split
      · exact .idle
      · exact .giveUp (.inl rfl) hopen trivial

/-- Every event does one of the things listed. -/
theorem steps_step (b : Workroom lang) (event : Event) : Steps b event (b.step event) := by
  cases event with
  | compile source start => exact .compile
  | evaluate n value args start =>
    simp only [step]
    split
    · exact .idle
    · next handle hhandle => exact .evaluate hhandle
  | work serial => exact steps_work b serial
  | halt serial =>
    simp only [step, halt]
    split
    · exact .stop
    · exact .idle
  | collect n => exact steps_collect b n
  | expire n =>
    simp only [step]
    split
    · exact .idle
    · next c hopen => exact .giveUp (.inr rfl) hopen trivial

/-! ## What workers have kept -/

/-- Workers have kept nothing but what a new worker would find, and replies are those of new
workers. -/
structure Sound (b : Workroom lang) : Prop where
  interpreter_eq : b.sandbox.interpreter = interpreter
  id_lt : ∀ c ∈ b.calls, c.job.handle.id < b.sandbox.nextScript
  /-- A number stands for one source. -/
  handle_eq : ∀ c ∈ b.calls, ∀ c' ∈ b.calls, c.job.handle.id = c'.job.handle.id →
    c.job.handle = c'.job.handle
  /-- Scripts are only run by handles that calls have returned. -/
  returned : ∀ c ∈ b.calls, ∀ value args, c.job.request = .evaluate value args →
    ∃ c' ∈ b.calls, c'.handle? = some c.job.handle
  queued : ∀ serial, ∀ entry ∈ (b.workers serial).queue,
    ∃ c, b.calls[entry.1]? = some c ∧ c.job = entry.2
  known : ∀ serial id e, KeyMap.find? (b.workers serial).known id = some e →
    ∃ c ∈ b.calls, c.job.handle.id = id ∧ Programs.read lang c.job.handle.source = .answer (.ok e)
  replied : ∀ c ∈ b.calls, ∀ result, c.reply = some result → c.job.fresh lang = .answer result
  told : ∀ c ∈ b.calls, ∀ result, c.told = some result →
    IsLost result ∨ c.job.fresh lang = .answer result

/-- A worker says what a new worker would, if it has kept under the number of a script only what
the source of the script gives. -/
theorem Job.perform_fst {job : Job} {known : Programs lang}
    (h : ∀ e, KeyMap.find? known job.handle.id = some e →
      Programs.read lang job.handle.source = .answer (.ok e)) :
    (job.perform known).1 = job.fresh lang := by
  obtain ⟨handle, request⟩ := job
  cases request with
  | compile =>
    simp only [fresh, perform, Programs.compile]
    rcases Programs.read lang handle.source with (_ | _) | _ | _ <;> rfl
  | evaluate value args =>
    simp only [fresh, perform, Programs.evaluate, KeyMap.find?_nil]
    cases hfind : KeyMap.find? known handle.id with
    | none => rcases Programs.read lang handle.source with (_ | _) | _ | _ <;> rfl
    | some e => simp only [h e hfind]

/-- What a worker adds to what it has kept is what the source of the job gives. -/
theorem Job.find?_perform {job : Job} {known : Programs lang} {id : Nat} {e : lang.Program}
    (h : KeyMap.find? (job.perform known).2 id = some e) :
    KeyMap.find? known id = some e ∨
      job.handle.id = id ∧ Programs.read lang job.handle.source = .answer (.ok e) := by
  obtain ⟨handle, request⟩ := job
  -- What is inserted has been read from the source.
  have hinsert : ∀ {e' : lang.Program}, Programs.read lang handle.source = .answer (.ok e') →
      KeyMap.find? (KeyMap.insert known handle.id e') id = some e →
      KeyMap.find? known id = some e ∨
        handle.id = id ∧ Programs.read lang handle.source = .answer (.ok e) := by
    intro e' hread hfind
    rw [KeyMap.find?_insert] at hfind
    split at hfind
    · next hid => exact .inr ⟨hid, Option.some.inj hfind ▸ hread⟩
    · exact .inl hfind
  cases request with
  | compile =>
    simp only [perform, Programs.compile] at h
    split at h
    · next hread => exact hinsert hread h
    all_goals exact .inl h
  | evaluate value args =>
    simp only [perform, Programs.evaluate] at h
    split at h
    · exact .inl h
    · split at h
      · next hread => exact hinsert hread h
      all_goals exact .inl h

/-! ## Calls -/

/-- What a call changes: it is entered, and a worker may find its job at the end of its queue. -/
structure Enters (b : Workroom lang) (job : Job) (c : Call) (b' : Workroom lang) : Prop where
  interpreter_eq : b'.sandbox.interpreter = b.sandbox.interpreter
  nextScript_eq : b'.sandbox.nextScript = b.sandbox.nextScript
  calls_eq : b'.calls = b.calls ++ [c]
  job_eq : c.job = job
  reply_eq : c.reply = none
  told : ∀ result, c.told = some result → IsLost result
  known_eq : ∀ serial, (b'.workers serial).known = (b.workers serial).known
  queued : ∀ serial, ∀ entry ∈ (b'.workers serial).queue,
    entry ∈ (b.workers serial).queue ∨ entry = (b.calls.length, job)

/-- To start a worker does not touch the others. -/
theorem acquire_eq {s : Sandbox (Workers lang)} (h : s.interpreter = interpreter) :
    s.acquire.2.state = s.state ∧ s.acquire.2.nextScript = s.nextScript := by
  unfold Sandbox.acquire
  split
  · exact ⟨rfl, rfl⟩
  · rw [h]
    exact ⟨rfl, rfl⟩

theorem Start.isLost_error? {start : Start} {e : SandboxError} (h : start.error? = some e) :
    IsLost (.error e) := by
  cases start with
  | ready => simp [error?] at h
  | refused reason => exact Option.some.inj h ▸ trivial
  | gone => exact Option.some.inj h ▸ trivial

theorem workers_setWorker (b : Workroom lang) (serial : Nat) (w : Worker lang) (serial' : Nat) :
    (b.setWorker serial w).workers serial' = if serial' = serial then w else b.workers serial' :=
  Function.update_apply b.workers serial w serial'

theorem enters_enqueue (b : Workroom lang) (serial : Nat) (job : Job) :
    Enters b job { job, serial } (b.enqueue serial job) := by
  refine ⟨rfl, rfl, rfl, rfl, rfl, by simp, fun serial' => ?_, fun serial' entry hin => ?_⟩
  · refine (congrArg Worker.known (workers_setWorker b serial _ serial')).trans ?_
    split
    · next he => rw [he]
    · rfl
  · change entry ∈ ((b.setWorker serial _).workers serial').queue at hin
    rw [workers_setWorker] at hin
    split at hin
    · next he =>
      subst he
      exact (List.mem_append.1 hin).imp id List.mem_singleton.1
    · exact .inl hin

theorem enters_dispatch {b : Workroom lang} (h : b.sandbox.interpreter = interpreter) (job : Job)
    (start : Start) : ∃ c, Enters b job c (b.dispatch job start) := by
  unfold dispatch
  split
  · next e hpresent he =>
    exact ⟨_, rfl, rfl, rfl, rfl, rfl, fun result hr => Option.some.inj hr ▸ start.isLost_error? he,
      fun _ => rfl, fun _ _ hin => .inl hin⟩
  · obtain ⟨hstate, hnext⟩ := acquire_eq (s := { b.sandbox with worker := b.present? }) h
    have hinterpreter := Sandbox.interpreter_acquire { b.sandbox with worker := b.present? }
    generalize Sandbox.acquire { b.sandbox with worker := b.present? } = acquired at *
    obtain ⟨serial, sandbox⟩ := acquired
    have henters := enters_enqueue { b with sandbox } serial job
    have hworkers : ({ b with sandbox } : Workroom lang).workers = b.workers := hstate
    refine ⟨_, hinterpreter, hnext, rfl, rfl, rfl, henters.told, fun serial' => ?_,
      fun serial' => ?_⟩
    · exact (henters.known_eq serial').trans (by rw [hworkers])
    · rw [← hworkers]
      exact henters.queued serial'

/-! ## What every event keeps -/

/-- A call is made with a handle that is new, or that another call has. -/
theorem Sound.enters {b b' : Workroom lang} {job : Job} {c : Call} (h : Sound b)
    (henters : Enters b job c b')
    (hlt : job.handle.id < b.sandbox.nextScript)
    (hhandle : ∀ c' ∈ b.calls, job.handle.id = c'.job.handle.id → job.handle = c'.job.handle)
    (hreturned : ∀ value args, job.request = .evaluate value args →
      ∃ c' ∈ b.calls, c'.handle? = some job.handle) :
    Sound b' := by
  -- All calls but the last are those of before.
  have hmem : ∀ c' ∈ b'.calls, c' ∈ b.calls ∨ c' = c := by
    intro c' hc'
    rw [henters.calls_eq] at hc'
    exact (List.mem_append.1 hc').imp id List.mem_singleton.1
  have hkept : ∀ {P : Call → Prop}, (∃ c' ∈ b.calls, P c') → ∃ c' ∈ b'.calls, P c' := by
    rintro P ⟨c', hc', hP⟩
    exact ⟨c', henters.calls_eq ▸ List.mem_append_left _ hc', hP⟩
  constructor
  case interpreter_eq => exact henters.interpreter_eq.trans h.interpreter_eq
  case id_lt =>
    intro c₁ h₁
    rw [henters.nextScript_eq]
    rcases hmem c₁ h₁ with h₁ | rfl
    · exact h.id_lt c₁ h₁
    · rw [henters.job_eq]
      exact hlt
  case handle_eq =>
    intro c₁ h₁ c₂ h₂ he
    rcases hmem c₁ h₁ with h₁ | rfl
    · rcases hmem c₂ h₂ with h₂ | rfl
      · exact h.handle_eq c₁ h₁ c₂ h₂ he
      · rw [henters.job_eq] at he ⊢
        exact (hhandle c₁ h₁ he.symm).symm
    · rcases hmem c₂ h₂ with h₂ | rfl
      · rw [henters.job_eq] at he ⊢
        exact hhandle c₂ h₂ he
      · rfl
  case returned =>
    intro c₁ h₁ value args hr
    refine hkept ?_
    rcases hmem c₁ h₁ with h₁ | rfl
    · exact h.returned c₁ h₁ value args hr
    · rw [henters.job_eq] at hr ⊢
      exact hreturned value args hr
  case queued =>
    intro serial entry hin
    rw [henters.calls_eq]
    rcases henters.queued serial entry hin with hin | rfl
    · obtain ⟨c', hc', hjob⟩ := h.queued serial entry hin
      exact ⟨c', List.getElem?_append_left (List.getElem?_eq_some_iff.1 hc').1 ▸ hc', hjob⟩
    · exact ⟨c, by simp, henters.job_eq⟩
  case known =>
    intro serial id e hfind
    rw [henters.known_eq] at hfind
    exact hkept (h.known serial id e hfind)
  case replied =>
    intro c₁ h₁ result hr
    rcases hmem c₁ h₁ with h₁ | rfl
    · exact h.replied c₁ h₁ result hr
    · simp [henters.reply_eq] at hr
  case told =>
    intro c₁ h₁ result hr
    rcases hmem c₁ h₁ with h₁ | rfl
    · exact h.told c₁ h₁ result hr
    · exact .inl (henters.told result hr)

/-- Calls stay in their places, apart from what is entered for one of them. -/
theorem getElem?_setCall {b : Workroom lang} {n : Nat} {c₀ : Call} (hc₀ : b.calls[n]? = some c₀)
    (f : Call → Call) {i : Nat} {c : Call} (hc : b.calls[i]? = some c) :
    (b.setCall n f).calls[i]? = some c ∨
      i = n ∧ c = c₀ ∧ (b.setCall n f).calls[i]? = some (f c₀) := by
  rw [setCall, List.getElem?_modify, hc]
  by_cases hn : n = i
  · subst hn
    obtain rfl : c = c₀ := Option.some.inj (hc.symm.trans hc₀)
    exact .inr ⟨rfl, rfl, by simp⟩
  · exact .inl (by simp [hn])

/-- Every call there is was there before, apart from what has been entered. -/
theorem mem_calls_setCall {b : Workroom lang} {n : Nat} {c₀ : Call} (hc₀ : b.calls[n]? = some c₀)
    {f : Call → Call} {c' : Call} (hc' : c' ∈ (b.setCall n f).calls) :
    ∃ c ∈ b.calls, c' = c ∨ c = c₀ ∧ c' = f c₀ := by
  obtain ⟨i, hi⟩ := List.mem_iff_getElem?.1 hc'
  have hi' := hi
  rw [setCall, List.getElem?_modify] at hi'
  obtain ⟨c, hc, -⟩ := Option.map_eq_some_iff.1 hi'
  refine ⟨c, List.mem_of_getElem? hc, ?_⟩
  rcases getElem?_setCall hc₀ f hc with hsame | ⟨-, rfl, hnew⟩
  · exact .inl (Option.some.inj (hi.symm.trans hsame))
  · exact .inr ⟨rfl, Option.some.inj (hi.symm.trans hnew)⟩

/-- Something is entered for a call that fits its job. -/
theorem Sound.setCall {b : Workroom lang} (h : Sound b) {n : Nat} {c₀ : Call} {f : Call → Call}
    (hc₀ : b.calls[n]? = some c₀) (hjob : (f c₀).job = c₀.job)
    (hreply : ∀ result, (f c₀).reply = some result → c₀.job.fresh lang = .answer result)
    (htold : ∀ result, (f c₀).told = some result →
      IsLost result ∨ c₀.job.fresh lang = .answer result)
    (hhandle : ∀ handle, c₀.handle? = some handle → (f c₀).handle? = some handle) :
    Sound (b.setCall n f) := by
  -- Jobs are never changed, and handles that have been returned stay returned.
  have hmem : ∀ c' ∈ (b.setCall n f).calls, ∃ c ∈ b.calls, c'.job = c.job ∧
      (c' = c ∨ c = c₀ ∧ c' = f c₀) := by
    intro c' hc'
    obtain ⟨c, hc, rfl | ⟨rfl, rfl⟩⟩ := mem_calls_setCall hc₀ hc'
    · exact ⟨c', hc, rfl, .inl rfl⟩
    · exact ⟨c, hc, hjob, .inr ⟨rfl, rfl⟩⟩
  have hkept : ∀ (i : Nat) (c : Call), b.calls[i]? = some c → ∃ c',
      (b.setCall n f).calls[i]? = some c' ∧ c'.job = c.job ∧
      ∀ handle, c.handle? = some handle → c'.handle? = some handle := by
    intro i c hc
    rcases getElem?_setCall hc₀ f hc with hsame | ⟨-, rfl, hnew⟩
    · exact ⟨c, hsame, rfl, fun _ hreturned => hreturned⟩
    · exact ⟨f c, hnew, hjob, hhandle⟩
  constructor
  case interpreter_eq => exact h.interpreter_eq
  case id_lt =>
    intro c' hc'
    obtain ⟨c, hc, hsame, -⟩ := hmem c' hc'
    exact hsame ▸ h.id_lt c hc
  case handle_eq =>
    intro c₁ h₁ c₂ h₂ he
    obtain ⟨d₁, hd₁, hsame₁, -⟩ := hmem c₁ h₁
    obtain ⟨d₂, hd₂, hsame₂, -⟩ := hmem c₂ h₂
    rw [hsame₁, hsame₂] at he ⊢
    exact h.handle_eq d₁ hd₁ d₂ hd₂ he
  case returned =>
    intro c' hc' value args hr
    obtain ⟨c, hc, hsame, -⟩ := hmem c' hc'
    obtain ⟨d, hd, hreturned⟩ := h.returned c hc value args (hsame ▸ hr)
    obtain ⟨i, hi⟩ := List.mem_iff_getElem?.1 hd
    obtain ⟨d', hd', -, hstill⟩ := hkept i d hi
    exact ⟨d', List.mem_of_getElem? hd', hsame ▸ hstill _ hreturned⟩
  case queued =>
    intro serial entry hin
    obtain ⟨c, hc, hentry⟩ := h.queued serial entry hin
    obtain ⟨c', hc', hsame, -⟩ := hkept entry.1 c hc
    exact ⟨c', hc', hsame.trans hentry⟩
  case known =>
    intro serial id e hfind
    obtain ⟨c, hc, hid, hread⟩ := h.known serial id e hfind
    obtain ⟨i, hi⟩ := List.mem_iff_getElem?.1 hc
    obtain ⟨c', hc', hsame, -⟩ := hkept i c hi
    exact ⟨c', List.mem_of_getElem? hc', hsame ▸ hid, hsame ▸ hread⟩
  case replied =>
    intro c' hc' result hr
    obtain ⟨c, hc, hsame, rfl | ⟨rfl, rfl⟩⟩ := hmem c' hc'
    · exact h.replied c' hc result hr
    · exact hsame ▸ hreply result hr
  case told =>
    intro c' hc' result hr
    obtain ⟨c, hc, hsame, rfl | ⟨rfl, rfl⟩⟩ := hmem c' hc'
    · exact h.told c' hc result hr
    · exact hsame ▸ htold result hr

/-- A worker goes on with some of the jobs that it had, and with what it may have kept. -/
theorem Sound.setWorker {b : Workroom lang} (h : Sound b) (serial : Nat) {w : Worker lang}
    (hqueue : ∀ entry ∈ w.queue, entry ∈ (b.workers serial).queue)
    (hknown : ∀ id e, KeyMap.find? w.known id = some e →
      ∃ c ∈ b.calls, c.job.handle.id = id ∧
        Programs.read lang c.job.handle.source = .answer (.ok e)) :
    Sound (b.setWorker serial w) := by
  refine ⟨h.interpreter_eq, h.id_lt, h.handle_eq, h.returned, fun serial' entry hin => ?_,
    fun serial' id e hfind => ?_, h.replied, h.told⟩
  · rw [workers_setWorker] at hin
    split at hin
    · exact h.queued serial entry (hqueue entry hin)
    · exact h.queued serial' entry hin
  · rw [workers_setWorker] at hfind
    split at hfind
    · exact hknown id e hfind
    · exact h.known serial' id e hfind

/-- A worker that stops has kept nothing new. -/
theorem Sound.stop {b : Workroom lang} (h : Sound b) (serial : Nat) :
    Sound (b.setWorker serial { b.workers serial with queue := [], running := false }) :=
  h.setWorker serial (by simp) fun id e hfind => h.known serial id e hfind

/-- A worker replies to the job of a call. -/
theorem Sound.reply {b : Workroom lang} (h : Sound b) {serial n : Nat} {job : Job}
    {rest : List (Nat × Job)} {result : Except SandboxError Answer} {known : Programs lang}
    (hqueue : (b.workers serial).queue = (n, job) :: rest)
    (hperform : job.perform (b.workers serial).known = (.answer result, known)) :
    Sound ((b.setWorker serial { b.workers serial with known, queue := rest }).setCall n
      fun c => { c with reply := some result }) := by
  obtain ⟨c, hc, hjob⟩ := h.queued serial (n, job) (hqueue ▸ List.mem_cons_self)
  obtain rfl : c.job = job := hjob
  have hin := List.mem_of_getElem? hc
  -- What has been kept under the number of the job is of the same source.
  have hfirst : (c.job.perform (b.workers serial).known).1 = c.job.fresh lang := by
    refine Job.perform_fst fun e hfind => ?_
    obtain ⟨c', hc', hid, hread⟩ := h.known serial _ e hfind
    rwa [h.handle_eq c hin c' hc' hid.symm]
  rw [hperform] at hfirst
  have hperformed : (c.job.perform (b.workers serial).known).2 = known := by rw [hperform]
  have hworker : Sound (b.setWorker serial { b.workers serial with known, queue := rest }) := by
    refine h.setWorker serial (fun entry he => hqueue ▸ List.mem_cons_of_mem _ he)
      fun id e hfind => ?_
    rcases Job.find?_perform (hperformed ▸ hfind) with hold | ⟨hid, hread⟩
    · exact h.known serial id e hold
    · exact ⟨c, hin, hid, hread⟩
  exact hworker.setCall hc rfl (fun result' hr => Option.some.inj hr ▸ hfirst.symm)
    (h.told c hin) fun _ hhandle => hhandle

/-- A call that is not over has returned no handle. -/
theorem told_of_open? {b : Workroom lang} {n : Nat} {c : Call} (h : b.open? n = some c) :
    b.calls[n]? = some c ∧ c.told = none := by
  obtain ⟨hc, hnone⟩ := Option.filter_eq_some_iff.1 h
  exact ⟨hc, Option.isNone_iff_eq_none.1 hnone⟩

theorem handle?_of_told {c : Call} (h : c.told = none) : c.handle? = none := by
  rw [Call.handle?, h]
  cases c.job.request <;> rfl

/-- A call that is not over ends. -/
theorem Sound.tell {b : Workroom lang} (h : Sound b) {n : Nat} {c : Call}
    (hopen : b.open? n = some c) {result : Except SandboxError Answer}
    (hr : IsLost result ∨ c.job.fresh lang = .answer result) :
    Sound (b.setCall n fun c => { c with told := some result }) := by
  obtain ⟨hc, hnone⟩ := told_of_open? hopen
  refine h.setCall hc rfl (h.replied c (List.mem_of_getElem? hc))
    (fun result' hr' => Option.some.inj hr' ▸ hr) fun handle hhandle => ?_
  simp [handle?_of_told hnone] at hhandle

theorem Sound.giveUp {b : Workroom lang} (h : Sound b) {n : Nat} {c : Call}
    (hopen : b.open? n = some c) {e : SandboxError} (he : IsLost (.error e)) :
    Sound (b.giveUp n c e) := by
  have habandon : Sound { b with sandbox := b.sandbox.abandon c.serial } := by
    unfold Sandbox.abandon
    split
    · exact ⟨h.interpreter_eq, h.id_lt, h.handle_eq, h.returned, h.queued, h.known, h.replied,
        h.told⟩
    · exact h
  exact habandon.tell hopen (.inl he)

theorem handle_of_handle? {c : Call} {handle : ScriptHandle} (h : c.handle? = some handle) :
    c.job.handle = handle := by
  unfold Call.handle? at h
  split at h
  · exact Option.some.inj h
  · simp at h

theorem Sound.reserve {b : Workroom lang} (h : Sound b) : Sound b.reserve :=
  ⟨h.interpreter_eq, fun c hc => Nat.lt_succ_of_lt (h.id_lt c hc), h.handle_eq, h.returned,
    h.queued, h.known, h.replied, h.told⟩

theorem Sound.of_steps {b b' : Workroom lang} (h : Sound b) {event : Event}
    (hs : Steps b event b') : Sound b' := by
  cases hs with
  | idle => exact h
  | @compile source start =>
    obtain ⟨c, henters⟩ := enters_dispatch h.reserve.interpreter_eq
      ⟨⟨b.sandbox.nextScript, source⟩, .compile⟩ start
    -- The number is new.
    refine h.reserve.enters henters (Nat.lt_succ_self _) (fun c' hc' he => ?_) fun _ _ hr => ?_
    · exact absurd he (Nat.ne_of_gt (h.id_lt c' hc'))
    · exact absurd hr (by simp)
  | @evaluate n value args start handle hhandle =>
    obtain ⟨c, hc, hreturned⟩ := Option.bind_eq_some_iff.1 hhandle
    obtain rfl := handle_of_handle? hreturned
    have hin := List.mem_of_getElem? hc
    obtain ⟨c', henters⟩ := enters_dispatch h.interpreter_eq
      ⟨c.job.handle, .evaluate value args⟩ start
    exact h.enters henters (h.id_lt c hin) (h.handle_eq c hin) fun _ _ _ => ⟨c, hin, hreturned⟩
  | reply hqueue hperform => exact h.reply hqueue hperform
  | @stop _ serial => exact h.stop serial
  | @tell n c result hopen hreply =>
    have hin := List.mem_of_getElem? (told_of_open? hopen).1
    exact h.tell hopen (.inr (h.replied c hin result hreply))
  | giveUp _ hopen he => exact h.giveUp hopen he

theorem Sound.step {b : Workroom lang} (h : Sound b) (event : Event) : Sound (b.step event) :=
  h.of_steps (steps_step b event)

theorem sound_start (lang : Script.Language) (config : SandboxConfig) : Sound (start lang config) :=
  ⟨rfl, by simp [start], by simp [start], by simp [start], by simp [start, workers],
    by simp [start, workers], by simp [start], by simp [start]⟩

theorem Sound.run {b : Workroom lang} (h : Sound b) (events : List Event) :
    Sound (b.run events) := by
  induction events generalizing b with
  | nil => exact h
  | cons event rest ih => exact ih (h.step event)

/-! ## How calls go on -/

/-- What an event does to a call that has been made. -/
structure Continues (b : Workroom lang) (event : Event) (n : Nat) (c c' : Call) : Prop where
  job_eq : c'.job = c.job
  serial_eq : c'.serial = c.serial
  /-- A reply is what a worker says to the job that the call has queued with it. -/
  reply : c'.reply = c.reply ∨ ∃ serial rest result, event = .work serial ∧
    (b.workers serial).queue = (n, c.job) :: rest ∧
    (c.job.perform (b.workers serial).known).1 = .answer result ∧ c'.reply = some result
  /-- A call ends once, with the reply to it or with none. -/
  told : c'.told = c.told ∨
    c.told = none ∧ ∃ result, c'.told = some result ∧ (c.reply = some result ∨ IsLost result)

variable {b : Workroom lang}

theorem Continues.refl (b : Workroom lang) (event : Event) (n : Nat) (c : Call) :
    Continues b event n c c := ⟨rfl, rfl, .inl rfl, .inl rfl⟩

/-- When something is entered for one call, the others go on as they are. -/
theorem continues_setCall {b' : Workroom lang} {event : Event} {n : Nat} {c₀ : Call}
    (f : Call → Call)
    (hcalls : b'.calls = b.calls) (hc₀ : b.calls[n]? = some c₀)
    (hf : Continues b event n c₀ (f c₀)) {i : Nat} {c : Call} (hc : b.calls[i]? = some c) :
    ∃ c', (b'.setCall n f).calls[i]? = some c' ∧ Continues b event i c c' := by
  rcases getElem?_setCall (hcalls ▸ hc₀) f (hcalls ▸ hc) with hsame | ⟨rfl, rfl, hnew⟩
  · exact ⟨c, hsame, .refl b event i c⟩
  · exact ⟨f c, hnew, hf⟩

/-- The calls that have been made stay in their places. -/
theorem Enters.getElem?_eq {b' : Workroom lang} {job : Job} {c₀ : Call} (h : Enters b job c₀ b')
    {n : Nat} {c : Call} (hc : b.calls[n]? = some c) : b'.calls[n]? = some c := by
  rw [h.calls_eq, List.getElem?_append_left (List.getElem?_eq_some_iff.1 hc).1, hc]

/-- A call that is not over ends, with the reply to it or with none. -/
theorem continues_tell {b' : Workroom lang} {event : Event} {n : Nat} {c₀ : Call}
    (hcalls : b'.calls = b.calls) (hopen : b.open? n = some c₀)
    {result : Except SandboxError Answer} (hr : c₀.reply = some result ∨ IsLost result)
    {i : Nat} {c : Call} (hc : b.calls[i]? = some c) :
    ∃ c', (b'.setCall n fun c => { c with told := some result }).calls[i]? = some c' ∧
      Continues b event i c c' := by
  obtain ⟨hc₀, hnone⟩ := told_of_open? hopen
  exact continues_setCall (fun c => { c with told := some result }) hcalls hc₀
    ⟨rfl, rfl, .inl rfl, .inr ⟨hnone, result, rfl, hr⟩⟩ hc

theorem Sound.continues_step (h : Sound b) (event : Event) {n : Nat} {c : Call}
    (hc : b.calls[n]? = some c) :
    ∃ c', (b.step event).calls[n]? = some c' ∧ Continues b event n c c' := by
  have hsteps := steps_step b event
  generalize b.step event = b' at hsteps ⊢
  -- Calls that begin stand behind the others; only a reply and an end are entered for a call.
  cases hsteps with
  | idle | stop => exact ⟨c, hc, .refl b event n c⟩
  | @compile source start =>
    obtain ⟨c₀, henters⟩ := enters_dispatch (b := b.reserve) h.interpreter_eq
      ⟨⟨b.sandbox.nextScript, source⟩, .compile⟩ start
    exact ⟨c, henters.getElem?_eq hc, .refl b _ n c⟩
  | @evaluate m value args start handle _ =>
    obtain ⟨c₀, henters⟩ := enters_dispatch h.interpreter_eq ⟨handle, .evaluate value args⟩ start
    exact ⟨c, henters.getElem?_eq hc, .refl b _ n c⟩
  | @reply serial m job rest result known hqueue hperform =>
    obtain ⟨c₀, hc₀, hjob⟩ := h.queued serial (m, job) (hqueue ▸ List.mem_cons_self)
    obtain rfl : c₀.job = job := hjob
    have hreply : (c₀.job.perform (b.workers serial).known).1 = .answer result := by
      rw [hperform]
    exact continues_setCall (fun c => { c with reply := some result }) rfl hc₀
      ⟨rfl, rfl, .inr ⟨serial, rest, result, rfl, hqueue, hreply, rfl⟩, .inl rfl⟩ hc
  | tell hopen hreply => exact continues_tell rfl hopen (.inl hreply) hc
  | giveUp _ hopen he => exact continues_tell rfl hopen (.inr he) hc

/-! ## The worker at work -/

/-- A call with a live worker at work goes to that worker; else a new one takes its place. -/
theorem worker_dispatch (b : Workroom lang) (job : Job) (start : Start) {serial : Nat}
    (h : b.sandbox.worker = some serial)
    (hnot : (b.dispatch job start).sandbox.worker ≠ some serial) :
    (b.workers serial).running = false ∧
      ∃ serial', (b.dispatch job start).sandbox.worker = some serial' := by
  cases hrunning : (b.workers serial).running with
  | false =>
    refine ⟨rfl, ?_⟩
    unfold dispatch
    split
    · exact ⟨serial, h⟩
    · exact ⟨_, Sandbox.worker_acquire _⟩
  | true =>
    refine absurd ?_ hnot
    have hpresent : b.present? = some serial := by
      rw [present?, h, Option.filter_some, if_pos hrunning]
    unfold dispatch
    rw [hpresent]
    rfl

theorem worker_giveUp (b : Workroom lang) (n : Nat) (c : Call) (e : SandboxError) :
    (b.giveUp n c e).sandbox.worker =
      if b.sandbox.worker = some c.serial then none else b.sandbox.worker := by
  show (b.sandbox.abandon c.serial).worker = _
  unfold Sandbox.abandon
  split <;> rfl

/-- The worker at work is only given up by a caller who has waited for it, and otherwise replaced
once it has stopped. -/
theorem worker_step (b : Workroom lang) (event : Event) {serial : Nat}
    (h : b.sandbox.worker = some serial) (hnot : (b.step event).sandbox.worker ≠ some serial) :
    (∃ n c, (event = .collect n ∨ event = .expire n) ∧ b.open? n = some c ∧ c.serial = serial ∧
        (b.step event).sandbox.worker = none) ∨
      (b.workers serial).running = false ∧
        ∃ serial', (b.step event).sandbox.worker = some serial' := by
  have hsteps := steps_step b event
  generalize b.step event = b' at hsteps hnot ⊢
  cases hsteps with
  | idle | reply | stop | tell => exact absurd h hnot
  | @compile source start => exact .inr (worker_dispatch b.reserve _ start h hnot)
  | @evaluate n value args start => exact .inr (worker_dispatch b _ start h hnot)
  | @giveUp _ n c e hevent hopen =>
    rw [worker_giveUp, h] at hnot ⊢
    -- Giving up another worker leaves the one at work alone.
    split at hnot
    · next he =>
      rw [if_pos he]
      exact .inl ⟨n, c, hevent, hopen, (Option.some.inj he).symm, rfl⟩
    · exact absurd rfl hnot

/-! ## What callers can rely on -/

/-- What callers can rely on at any moment, whatever has happened before. -/
structure Reliable (b : Workroom lang) : Prop where
  /-- What the caller of a script is told, unless no worker has said it, is what a new worker finds
  out about the source. -/
  judged : ∀ c ∈ b.calls, ∀ value args result, c.job.request = .evaluate value args →
    c.told = some result → ¬ IsLost result →
    ∃ verdict, result = verdict.map .judged ∧
      ∀ id, Programs.fresh lang ⟨id, c.job.handle.source⟩ value args = .answer verdict
  /-- Scripts are run by handles that calls have returned. -/
  returned : ∀ c ∈ b.calls, ∀ value args, c.job.request = .evaluate value args →
    ∃ c' ∈ b.calls, c'.handle? = some c.job.handle
  /-- A call only ever gets the reply to its own job, and it ends once. -/
  continues : ∀ event n c, b.calls[n]? = some c →
    ∃ c', (b.step event).calls[n]? = some c' ∧ Continues b event n c c'
  /-- Who gives up a worker leaves any other at work alone. -/
  worker : ∀ event serial, b.sandbox.worker = some serial →
    (b.step event).sandbox.worker ≠ some serial →
    (∃ n c, (event = .collect n ∨ event = .expire n) ∧ b.open? n = some c ∧ c.serial = serial ∧
        (b.step event).sandbox.worker = none) ∨
      (b.workers serial).running = false ∧
        ∃ serial', (b.step event).sandbox.worker = some serial'

/-- What a new worker says to a script goes by the source alone. -/
theorem Job.fresh_evaluate {handle : ScriptHandle} {value : Json} {args : List Json}
    {result : Except SandboxError Answer}
    (h : Job.fresh lang ⟨handle, .evaluate value args⟩ = .answer result) :
    ∃ verdict, result = verdict.map .judged ∧
      ∀ id, Programs.fresh lang ⟨id, handle.source⟩ value args = .answer verdict := by
  have hsame : ∀ id, Programs.fresh lang ⟨id, handle.source⟩ value args =
      Programs.fresh lang handle value args := by
    intro id
    simp only [Programs.fresh, Programs.evaluate, KeyMap.find?_nil]
    rcases Programs.read lang handle.source with (_ | _) | _ | _ <;> rfl
  change (Programs.fresh lang handle value args).map .judged = .answer result at h
  cases hreply : Programs.fresh lang handle value args with
  | answer verdict =>
    rw [hreply] at h
    exact ⟨verdict, (Reply.answer.inj h).symm, fun id => (hsame id).trans hreply⟩
  | late => simp [hreply, Reply.map] at h
  | stopped => simp [hreply, Reply.map] at h

theorem Sound.reliable (h : Sound b) : Reliable b := by
  refine ⟨fun c hc value args result hrequest htold hlost => ?_, h.returned,
    fun event n c hc => h.continues_step event hc, fun event serial => worker_step b event⟩
  have hfresh := (h.told c hc result htold).resolve_left hlost
  have hjob : c.job = ⟨c.job.handle, .evaluate value args⟩ := by rw [← hrequest]
  rw [hjob] at hfresh
  exact Job.fresh_evaluate hfresh

/-- Whatever scripts are written in, whatever callers do at the same time, and however workers are
late, stop and are replaced, no answer depends on what was asked before. The numbers of scripts and
workers do not wrap: this is about fewer than `2 ^ 64` of them. -/
theorem reliable_run (lang : Script.Language) (config : SandboxConfig) (events : List Event) :
    Reliable ((start lang config).run events) :=
  ((sound_start lang config).run events).reliable

/-- A language whose scripts name a variable and give its value. -/
def naming : Script.Language where
  Program := String
  compile := .result
  execute name env :=
    match env.lookup name with
    | some (.bool holds) => .result (some holds)
    | some _ => .result none
    | none => .failure name

/-- A script is run by the worker that has compiled it, which is given up before it has answered,
and then by the next one. -/
def replaced : Workroom naming :=
  (start naming {}).run
    [.compile "value" .ready, .work 1, .collect 0, .evaluate 0 (.bool false) [] .ready, .expire 1,
      .evaluate 0 (.bool true) [] .ready, .work 2, .collect 2]

theorem reliable_run_replaced :
    Reliable replaced ∧ replaced.sandbox.worker = some 2 ∧
      replaced.calls.map Call.told =
        [some (.ok .accepted), some (.error (.timeout 100)), some (.ok (.judged true))] ∧
      ∀ id, Programs.fresh naming ⟨id, "value"⟩ (.bool true) [] = .answer (.ok true) := by
  have hreliable : Reliable replaced := reliable_run naming {} _
  have hcall : replaced.calls[2]? = some
      { job := ⟨⟨1, "value"⟩, .evaluate (.bool true) []⟩, serial := 2
        reply := some (.ok (.judged true)), told := some (.ok (.judged true)) } := rfl
  refine ⟨hreliable, rfl, rfl, ?_⟩
  -- The second worker has only seen the job of the last call, and says what any new one would.
  obtain ⟨verdict, hverdict, hnew⟩ := hreliable.judged _ (List.mem_of_getElem? hcall) _ _ _ rfl rfl
    fun hlost => hlost
  cases verdict with
  | error e => simp [Except.map] at hverdict
  | ok holds =>
    obtain rfl : true = holds := Answer.judged.inj (Except.ok.inj hverdict)
    exact hnew

end Workroom

end LayeredAccess
