/-
  LayeredAccess.Proofs.Compiler.Connection

  A client that is connected to a service, as a registry sees it: what is sent
  reaches the service at once, and the replies come back. Between two requests
  the client is idle.
-/
import LayeredAccess.Proofs.Compiler
import LayeredAccess.Proofs.KeyMap
import LayeredAccess.Registry.Drive

namespace LayeredAccess

/-! ## What to expect of a compiler elsewhere -/

namespace RemoteCompiler

/-- A compiler elsewhere does what the compiler of a service does at the other end, and answers
all jobs whose generations are words of 64 bits. -/
structure Serves {σ : Type} (remote : RemoteCompiler σ) (reaches : σ → Compiler → Prop) :
    Prop where
  send_eq : ∀ {s c}, reaches s c → ∀ command, (∀ job, command ≠ .compile job) →
    ∃ s', remote.send s command = (.ok (), s') ∧ reaches s' (c.handle command.toEnvelope).2
  compile_eq : ∀ {s c}, reaches s c → ∀ job, job.generation < wordLimit →
    ∃ s', remote.compile s job = (.ok (.ofResult job.generation (c.compile job).1), s') ∧
      reaches s' (c.compile job).2

/-- A service answers every job whose generation is a word of 64 bits. -/
theorem compile_ofService {job : CompileJob} (h : job.generation < wordLimit) (c : Compiler) :
    ofService.compile c job =
      (.ok (.ofResult job.generation (c.compile job).1), (c.compile job).2) := by
  simp only [ofService, Compiler.handle_compile h, Except.toOption, Option.join_some,
    Option.bind_some, Compiler.outcome?_reply h]

section Serves

variable {σ : Type} {remote : RemoteCompiler σ} {reaches : σ → Compiler → Prop}

/-- Commands without answer are carried out one after the other. -/
theorem Serves.sendAll_eq (h : remote.Serves reaches) {commands : List CompilerCommand}
    (hjob : ∀ command ∈ commands, ∀ job, command ≠ .compile job) :
    ∀ {s : σ} {c : Compiler}, reaches s c → ∃ s', remote.sendAll s commands = (.ok (), s') ∧
      reaches s' (c.handleAll (commands.map (·.toEnvelope))).2 := by
  induction commands with
  | nil => exact fun {s _} hs => ⟨s, rfl, hs⟩
  | cons command rest ih =>
    intro s c hs
    obtain ⟨hfirst, hothers⟩ := List.forall_mem_cons.1 hjob
    obtain ⟨s₁, hsend, hs₁⟩ := h.send_eq hs command hfirst
    obtain ⟨s', hall, hs'⟩ := ih hothers hs₁
    refine ⟨s', ?_, hs'⟩
    rw [sendAll, hsend]
    exact hall

/-- Jobs are compiled one after the other, and all of them are answered. -/
theorem Serves.compileAll_eq (h : remote.Serves reaches) {jobs : List CompileJob}
    (hword : ∀ job ∈ jobs, job.generation < wordLimit) :
    ∀ {s : σ} {c : Compiler}, reaches s c →
      ∃ s', remote.compileAll s jobs = ((c.answerAll jobs).1.map fun a => (a.1, .ok a.2), s') ∧
        reaches s' (c.answerAll jobs).2 := by
  induction jobs with
  | nil => exact fun {s _} hs => ⟨s, rfl, hs⟩
  | cons job rest ih =>
    intro s c hs
    obtain ⟨hfirst, hothers⟩ := List.forall_mem_cons.1 hword
    obtain ⟨s₁, hcompile, hs₁⟩ := h.compile_eq hs job hfirst
    obtain ⟨s', hall, hs'⟩ := ih hothers hs₁
    refine ⟨s', ?_, hs'⟩
    rw [compileAll, hcompile]
    simp only [hall]
    rfl

end Serves

end RemoteCompiler

/-! ## Connections -/

/-- A client and the service that it is connected to. -/
structure Connection where
  client : Compiler.Client := {}
  service : Compiler := {}

namespace Connection

/-- The service handles some messages, and the client takes in the replies: the callers that are
done, with what they are told. -/
def exchange (c : Connection) (messages : List Envelope) :
    List (Compiler.Waiter × Except EngineError CompileOutcome) × Connection :=
  let (replies, service) := c.service.handleAll messages
  let (client, output) := c.client.receiveAll (replies.filterMap id)
  (output.done, { client, service })

/-- A connection as a registry sees it. A caller that is never told anything gives up. -/
def remote : RemoteCompiler Connection where
  send c command :=
    match c.client.send command with
    | .ok message => (.ok (), (c.exchange [message]).2)
    | .error e => (.error e, c)
  compile c job :=
    let waiter := c.client.nextWaiter
    let (client, output) := c.client.compile job
    let (done, c) := { c with client : Connection }.exchange output.sent
    match KeyMap.find? (output.done ++ done) waiter with
    | some result => (result, c)
    | none => (.error Compiler.Client.disconnected, c)

/-- The client is connected and waits for nothing. -/
structure Idle (c : Connection) : Prop where
  pending_eq : c.client.pending = []
  requestsOpen : c.client.requestsOpen = true
  repliesOpen : c.client.repliesOpen = true

theorem idle_empty : ({} : Connection).Idle := ⟨rfl, rfl, rfl⟩

/-- What is handled without an answer to a job leaves the client alone. -/
theorem exchange_of_none {c : Connection} {message : Envelope}
    (h : ∀ reply, (c.service.handle message).1.toOption.join = some reply →
      Compiler.Client.outcome? reply = none) :
    c.exchange [message] = ([], { c with service := (c.service.handle message).2 }) := by
  cases hreply : (c.service.handle message).1.toOption.join with
  | none =>
    simp only [exchange, Compiler.handleAll, hreply]
    rfl
  | some reply =>
    have hreceive : c.client.receive reply = (c.client, {}) :=
      Compiler.Client.receive_of_none (h reply hreply)
    simp only [exchange, Compiler.handleAll, hreply, List.filterMap_cons, id_eq, List.filterMap_nil,
      Compiler.Client.receiveAll, hreceive, List.append_nil]

/-- What a request for a job is recognized by. -/
def requestKey (job : CompileJob) : Compiler.RequestKey := (job.id, job.generation)

/-- A request that nobody else waits for is opened and sent. -/
theorem compile_new {client : Compiler.Client} (hopen : client.requestsOpen = true)
    {job : CompileJob} (hnew : KeyMap.find? client.pending (requestKey job) = none) :
    client.compile job =
      ({ client with
          pending := client.pending ++ [(requestKey job, [client.nextWaiter])]
          nextWaiter := client.nextWaiter + 1 },
        { sent := [(CompilerCommand.compile job).toEnvelope] }) := by
  have hcontains : KeyMap.contains client.pending (job.id, job.generation) = false := by
    rw [KeyMap.contains, show KeyMap.find? client.pending (job.id, job.generation) = none from hnew]
    rfl
  simp only [Compiler.Client.compile, hcontains, Compiler.Client.send, hopen, if_true, requestKey,
    Bool.false_eq_true, if_false]

/-- The reply to the oldest open request tells its caller how the job ended. -/
theorem exchange_request {client : Compiler.Client} (service : Compiler) {job : CompileJob}
    {waiter : Compiler.Waiter} {pending : List (Compiler.RequestKey × List Compiler.Waiter)}
    (hopen : client.repliesOpen = true)
    (hpending : client.pending = (requestKey job, [waiter]) :: pending)
    (hnew : KeyMap.find? pending (requestKey job) = none) (hword : job.generation < wordLimit) :
    exchange ⟨client, service⟩ [(CompilerCommand.compile job).toEnvelope] =
      ([(waiter, .ok (.ofResult job.generation (service.compile job).1))],
        ⟨{ client with pending := pending }, (service.compile job).2⟩) := by
  -- The request is the only one of its key, so nothing is left of it.
  have herase : KeyMap.erase client.pending (requestKey job) = pending := by
    rw [hpending, KeyMap.erase, if_pos rfl, KeyMap.erase_eq_self hnew]
  have hfind : KeyMap.find? client.pending (requestKey job) = some [waiter] := by
    rw [hpending, KeyMap.find?_cons, if_pos rfl]
  have hreceive : client.receive (Compiler.reply job (service.compile job).1) =
      ({ client with pending := pending },
        { done := [(waiter, .ok (.ofResult job.generation (service.compile job).1))] }) := by
    have hreply : Compiler.Client.outcome? (Compiler.reply job (service.compile job).1) =
        some (requestKey job, .ofResult job.generation (service.compile job).1) :=
      Compiler.outcome?_reply hword _
    rw [Compiler.Client.receive_of_some hopen hreply, herase, hfind]
    rfl
  simp only [exchange, Compiler.handleAll, Compiler.handle_compile hword, Except.toOption,
    Option.join_some, List.filterMap_cons, id_eq, List.filterMap_nil, Compiler.Client.receiveAll,
    hreceive, List.append_nil]

/-- A request to an idle client is sent, and the reply to it tells the only caller. -/
theorem compile_eq {c : Connection} (h : c.Idle) {job : CompileJob}
    (hjob : job.generation < wordLimit) : remote.compile c job =
      (.ok (.ofResult job.generation (c.service.compile job).1),
        { client := { c.client with nextWaiter := c.client.nextWaiter + 1 }
          service := (c.service.compile job).2 }) := by
  let waiting : Compiler.Client :=
    { c.client with
      pending := [(requestKey job, [c.client.nextWaiter])]
      nextWaiter := c.client.nextWaiter + 1 }
  have hsent : c.client.compile job =
      (waiting, { sent := [(CompilerCommand.compile job).toEnvelope] }) := by
    rw [compile_new h.requestsOpen (by rw [h.pending_eq]; rfl), h.pending_eq]
    rfl
  have hexchange :=
    @exchange_request waiting c.service job _ _ h.repliesOpen rfl (KeyMap.find?_nil _) hjob
  simp only [remote, hsent, hexchange, List.nil_append, KeyMap.find?_cons, if_true, waiting,
    h.pending_eq]

/-- The service at the other end of an idle connection. -/
def Reaches (c : Connection) (service : Compiler) : Prop := c.Idle ∧ c.service = service

/-- A connection does what the service does, from one idle moment to the next. -/
theorem serves_remote : remote.Serves Reaches where
  -- No reply to an eviction answers a request.
  send_eq := by
    rintro c _ ⟨hidle, rfl⟩ command hcommand
    have hnone : ∀ reply, (c.service.handle command.toEnvelope).1.toOption.join = some reply →
        Compiler.Client.outcome? reply = none := by
      intro reply hreply
      cases command with
      | compile job => exact absurd rfl (hcommand job)
      | evict ids =>
        rw [Compiler.handle_evict] at hreply
        obtain rfl := Option.some.inj hreply
        rfl
      | clear => simp [CompilerCommand.toEnvelope, Compiler.handle, Except.toOption] at hreply
    refine ⟨{ c with service := (c.service.handle command.toEnvelope).2 }, ?_,
      ⟨hidle.pending_eq, hidle.requestsOpen, hidle.repliesOpen⟩, rfl⟩
    simp only [remote, Compiler.Client.send, if_pos hidle.requestsOpen, exchange_of_none hnone]
  compile_eq := by
    rintro c _ ⟨hidle, rfl⟩ job hjob
    exact ⟨_, compile_eq hidle hjob, ⟨hidle.pending_eq, hidle.requestsOpen, hidle.repliesOpen⟩, rfl⟩

/-! ## Requests at the same time -/

/-- Opens requests for some jobs before any reply is awaited. -/
def openAll (client : Compiler.Client) :
    List CompileJob → Compiler.Client × Compiler.Client.Output
  | [] => (client, {})
  | job :: rest =>
    let (client, first) := client.compile job
    let (client, later) := openAll client rest
    (client, { sent := first.sent ++ later.sent, done := first.done ++ later.done })

/-- The open requests for some jobs, with one caller each. -/
def requests (waiter : Compiler.Waiter) :
    List CompileJob → List (Compiler.RequestKey × List Compiler.Waiter)
  | [] => []
  | job :: rest => (requestKey job, [waiter]) :: requests (waiter + 1) rest

theorem find?_requests {key : Compiler.RequestKey} {jobs : List CompileJob}
    (h : key ∉ jobs.map requestKey) (waiter : Compiler.Waiter) :
    KeyMap.find? (requests waiter jobs) key = none := by
  induction jobs generalizing waiter with
  | nil => rfl
  | cons job rest ih =>
    rw [List.map_cons, List.mem_cons, not_or] at h
    rw [requests, KeyMap.find?_cons, if_neg (Ne.symm h.1)]
    exact ih h.2 (waiter + 1)

/-- Requests for different jobs are all sent, in the order of the jobs. -/
theorem openAll_eq {jobs : List CompileJob} (hnodup : (jobs.map requestKey).Nodup) :
    ∀ {client : Compiler.Client}, client.requestsOpen = true →
      (∀ key ∈ jobs.map requestKey, KeyMap.find? client.pending key = none) →
      openAll client jobs =
        ({ client with
            pending := client.pending ++ requests client.nextWaiter jobs
            nextWaiter := client.nextWaiter + jobs.length },
          { sent := jobs.map fun job => (CompilerCommand.compile job).toEnvelope }) := by
  -- By induction on the jobs; each opens a request of its own, behind the earlier ones.
  induction jobs with
  | nil =>
    intro client _ _
    simp [openAll, requests]
  | cons job rest ih =>
    intro client hopen hnew
    obtain ⟨hfirst, hrest⟩ := List.nodup_cons.1 hnodup
    obtain ⟨hnew, hnews⟩ := List.forall_mem_cons.1 hnew
    simp only [openAll, compile_new hopen hnew]
    rw [ih hrest (by exact hopen)]
    · simp [requests, Nat.add_assoc, Nat.add_comm 1]
    · intro key hkey
      rw [KeyMap.find?_append, hnews key hkey, KeyMap.find?_cons, if_neg]
      · rfl
      · rintro rfl
        exact hfirst hkey

/-- Messages are handled one after the other. -/
theorem exchange_cons (c : Connection) (message : Envelope) (rest : List Envelope) :
    c.exchange (message :: rest) =
      ((c.exchange [message]).1 ++ ((c.exchange [message]).2.exchange rest).1,
        ((c.exchange [message]).2.exchange rest).2) := by
  cases hreply : (c.service.handle message).1.toOption.join with
  | none =>
    simp [exchange, Compiler.handleAll, hreply, Compiler.Client.receiveAll]
  | some reply =>
    simp [exchange, Compiler.handleAll, hreply, Compiler.Client.receiveAll]

/-- The replies to open requests tell each caller how its job ended. -/
theorem exchange_requests {jobs : List CompileJob} (hnodup : (jobs.map requestKey).Nodup)
    (hword : ∀ job ∈ jobs, job.generation < wordLimit) :
    ∀ {client : Compiler.Client} {service : Compiler} (waiter : Compiler.Waiter),
      client.repliesOpen = true → client.pending = requests waiter jobs →
      exchange ⟨client, service⟩ (jobs.map fun job => (CompilerCommand.compile job).toEnvelope) =
        ((List.range' waiter jobs.length).zip
            ((RemoteCompiler.ofService.compileAll service jobs).1.map (·.2)),
          ⟨{ client with pending := [] },
            (RemoteCompiler.ofService.compileAll service jobs).2⟩) := by
  -- By induction on the jobs; the reply to the first one closes the first request.
  induction jobs with
  | nil =>
    intro client service waiter _ hpending
    have hclient : ({ client with pending := [] } : Compiler.Client) = client := by
      rw [← show client.pending = [] from hpending]
    rw [hclient]
    rfl
  | cons job rest ih =>
    intro client service waiter hopen hpending
    obtain ⟨hfirst, hrest⟩ := List.nodup_cons.1 hnodup
    obtain ⟨hword, hwords⟩ := List.forall_mem_cons.1 hword
    let next : Compiler.Client := { client with pending := requests (waiter + 1) rest }
    have hcompile := RemoteCompiler.compile_ofService hword service
    have hnext := @ih hrest hwords next (service.compile job).2 (waiter + 1) hopen rfl
    rw [List.map_cons, exchange_cons,
      exchange_request service hopen hpending (find?_requests hfirst _) hword, hnext]
    simp only [RemoteCompiler.compileAll, hcompile]
    rfl

/-- Jobs that are compiled one after the other. -/
theorem compileAll_eq {jobs : List CompileJob} (hword : ∀ job ∈ jobs, job.generation < wordLimit) :
    ∀ {c : Connection}, c.Idle → remote.compileAll c jobs =
      ((RemoteCompiler.ofService.compileAll c.service jobs).1,
        { client := { c.client with nextWaiter := c.client.nextWaiter + jobs.length }
          service := (RemoteCompiler.ofService.compileAll c.service jobs).2 }) := by
  induction jobs with
  | nil => exact fun _ => rfl
  | cons job rest ih =>
    intro c h
    obtain ⟨hword, hwords⟩ := List.forall_mem_cons.1 hword
    let next : Connection :=
      { client := { c.client with nextWaiter := c.client.nextWaiter + 1 }
        service := (c.service.compile job).2 }
    have hnext := @ih hwords next ⟨h.pending_eq, h.requestsOpen, h.repliesOpen⟩
    simp only [RemoteCompiler.compileAll, compile_eq h hword,
      RemoteCompiler.compile_ofService hword c.service]
    rw [hnext]
    simp [next, Nat.add_assoc, Nat.add_comm 1]

/-- It makes no difference if all jobs are sent before any reply is awaited: each caller is told
what it would be told if the jobs were compiled one after the other. -/
theorem exchange_openAll {c : Connection} (h : c.Idle) {jobs : List CompileJob}
    (hnodup : (jobs.map requestKey).Nodup) (hword : ∀ job ∈ jobs, job.generation < wordLimit) :
    let (client, output) := openAll c.client jobs
    ({ c with client } : Connection).exchange output.sent =
      ((List.range' c.client.nextWaiter jobs.length).zip ((remote.compileAll c jobs).1.map (·.2)),
        (remote.compileAll c jobs).2) := by
  obtain ⟨⟨pending, next, requestsOpen, repliesOpen⟩, service⟩ := c
  obtain ⟨rfl, rfl, rfl⟩ := h
  have hopened := @openAll_eq jobs hnodup ⟨[], next, true, true⟩ rfl fun _ _ => rfl
  rw [compileAll_eq hword ⟨rfl, rfl, rfl⟩]
  simp only [hopened]
  exact exchange_requests hnodup hword next rfl rfl

end Connection

end LayeredAccess
