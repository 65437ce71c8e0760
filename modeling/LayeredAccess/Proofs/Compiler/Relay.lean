/-
  LayeredAccess.Proofs.Compiler.Relay

  A compiler that is asked by messages, beside one that is called directly. A
  command that is sent as a message does what it does when it is called, and its
  reply, read by the asking side, says how the job of just this node and
  generation has ended. Whatever is no request is refused, and leaves the
  compiler as it is.

  Which messages are requests does not depend on the compiler
  (`isOk_handle`); `relays` puts the rest together.
-/
import LayeredAccess.Proofs.Compiler

namespace LayeredAccess

/-! ## Requests -/

/-- Is a message a request that can be read? -/
def Envelope.isRequest (e : Envelope) : Bool :=
  match e.event with
  | .process => (CompileJob.decode e.data).isOk
  | .invalidate => (InvalidateData.decode e.data).isOk
  | .clearCache => true
  | .compiled | .compilationFailed | .deleteCached => false

namespace CompilerCommand

/-- What a command does to a compiler that is called directly. -/
def act (c : Compiler) : CompilerCommand → Compiler
  | .compile job => (c.compile job).2
  | .evict ids => (c.evict ids).2
  | .clear => c.clear

/-- Does a command fit into a message? Generations have 64 bits there. -/
def Fits : CompilerCommand → Prop
  | .compile job => job.generation < wordLimit
  | .evict _ | .clear => True

end CompilerCommand

namespace Compiler

variable {e : Envelope}

/-- A message is accepted if it is a request, whatever the compiler has in its cache. -/
theorem isOk_handle (c : Compiler) (e : Envelope) : (c.handle e).1.isOk = e.isRequest := by
  obtain ⟨event, data⟩ := e
  cases event with
  | process =>
    simp only [handle, Envelope.isRequest]
    cases CompileJob.decode data <;> rfl
  | invalidate =>
    simp only [handle, Envelope.isRequest]
    cases InvalidateData.decode data <;> rfl
  | compiled | compilationFailed | clearCache | deleteCached => rfl

/-- What is no request is refused before anything is done. -/
theorem handle_of_not_isRequest (h : e.isRequest = false) (c : Compiler) :
    ∃ error, c.handle e = (.error error, c) := by
  obtain ⟨event, data⟩ := e
  cases event with
  | process =>
    simp only [Envelope.isRequest] at h
    cases hdata : CompileJob.decode data with
    | error err => exact ⟨.ofDecode err, by simp only [handle, hdata]⟩
    | ok job => simp [hdata, Except.isOk, Except.toBool] at h
  | invalidate =>
    simp only [Envelope.isRequest] at h
    cases hdata : InvalidateData.decode data with
    | error err => exact ⟨.ofDecode err, by simp only [handle, hdata]⟩
    | ok ids => simp [hdata, Except.isOk, Except.toBool] at h
  | clearCache => simp [Envelope.isRequest] at h
  | compiled | compilationFailed | deleteCached => exact ⟨_, rfl⟩

/-- A request has a reply unless it asks for a clear. -/
theorem exists_reply_iff (h : e.isRequest = true) (c : Compiler) :
    (c.handle e).1.toOption.join.isSome ↔ e.event = .process ∨ e.event = .invalidate := by
  obtain ⟨event, data⟩ := e
  cases event with
  | process =>
    simp only [Envelope.isRequest] at h
    cases hdata : CompileJob.decode data with
    | error err => simp [hdata, Except.isOk, Except.toBool] at h
    | ok job => simp [handle, hdata, Except.toOption]
  | invalidate =>
    simp only [Envelope.isRequest] at h
    cases hdata : InvalidateData.decode data with
    | error err => simp [hdata, Except.isOk, Except.toBool] at h
    | ok ids => simp [handle, hdata, Except.toOption]
  | clearCache => simp [handle, Except.toOption]
  | compiled | compilationFailed | deleteCached => simp [Envelope.isRequest] at h

/-! ## Commands as messages -/

/-- A command that fits into a message does what it does when it is called. -/
theorem handle_toEnvelope {command : CompilerCommand} (h : command.Fits) (c : Compiler) :
    ∃ reply, c.handle command.toEnvelope = (.ok reply, command.act c) := by
  cases command with
  | compile job => exact ⟨_, handle_compile h c⟩
  | evict ids => exact ⟨_, handle_evict ids c⟩
  | clear => exact ⟨none, rfl⟩

/-- Commands that are sent one after the other do what they do when they are called. -/
theorem handleAll_toEnvelope {commands : List CompilerCommand}
    (h : ∀ command ∈ commands, command.Fits) (c : Compiler) :
    (c.handleAll (commands.map CompilerCommand.toEnvelope)).2 =
      commands.foldl CompilerCommand.act c := by
  -- Each command finds the compiler as the commands before it have left it.
  induction commands generalizing c with
  | nil => rfl
  | cons command rest ih =>
    obtain ⟨reply, hreply⟩ := handle_toEnvelope (h command List.mem_cons_self) c
    have hrest := ih (fun other hother => h other (List.mem_cons_of_mem _ hother)) (command.act c)
    simp only [List.map_cons, handleAll, hreply, List.foldl_cons]
    exact hrest

/-- What a compilation lacks are the dependencies without a value, as they are declared. -/
theorem eq_missing_of_compile {c : Compiler} {job : CompileJob} {missing : List String}
    (h : (c.compile job).1 = .error missing) :
    missing ≠ [] ∧ missing = job.dependencies.filter fun d => !c.contains d := by
  cases hmissing : c.missing job with
  | nil =>
    rw [compile_of_missing_nil hmissing] at h
    simp at h
  | cons d ds =>
    simp only [compile, hmissing] at h
    obtain rfl : d :: ds = missing := Except.error.inj h
    exact ⟨List.cons_ne_nil d ds, hmissing.symm⟩

/-- An acknowledgement concerns nobody who waits. -/
theorem receive_deleteCached (client : Client) (data : Json) :
    client.receive ⟨.deleteCached, data⟩ = (client, {}) :=
  Client.receive_of_none rfl

/-- A compiler that is asked by messages does what it does when it is called directly. -/
structure Relays (c : Compiler) : Prop where
  /-- A command is accepted, and has the effect of the call. -/
  accepted : ∀ command : CompilerCommand, command.Fits →
    ∃ reply, c.handle command.toEnvelope = (.ok reply, command.act c)
  /-- So it is with commands one after the other. -/
  run : ∀ commands : List CompilerCommand, (∀ command ∈ commands, command.Fits) →
    (c.handleAll (commands.map CompilerCommand.toEnvelope)).2 =
      commands.foldl CompilerCommand.act c
  /-- A job has one reply. It tells those who wait for the job of this node and generation, and
  nobody else, what the compilation gives. -/
  compiled : ∀ job : CompileJob, job.generation < wordLimit → ∃ reply,
    (c.handle (CompilerCommand.compile job).toEnvelope).1 = .ok (some reply) ∧
    Client.outcome? reply =
      some ((job.id, job.generation), .ofResult job.generation (c.compile job).1) ∧
    ∀ client : Client, client.repliesOpen = true →
      client.receive reply =
        ({ client with pending := KeyMap.erase client.pending (job.id, job.generation) },
          { done := ((KeyMap.find? client.pending (job.id, job.generation)).getD []).map
              fun w => (w, .ok (.ofResult job.generation (c.compile job).1)) })
  /-- Dependencies that are missing are told in the order in which the job declares them. -/
  missing : ∀ (job : CompileJob) (missing : List String), (c.compile job).1 = .error missing →
    missing ≠ [] ∧ missing = job.dependencies.filter fun d => !c.contains d
  /-- An eviction is acknowledged with the same nodes, and nobody waits for that. -/
  evicted : ∀ ids : List String, ∃ data,
    (c.handle (CompilerCommand.evict ids).toEnvelope).1 = .ok (some ⟨.deleteCached, data⟩) ∧
    InvalidateData.decode data = .ok ⟨ids⟩ ∧
    ∀ client : Client, client.receive ⟨.deleteCached, data⟩ = (client, {})
  /-- A clear has no reply. -/
  cleared : (c.handle CompilerCommand.clear.toEnvelope).1 = .ok none
  /-- A reply in the place of a request is refused and has no effect. -/
  refused_reply : ∀ e : Envelope,
    e.event = .compiled ∨ e.event = .compilationFailed ∨ e.event = .deleteCached →
      ∃ error, c.handle e = (.error error, c)
  /-- So is a job that can not be read. -/
  refused_process : ∀ (data : Json) (error : DecodeError),
    CompileJob.decode data = .error error → ∃ error, c.handle ⟨.process, data⟩ = (.error error, c)
  /-- So is an eviction that can not be read. -/
  refused_invalidate : ∀ (data : Json) (error : DecodeError),
    InvalidateData.decode data = .error error →
      ∃ error, c.handle ⟨.invalidate, data⟩ = (.error error, c)

/-- Whatever a compiler has in its cache, messages do what calls do. -/
theorem relays (c : Compiler) : Relays c where
  accepted command hfits := handle_toEnvelope hfits c
  run commands hfits := handleAll_toEnvelope hfits c
  -- The reply to a job is an answer to the request for it, and to no other.
  compiled job hword := by
    have hanswer := outcome?_reply hword (c.compile job).1
    refine ⟨reply job (c.compile job).1, ?_, hanswer, fun client hopen => ?_⟩
    · rw [handle_compile hword]
    · exact Client.receive_of_some hopen hanswer
  missing job missing h := eq_missing_of_compile h
  evicted ids := by
    refine ⟨InvalidateData.encode ⟨ids⟩, ?_, InvalidateData.decode_encode ⟨ids⟩, fun client => ?_⟩
    · rw [handle_evict]
    · exact receive_deleteCached client _
  cleared := rfl
  refused_reply e h := by
    apply handle_of_not_isRequest
    rcases h with h | h | h <;> simp only [Envelope.isRequest, h]
  refused_process data error h := by
    apply handle_of_not_isRequest
    simp only [Envelope.isRequest, h]
    rfl
  refused_invalidate data error h := by
    apply handle_of_not_isRequest
    simp only [Envelope.isRequest, h]
    rfl

end Compiler

end LayeredAccess
