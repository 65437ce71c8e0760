/-
  LayeredAccess.Proofs.Registry.Exchange

  A registry that leaves compiling to a service, with the messages between the
  two. Commands reach the service in the order in which they were given, but at
  any time; replies may come late, in any order, more than once or never.

  Whatever happens, a value that a node holds is the right one at the moment.
-/
import LayeredAccess.Proofs.Node.Entitlement
import LayeredAccess.Proofs.Node.Profile
import LayeredAccess.Proofs.Registry.Matching
import LayeredAccess.Proofs.Registry.Operation

namespace LayeredAccess

/-- A registry and a service, with what is on its way between them. -/
structure Exchange (ν : Type) [Node ν] where
  registry : Registry ν
  /-- The commands that have been taken from the outbox and not yet forwarded, oldest first. -/
  taken : List CompilerCommand := []
  /-- The messages that the service has not yet looked at, oldest first. -/
  channel : List Envelope := []
  service : Compiler := {}
  /-- The replies that the service has given so far. -/
  replies : List Envelope := []

namespace Exchange

variable {ν : Type} [Node ν] [NodeKind ν]

/-- Something that happens to a registry or a service. -/
inductive Event (ν : Type) [Node ν] [NodeKind ν] where
  | operate (operation : Operation ν)
  | takeOutbox
  /-- The oldest command that has been taken is sent. -/
  | forward
  /-- The service handles the oldest message. -/
  | serve
  /-- One of the replies given so far, be it for the first time or again, is taken in. -/
  | deliver (place : Nat)

def step (s : Exchange ν) : Event ν → Exchange ν
  | .operate operation => { s with registry := s.registry.operate operation }
  | .takeOutbox =>
    let (commands, registry) := s.registry.takeOutbox
    { s with registry, taken := s.taken ++ commands }
  | .forward =>
    match s.taken with
    | [] => s
    | command :: rest =>
      { s with taken := rest, channel := s.channel ++ [command.toEnvelope] }
  | .serve =>
    match s.channel with
    | [] => s
    | message :: rest =>
      let (result, service) := s.service.handle message
      { s with channel := rest, service, replies := s.replies ++ result.toOption.join.toList }
  | .deliver place =>
    match s.replies[place]?.bind Compiler.Client.outcome? with
    | none => s
    | some ((key, _), outcome) => { s with registry := s.registry.applyOutcome key outcome }

def run (s : Exchange ν) (events : List (Event ν)) : Exchange ν := events.foldl step s

/-- The exchange before anything has happened. -/
def start (sandbox : SandboxConfig) (verifier : Option Verifier) : Exchange ν where
  registry := .fresh { compileMode := .deferred, sandbox } verifier

/-! ## What every exchange keeps -/

/-- The messages in the channel are commands, and what is on its way matches the registry. -/
structure Invariant (verifier : Option Verifier) (given : List CompileJob)
    (queue : List CompilerCommand) (s : Exchange ν) : Prop where
  coherent : Registry.Coherent verifier s.registry
  channel_eq : s.channel = queue.map CompilerCommand.toEnvelope
  matched : (s.registry.outlook []).Matched
    ⟨given, queue ++ s.taken, s.service.get?, s.replies.filterMap Compiler.answer?⟩

variable {verifier : Option Verifier} {given : List CompileJob} {queue : List CompilerCommand}
  {s : Exchange ν}

theorem invariant_start (sandbox : SandboxConfig) (verifier : Option Verifier) :
    Invariant verifier [] [] (start sandbox verifier : Exchange ν) := by
  exact ⟨Registry.coherent_fresh _ verifier, rfl, Outlook.matched_empty (fun _ => rfl) rfl rfl _⟩

theorem Invariant.takeOutbox (h : Invariant verifier given queue s) :
    Invariant verifier (given ++ s.registry.outbox.filterMap Registry.job?) queue
      (s.step .takeOutbox) := by
  have hmatched := h.matched.takeOutbox
  rw [List.append_assoc] at hmatched
  exact ⟨h.coherent.takeOutbox, h.channel_eq, hmatched⟩

theorem step_forward (s : Exchange ν) : s.step .forward =
    { s with
      taken := s.taken.drop 1
      channel := s.channel ++ (s.taken.take 1).map CompilerCommand.toEnvelope } := by
  obtain ⟨registry, taken, channel, service, replies⟩ := s
  cases taken <;> simp [step]

/-- A command that is forwarded goes from one end of the queue to the other. -/
theorem Invariant.forward (h : Invariant verifier given queue s) :
    Invariant verifier given (queue ++ s.taken.take 1) (s.step .forward) := by
  rw [step_forward]
  refine ⟨h.coherent, by simp [h.channel_eq], ?_⟩
  rw [List.append_assoc, List.take_append_drop]
  exact h.matched

/-- The service handles a message as the command that it stands for. -/
theorem Invariant.step_serve {command : CompilerCommand} {rest : List CompilerCommand}
    (h : Invariant verifier given (command :: rest) s) : s.step .serve =
      let (result, service) := s.service.handle command.toEnvelope
      { s with
        channel := rest.map CompilerCommand.toEnvelope
        service
        replies := s.replies ++ result.toOption.join.toList } := by
  have hchannel : s.channel = command.toEnvelope :: rest.map CompilerCommand.toEnvelope :=
    h.channel_eq
  simp only [step, hchannel]

theorem Invariant.step_serve_nil (h : Invariant verifier given [] s) : s.step .serve = s := by
  have hchannel : s.channel = [] := h.channel_eq
  simp only [step, hchannel]

/-- A reply that is taken in is an answer, unless it is none to a job. -/
theorem step_deliver (s : Exchange ν) (place : Nat) : s.step (.deliver place) = s ∨
    ∃ a ∈ s.replies.filterMap Compiler.answer?, s.step (.deliver place) =
      { s with registry := s.registry.applyOutcome a.1 a.2 } := by
  cases heq : s.replies[place]?.bind Compiler.Client.outcome? with
  | none => exact .inl (by simp only [step, heq])
  | some answer =>
    obtain ⟨⟨key, generation⟩, outcome⟩ := answer
    obtain ⟨reply, hreply, houtcome⟩ := Option.bind_eq_some_iff.1 heq
    refine .inr ⟨(key, outcome), List.mem_filterMap.2 ⟨reply, List.mem_of_getElem? hreply, ?_⟩, ?_⟩
    · rw [Compiler.answer?, houtcome]
      rfl
    · simp only [step, heq]

variable [LawfulNode ν]

theorem Invariant.serve (h : Invariant verifier given queue s) :
    Invariant verifier given queue.tail (s.step .serve) := by
  cases queue with
  | nil =>
    rw [h.step_serve_nil]
    exact h
  | cons command rest =>
    rw [h.step_serve]
    refine ⟨h.coherent, rfl, ?_⟩
    rw [List.filterMap_append]
    exact h.matched.serve rfl rfl fun k l hl hready => h.coherent.values_of_ready hl hready

theorem Invariant.deliver (h : Invariant verifier given queue s) (place : Nat) :
    Invariant verifier given queue (s.step (.deliver place)) := by
  rcases step_deliver s place with heq | ⟨a, ha, heq⟩
  · rw [heq]
    exact h
  · rw [heq]
    obtain ⟨height, hg⟩ := h.coherent.wired.exists_graded
    obtain ⟨hcoherent, -, hmatched⟩ := h.coherent.matched_applyOutcome hg h.matched ha
    exact ⟨hcoherent, h.channel_eq, hmatched⟩

theorem Invariant.step (h : Invariant verifier given queue s) (event : Event ν) :
    ∃ given' queue', Invariant verifier given' queue' (s.step event) := by
  cases event with
  | operate operation =>
    have hsound := h.coherent.sound_operate operation
    exact ⟨given, queue, hsound.coherent, h.channel_eq,
      hsound.evolves _ (Outlook.kept_matched _) h.matched⟩
  | takeOutbox => exact ⟨_, queue, h.takeOutbox⟩
  | forward => exact ⟨given, _, h.forward⟩
  | serve => exact ⟨given, _, h.serve⟩
  | deliver place => exact ⟨given, queue, h.deliver place⟩

theorem Invariant.run (h : Invariant verifier given queue s) (events : List (Event ν)) :
    ∃ given' queue', Invariant verifier given' queue' (s.run events) := by
  induction events generalizing s given queue with
  | nil => exact ⟨given, queue, h⟩
  | cons event rest ih =>
    obtain ⟨given', queue', h'⟩ := h.step event
    exact ih h'

end Exchange

/-! ## In terms of the nodes -/

namespace Registry

variable {ν : Type} [Node ν]

/-- Every value that a node holds is the right one at the moment: all dependencies are dependable,
and it is merged from their values in declared order and the layers of the node. -/
def Grounded (r : Registry ν) : Prop :=
  ∀ k n x, r.get? k = some n → Node.compiled n = some x →
    (∀ d ∈ Node.dependencies n, r.isDependable d = true) ∧
    ∃ values, (Node.dependencies n).map (fun d => (r.get? d).bind Node.compiled) =
        values.map some ∧
      x = Json.mergeLayers (values ++ Node.layers n)

variable [NodeKind ν] [LawfulNode ν] {verifier : Option Verifier} {r : Registry ν}

/-- In a coherent registry values are right if they fit the values below them. -/
theorem Coherent.grounded (h : Coherent verifier r) (hvalued : (r.outlook []).Valued) :
    r.Grounded := by
  intro k n x hn hx
  have hv := view?_of_get? hn
  have hcompiled : (Node.view n).compiled = some x := hx
  -- A node with a value is ready, so all below it are dependable and have values.
  have hready : (Node.view n).Ready := (h.fits k _ hv).ready_of_compiled (by rw [hcompiled]; rfl)
  have hdeps := (h.ready_iff hv).1 hready
  have hvalues : ∀ d ∈ Node.dependencies n, (r.value? d).isSome :=
    fun d hd => h.value?_of_isDependable (hdeps d hd)
  have hvalue : r.value? = fun d => (r.get? d).bind Node.compiled := by
    funext d
    rw [value?, view?]
    cases r.get? d <;> rfl
  refine ⟨hdeps, (Node.dependencies n).filterMap r.value?, ?_, ?_⟩
  · rw [← hvalue, List.map_filterMap_some_eq_filter_map_isSome, List.filter_eq_self.2]
    intro y hy
    obtain ⟨d, hd, rfl⟩ := List.mem_map.1 hy
    exact hvalues d hd
  -- It is right by the values below it, and they are all there.
  · have hexpected := hvalued k _ x (outline?_outlook hv) hcompiled fun d hd => by
      rw [value?_outlook]
      exact hvalues d hd
    rw [hexpected, Outlook.expected, show (r.outlook []).value? = r.value? from
      funext fun d => value?_outlook [] d]
    rfl

end Registry

namespace Exchange

/-- Whatever registry and service do to each other, and whenever messages come, the values that
nodes hold are the right ones. Generations do not wrap: this is about fewer than `2 ^ 64` compile
requests. -/
theorem grounded_run (sandbox : SandboxConfig) (verifier : Option Verifier) :
    (∀ events : List (Event EntitlementNode),
      ((start sandbox verifier).run events).registry.Grounded) ∧
    (∀ events : List (Event ProfileNode),
      ((start sandbox verifier).run events).registry.Grounded) := by
  constructor
  · intro events
    obtain ⟨given, queue, h⟩ := (invariant_start (ν := EntitlementNode) sandbox verifier).run events
    exact h.coherent.grounded h.matched.valued
  · intro events
    obtain ⟨given, queue, h⟩ := (invariant_start (ν := ProfileNode) sandbox verifier).run events
    exact h.coherent.grounded h.matched.valued

end Exchange

end LayeredAccess
