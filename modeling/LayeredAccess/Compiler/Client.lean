/-
  LayeredAccess.Compiler.Client

  The asking side of a compiler that is reached by messages. Jobs of one node
  and generation share one request: the first caller sends it, later callers
  wait for the same reply. A reply that answers no open request is dropped.
-/
import LayeredAccess.Compiler.Envelope

namespace LayeredAccess.Compiler

/-- What a request is recognized by: the node and the generation of its job. -/
abbrev RequestKey := String × Nat

/-- Callers are numbered in the order of their calls. -/
abbrev Waiter := Nat

/-- The open requests of a client, and the state of its two channels. -/
structure Client where
  /-- The open requests, each with its callers in the order of their calls. -/
  pending : List (RequestKey × List Waiter) := []
  /-- The number of the next caller. -/
  nextWaiter : Waiter := 0
  /-- Can requests still be sent? -/
  requestsOpen : Bool := true
  /-- Can replies still arrive? -/
  repliesOpen : Bool := true
  deriving Inhabited

/-- What one event brings about outside the client. -/
structure Client.Output where
  /-- The messages sent. -/
  sent : List Envelope := []
  /-- The callers that are done, each with what it is told. -/
  done : List (Waiter × Except EngineError CompileOutcome) := []

namespace Client

/-- The other side is gone. -/
def disconnected : EngineError := .internal "compiler worker disconnected"

/-- The number of open requests. -/
def inFlight (c : Client) : Nat := c.pending.length

/-- Sends a command that has no caller waiting. -/
def send (c : Client) (command : CompilerCommand) : Except EngineError Envelope :=
  if c.requestsOpen then .ok command.toEnvelope else .error disconnected

/-- A caller asks for a job: it joins the open request of the same node and generation, or
opens one. -/
def compile (c : Client) (job : CompileJob) : Client × Output :=
  let key : RequestKey := (job.id, job.generation)
  let waiter := c.nextWaiter
  let c := { c with nextWaiter := waiter + 1 }
  if KeyMap.contains c.pending key then
    ({ c with pending := KeyMap.modify c.pending key (· ++ [waiter]) }, {})
  else
    match c.send (.compile job) with
    | .ok e => ({ c with pending := c.pending ++ [(key, [waiter])] }, { sent := [e] })
    | .error err => (c, { done := [(waiter, .error err)] })

/-- What a reply says about a job: nothing if it is no answer to a job. -/
def outcome? (e : Envelope) : Option (RequestKey × CompileOutcome) :=
  match e.event with
  | .compiled =>
    (CompiledData.decode e.data).toOption.map fun d =>
      ((d.id, d.generation), .compiled d.generation d.value)
  | .compilationFailed =>
    (FailedData.decode e.data).toOption.map fun d =>
      ((d.id, d.generation), .failed d.generation d.missing)
  | _ => none

/-- A reply arrives: it closes the request that it answers, and tells its callers. -/
def receive (c : Client) (e : Envelope) : Client × Output :=
  if c.repliesOpen then
    match outcome? e with
    | none => (c, {})
    | some (key, outcome) =>
      ({ c with pending := KeyMap.erase c.pending key },
       { done := ((KeyMap.find? c.pending key).getD []).map fun w => (w, .ok outcome) })
  else (c, {})

/-- Replies arrive one after the other. -/
def receiveAll (c : Client) : List Envelope → Client × Output
  | [] => (c, {})
  | e :: rest =>
    let (c, now) := c.receive e
    let (c, later) := receiveAll c rest
    (c, { done := now.done ++ later.done })

/-- No request can be sent any more. -/
def closeRequests (c : Client) : Client := { c with requestsOpen := false }

/-- No reply will arrive any more: the open requests are given up. -/
def closeReplies (c : Client) : Client × Output :=
  if c.repliesOpen then
    ({ c with pending := [], repliesOpen := false },
     { done := c.pending.flatMap fun e => e.2.map fun w => (w, .error disconnected) })
  else (c, {})

end Client

end LayeredAccess.Compiler
