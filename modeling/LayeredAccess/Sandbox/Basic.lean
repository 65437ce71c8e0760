/-
  LayeredAccess.Sandbox.Basic

  Scripts run in a worker apart from their caller, who waits for an answer no
  longer than a time budget. A worker that is late, or that stops, is abandoned;
  the next request starts a new one. A new worker knows no script, so a request
  always brings the source along and the worker compiles it if it has to.

  What a worker does with a request is left to an `Interpreter`.
-/
import LayeredAccess.Config
import LayeredAccess.Json.Basic

namespace LayeredAccess

/-- Why a script gives no answer. -/
inductive SandboxError where
  /-- The source is no script. -/
  | compile (reason : String)
  /-- The script fails on its input. -/
  | evaluate (reason : String)
  /-- The script gives a value that is no boolean. -/
  | nonBoolean
  /-- There is no answer within the budget, which is in milliseconds. -/
  | timeout (budget : Nat)
  /-- The worker stopped. -/
  | workerGone
  /-- There is no worker to be had. -/
  | spawn (reason : String)
  deriving DecidableEq, Inhabited, Repr

namespace SandboxError

/-- A number of milliseconds in the largest unit that leaves a whole part, without trailing
zeros. -/
def durationText (ms : Nat) : String :=
  if ms = 0 then "0ns"
  else if ms < 1000 then toString ms ++ "ms"
  else
    let fraction := (toString (1000 + ms % 1000)).toList.drop 1
    let places := (fraction.reverse.dropWhile (· = '0')).reverse
    toString (ms / 1000) ++ (if places.isEmpty then "" else "." ++ String.ofList places) ++ "s"

/-- The short name of an error. -/
def code : SandboxError → String
  | compile _ => "compile"
  | evaluate _ => "evaluate"
  | nonBoolean => "non_boolean"
  | timeout _ => "timeout"
  | workerGone => "worker_gone"
  | spawn _ => "spawn"

/-- The text of an error. -/
def message : SandboxError → String
  | compile reason => "compile error: " ++ reason
  | evaluate reason => "evaluation error: " ++ reason
  | nonBoolean => "rule did not produce a boolean"
  | timeout budget => "exceeded time budget of " ++ durationText budget
  | workerGone => "sandbox worker stopped unexpectedly"
  | spawn reason => "failed to start sandbox worker: " ++ reason

end SandboxError

/-- A script that has been compiled once: its number and its source. -/
structure ScriptHandle where
  id : Nat
  source : String
  deriving DecidableEq, Inhabited, Repr

/-- What becomes of a request to a worker. -/
inductive Reply (α : Type) where
  /-- The worker answers in time. -/
  | answer (result : Except SandboxError α)
  /-- The budget runs out first. -/
  | late
  /-- The worker stops without an answer. -/
  | stopped

/-- What workers do, on a state of their own. -/
structure Interpreter (σ : Type) where
  /-- A new worker starts, where the last one left the state. -/
  start : σ → σ
  /-- A script is to be compiled. -/
  compile : ScriptHandle → σ → Reply Unit × σ
  /-- A script is to be run on a value with arguments. -/
  evaluate : ScriptHandle → Json → List Json → σ → Reply Bool × σ

/-- A place to run scripts in. -/
structure Sandbox (σ : Type) where
  interpreter : Interpreter σ
  config : SandboxConfig := {}
  /-- The serial number of the worker at work. -/
  worker : Option Nat := none
  /-- The serial number of the next worker. This count and that of the scripts have no end; ones of
  64 bits go the same way for fewer than `2 ^ 64` workers and scripts. -/
  nextWorker : Nat := 1
  nextScript : Nat := 1
  /-- The state of the workers. -/
  state : σ

namespace Sandbox

variable {σ : Type}

/-- The worker for the next request: the one at work, or else a new one. -/
def acquire (s : Sandbox σ) : Nat × Sandbox σ :=
  match s.worker with
  | some serial => (serial, s)
  | none =>
    (s.nextWorker,
      { s with
        worker := some s.nextWorker
        nextWorker := s.nextWorker + 1
        state := s.interpreter.start s.state })

/-- Gives a worker up, unless another one has taken its place. -/
def abandon (s : Sandbox σ) (serial : Nat) : Sandbox σ :=
  if s.worker = some serial then { s with worker := none } else s

/-- Whoever makes a request has a worker. -/
theorem worker_acquire (s : Sandbox σ) : s.acquire.2.worker = some s.acquire.1 := by
  unfold acquire
  split
  · next h => exact h
  · rfl

/-- A worker that is not at work can not be given up. -/
theorem abandon_of_ne {s : Sandbox σ} {serial : Nat} (h : s.worker ≠ some serial) :
    s.abandon serial = s := if_neg h

/-- Makes a request, and waits for the answer as long as the budget allows. -/
def request {α : Type} (s : Sandbox σ) (budget : Nat) (job : σ → Reply α × σ) :
    Except SandboxError α × Sandbox σ :=
  let (serial, s) := s.acquire
  let (reply, state) := job s.state
  let s := { s with state }
  match reply with
  | .answer result => (result, s)
  | .late => (.error (.timeout budget), s.abandon serial)
  | .stopped => (.error .workerGone, s.abandon serial)

/-- Compiles a source. Its number is used up even if it is no script. -/
def compile (s : Sandbox σ) (source : String) : Except SandboxError ScriptHandle × Sandbox σ :=
  let handle := { id := s.nextScript, source }
  let s := { s with nextScript := s.nextScript + 1 }
  let (result, s) := s.request s.config.compileBudget (s.interpreter.compile handle)
  (result.map fun _ => handle, s)

/-- Runs a script on a value with arguments. -/
def evaluate (s : Sandbox σ) (handle : ScriptHandle) (value : Json) (args : List Json) :
    Except SandboxError Bool × Sandbox σ :=
  s.request s.config.evalBudget (s.interpreter.evaluate handle value args)

/-- The sandbox as it appears in diagnostics. -/
def describe (s : Sandbox σ) : String :=
  let worker := match s.worker with
    | some serial => "Some(" ++ toString serial ++ ")"
    | none => "None"
  "SandboxExecutor \x7b config: " ++ s.config.describe ++ ", worker: " ++ worker ++ " \x7d"

end Sandbox

end LayeredAccess
