/-
  LayeredAccess.Registry.Drive

  Keeping a registry busy with a compiler elsewhere: what waits in the outbox
  is sent, the outcomes are taken in, and so on until nothing waits any more.
-/
import LayeredAccess.Compiler.Client
import LayeredAccess.Compiler.Service
import LayeredAccess.Registry.Operations

namespace LayeredAccess

/-- A compiler elsewhere, as a registry sees it; `σ` is the state of the connection. -/
structure RemoteCompiler (σ : Type) where
  /-- Sends a command that has no outcome. -/
  send : σ → CompilerCommand → Except EngineError Unit × σ
  /-- Sends a job and waits for how it ends. -/
  compile : σ → CompileJob → Except EngineError CompileOutcome × σ

namespace RemoteCompiler

/-- A compiler that is reached by messages and answers all of them. -/
def ofService : RemoteCompiler Compiler where
  send c command := (.ok (), (c.handle command.toEnvelope).2)
  compile c job :=
    let (result, c) := c.handle (CompilerCommand.compile job).toEnvelope
    match result.toOption.join.bind Compiler.Client.outcome? with
    | some (_, outcome) => (.ok outcome, c)
    | none => (.error Compiler.Client.disconnected, c)

variable {σ : Type} (remote : RemoteCompiler σ)

/-- Sends commands one after the other up to the first failure. -/
def sendAll (s : σ) : List CompilerCommand → Except EngineError Unit × σ
  | [] => (.ok (), s)
  | command :: rest =>
    match remote.send s command with
    | (.ok (), s) => sendAll s rest
    | (.error e, s) => (.error e, s)

/-- Sends all jobs and waits for all of them; each outcome stands with its node. -/
def compileAll (s : σ) : List CompileJob → List (String × Except EngineError CompileOutcome) × σ
  | [] => ([], s)
  | job :: rest =>
    let (outcome, s) := remote.compile s job
    let (outcomes, s) := compileAll s rest
    ((job.id, outcome) :: outcomes, s)

end RemoteCompiler

namespace Registry

variable {ν : Type} [Node ν] {σ : Type}

/-- The job of a command, if it has one. -/
def job? : CompilerCommand → Option CompileJob
  | .compile job => some job
  | _ => none

/-- Takes outcomes in up to the first failure, and counts them. -/
def applyAll (r : Registry ν) (count : Nat) :
    List (String × Except EngineError CompileOutcome) → Except EngineError Nat × Registry ν
  | [] => (.ok count, r)
  | (key, .ok outcome) :: rest => applyAll (r.applyOutcome key outcome) (count + 1) rest
  | (_, .error e) :: _ => (.error e, r)

/-- One round: every command is sent, those without outcome first, and the outcomes of the jobs
are taken in. -/
def driveRound (remote : RemoteCompiler σ) (r : Registry ν) (s : σ) (count : Nat) :
    Except EngineError Nat × Registry ν × σ :=
  let (commands, r) := r.takeOutbox
  match remote.sendAll s (commands.filter fun c => (job? c).isNone) with
  | (.error e, s) => (.error e, r, s)
  | (.ok (), s) =>
    let (outcomes, s) := remote.compileAll s (commands.filterMap job?)
    let (result, r) := r.applyAll count outcomes
    (result, r, s)

/-- Rounds until the outbox is empty, at most a given number of them. -/
def driveRounds (remote : RemoteCompiler σ) : Nat → Registry ν → σ → Nat →
    Except EngineError Nat × Registry ν × σ
  | 0, r, s, count => (.ok count, r, s)
  | bound + 1, r, s, count =>
    if r.outbox.isEmpty then (.ok count, r, s)
    else
      match driveRound remote r s count with
      | (.ok count, r, s) => driveRounds remote bound r s count
      | (.error e, r, s) => (.error e, r, s)

/-- Rounds until the outbox is empty; returns how many outcomes were taken in. A round leaves jobs
only for nodes that depend on those of the round before, so there are no more rounds than nodes,
and one for what waits at the start. -/
def drive (remote : RemoteCompiler σ) (r : Registry ν) (s : σ) :
    Except EngineError Nat × Registry ν × σ :=
  driveRounds remote (r.size + 2) r s 0

end Registry

end LayeredAccess
