/-
  LayeredAccess.Compiler.Service

  A compiler that is asked by messages. Requests change its cache and are
  answered, apart from the request to clear; whatever is no request is refused
  and changes nothing.
-/
import LayeredAccess.Compiler.Envelope

namespace LayeredAccess.Compiler

/-- The reply to a job: its value, or what it lacked. -/
def reply (job : CompileJob) : Except (List String) Json → Envelope
  | .ok value => ⟨.compiled, CompiledData.encode ⟨job.id, job.generation, value⟩⟩
  | .error missing => ⟨.compilationFailed, FailedData.encode ⟨job.id, job.generation, missing⟩⟩

/-- Answers one message: the reply, if there is one, and the compiler afterwards. -/
def handle (c : Compiler) (e : Envelope) : Except EngineError (Option Envelope) × Compiler :=
  match e.event with
  | .process =>
    match CompileJob.decode e.data with
    | .error err => (.error (.ofDecode err), c)
    | .ok job =>
      let (outcome, c) := c.compile job
      (.ok (some (reply job outcome)), c)
  | .invalidate =>
    match InvalidateData.decode e.data with
    | .error err => (.error (.ofDecode err), c)
    | .ok data => (.ok (some ⟨.deleteCached, data.encode⟩), (c.evict data.ids).2)
  | .clearCache => (.ok none, c.clear)
  | other =>
    (.error (.invalidDefinition ("compiler service does not accept " ++ other.describe)), c)

/-- Answers messages one after the other; a refused one has no reply. -/
def handleAll (c : Compiler) : List Envelope → List (Option Envelope) × Compiler
  | [] => ([], c)
  | e :: rest =>
    let (result, c) := c.handle e
    let (replies, c) := handleAll c rest
    (result.toOption.join :: replies, c)

end LayeredAccess.Compiler
