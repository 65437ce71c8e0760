/-
  LayeredAccess.Compiler.Envelope

  The messages between a compiler and those who ask it: requests to compile,
  to evict and to clear, and the replies to them. On the wire every message is
  an envelope, the name of an event with data.
-/
import LayeredAccess.Compiler.Basic
import LayeredAccess.Error

namespace LayeredAccess

open Decode Encode

/-- The events of the wire. -/
inductive CompilerEvent where
  /-- Compile a job. -/
  | process
  /-- A job gave a value. -/
  | compiled
  /-- Drop the values of some nodes. -/
  | invalidate
  /-- A job lacked dependencies. -/
  | compilationFailed
  /-- Drop every value. -/
  | clearCache
  /-- The values of some nodes have been dropped. -/
  | deleteCached
  deriving DecidableEq, Inhabited, Repr

namespace CompilerEvent

/-- The events with their names on the wire. -/
def names : List (String × CompilerEvent) :=
  [("PROCESS", .process), ("COMPILED", .compiled), ("INVALIDATE", .invalidate),
   ("COMPILATION_FAILED", .compilationFailed), ("CLEAR_CACHE", .clearCache),
   ("DELETE_CACHED", .deleteCached)]

def toString : CompilerEvent → String
  | .process => "PROCESS"
  | .compiled => "COMPILED"
  | .invalidate => "INVALIDATE"
  | .compilationFailed => "COMPILATION_FAILED"
  | .clearCache => "CLEAR_CACHE"
  | .deleteCached => "DELETE_CACHED"

/-- The event as messages name it. -/
def describe : CompilerEvent → String
  | .process => "Process"
  | .compiled => "Compiled"
  | .invalidate => "Invalidate"
  | .compilationFailed => "CompilationFailed"
  | .clearCache => "ClearCache"
  | .deleteCached => "DeleteCached"

def decode : Decoder CompilerEvent := choice names

def encode (e : CompilerEvent) : Json := .str e.toString

end CompilerEvent

/-- A message on the wire. -/
structure Envelope where
  event : CompilerEvent
  data : Json := .null
  deriving Inhabited

namespace Envelope

def fields : List (Slot Envelope) :=
  [required "event" CompilerEvent.decode fun v e => { e with event := v },
   defaulted "data" any fun v e => { e with data := v }]

def decode : Decoder Envelope := Decode.record "Envelope" fields { event := .process }

def encode (e : Envelope) : Json :=
  Encode.record [always "event" e.event.encode, always "data" e.data]

/-- The envelope as a line of text, the event before its data. -/
def render (e : Envelope) : String :=
  "\x7b\"event\":" ++ Json.quote e.event.toString ++ ",\"data\":" ++ e.data.render ++ "\x7d"

end Envelope

/-! ## Data of the events -/

/-- The value that a job gave. -/
structure CompiledData where
  id : String := ""
  generation : Nat := 0
  value : Json := .null
  deriving Inhabited

namespace CompiledData

def fields : List (Slot CompiledData) :=
  [required "id" text fun v d => { d with id := v },
   required "generation" word64 fun v d => { d with generation := v },
   required "value" any fun v d => { d with value := v }]

def decode : Decoder CompiledData := Decode.record "CompiledData" fields {}

def encode (d : CompiledData) : Json :=
  Encode.record
    [always "id" (.str d.id), always "generation" (.int d.generation), always "value" d.value]

end CompiledData

/-- The dependencies that a job lacked. -/
structure FailedData where
  id : String := ""
  generation : Nat := 0
  missing : List String := []
  deriving DecidableEq, Inhabited, Repr

namespace FailedData

def fields : List (Slot FailedData) :=
  [required "id" text fun v d => { d with id := v },
   required "generation" word64 fun v d => { d with generation := v },
   required "missing" texts fun v d => { d with missing := v }]

def decode : Decoder FailedData := Decode.record "FailedData" fields {}

def encode (d : FailedData) : Json :=
  Encode.record
    [always "id" (.str d.id), always "generation" (.int d.generation),
     always "missing" (.ofStrings d.missing)]

end FailedData

/-- The nodes whose values are to be dropped, or have been. -/
structure InvalidateData where
  ids : List String := []
  deriving DecidableEq, Inhabited, Repr

namespace InvalidateData

def fields : List (Slot InvalidateData) :=
  [required "ids" texts fun v d => { d with ids := v }]

def decode : Decoder InvalidateData := Decode.record "InvalidateData" fields {}

def encode (d : InvalidateData) : Json := Encode.record [always "ids" (.ofStrings d.ids)]

end InvalidateData

/-! ## Requests and replies -/

/-- What a compiler is asked to do. -/
inductive CompilerCommand where
  | compile (job : CompileJob)
  | evict (ids : List String)
  | clear
  deriving Inhabited

namespace CompilerCommand

/-- Does the command compile a node? -/
def isCompileOf (id : String) : CompilerCommand → Bool
  | .compile job => job.id == id
  | _ => false

/-- The command as a message. -/
def toEnvelope : CompilerCommand → Envelope
  | .compile job => ⟨.process, job.encode⟩
  | .evict ids => ⟨.invalidate, InvalidateData.encode ⟨ids⟩⟩
  | .clear => ⟨.clearCache, .null⟩

end CompilerCommand

/-- How a job ended. -/
inductive CompileOutcome where
  | compiled (generation : Nat) (value : Json)
  | failed (generation : Nat) (missing : List String)
  deriving Inhabited

namespace CompileOutcome

/-- The generation of the job that ended. -/
def generation : CompileOutcome → Nat
  | compiled g _ => g
  | failed g _ => g

def encode : CompileOutcome → Json
  | compiled g value => .mkObj [("generation", .int g), ("value", value)]
  | failed g missing => .mkObj [("generation", .int g), ("missing", .ofStrings missing)]

end CompileOutcome

end LayeredAccess
