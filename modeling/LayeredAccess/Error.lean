/-
  LayeredAccess.Error

  What can go wrong in the engine. Errors are values of a type by cause; each
  has a short code and a text. The engine stays usable after any of them.
-/
import LayeredAccess.Compliance.Report

namespace LayeredAccess

open Compliance

/-- Why the flags of a node forbid an operation. -/
inductive ForbiddenReason where
  /-- A pinned node can not be deleted. -/
  | pinned
  /-- A sealed node can not be updated. -/
  | sealed
  deriving DecidableEq, Inhabited, Repr

namespace ForbiddenReason

def toString : ForbiddenReason → String
  | .pinned => "pinned and can not be deleted"
  | .sealed => "sealed and can not be updated"

end ForbiddenReason

/-- An error of the engine. -/
inductive EngineError where
  /-- A node with the key is registered. -/
  | alreadyExists (key : String)
  /-- No node with the key is registered. -/
  | notFound (key : String)
  /-- The flags of the node forbid the operation. -/
  | forbidden (key : String) (reason : ForbiddenReason)
  /-- Some dependencies have no compiled value. -/
  | missingDependency (key : String) (missing : List String)
  /-- The dependencies would close a cycle. -/
  | cyclicDependency (cycle : String)
  /-- A malformed node, schema, rule or message. -/
  | invalidDefinition (reason : String)
  /-- A rule of a schema does not compile. -/
  | ruleCompileFailure (schema : String) (path : Path) (rule source cause : String)
  /-- A compiled value broke rules of its schema. -/
  | ruleVerificationFailure (report : Report)
  /-- The sandbox for rules failed. -/
  | sandbox (reason : String)
  /-- A message could not be read. -/
  | serialization (reason : String)
  /-- Input or output failed. -/
  | io (reason : String)
  /-- The engine could not go on. -/
  | internal (reason : String)
  deriving Inhabited

namespace EngineError

/-- The short name of an error. -/
def code : EngineError → String
  | alreadyExists _ => "already_exists"
  | notFound _ => "not_found"
  | forbidden _ _ => "forbidden"
  | missingDependency _ _ => "missing_dependency"
  | cyclicDependency _ => "cyclic_dependency"
  | invalidDefinition _ => "invalid_definition"
  | ruleCompileFailure _ _ _ _ _ => "rule_compile_failure"
  | ruleVerificationFailure _ => "rule_verification_failure"
  | sandbox _ => "sandbox"
  | serialization _ => "serialization"
  | io _ => "io"
  | internal _ => "internal"

/-- A node as messages name it. -/
def nodeText (key : String) : String := "Node [\"" ++ key ++ "\"]"

/-- The text of an error. -/
def message : EngineError → String
  | alreadyExists key => nodeText key ++ " is already added"
  | notFound key => nodeText key ++ " is not registered"
  | forbidden key reason => nodeText key ++ " is " ++ reason.toString
  | missingDependency key missing =>
    nodeText key ++ " is missing compiled dependencies: " ++ Text.quotedList missing
  | cyclicDependency cycle => "Circular dependency detected: " ++ cycle
  | invalidDefinition reason => "Invalid definition: " ++ reason
  | ruleCompileFailure schema path rule _ cause =>
    "Failed to compile \"" ++ rule ++ "\" rule at " ++ Text.quotedList path ++ " of schema \""
      ++ schema ++ "\": " ++ cause
  | ruleVerificationFailure report => "Compliance verification failed: " ++ report.toString
  | sandbox reason => "Sandbox error: " ++ reason
  | serialization reason => "Serialization error: " ++ reason
  | io reason => "I/O error: " ++ reason
  | internal reason => "Internal error: " ++ reason

/-- A message that could not be read. -/
def ofDecode (e : DecodeError) : EngineError := serialization e.message

end EngineError

end LayeredAccess
