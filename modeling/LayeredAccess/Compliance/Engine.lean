/-
  LayeredAccess.Compliance.Engine

  Checks of values against schemas. A schema is entered as a whole or, if
  anything in it is wrong, not at all. A check runs every rule, whatever became
  of those before it, and reports all that the value breaks.

  A value is walked through its objects; everything else in it, arrays too, is
  judged by the rules at its path. The rules at the root judge the whole value.
-/
import LayeredAccess.Compliance.Builtin
import LayeredAccess.Compliance.Loading

namespace LayeredAccess

open Compliance

namespace Compliance

/-! ## Leaves of a value -/

mutual

/-- What is no object in a value at a path, with the paths to it. -/
def leaves (path : Path) : Json → List (Path × Json)
  | .obj members => memberLeaves path members
  | .null => [(path, .null)]
  | .bool b => [(path, .bool b)]
  | .int n => [(path, .int n)]
  | .double x => [(path, .double x)]
  | .str s => [(path, .str s)]
  | .arr items => [(path, .arr items)]

/-- What is no object below the members of an object at a path. -/
def memberLeaves (path : Path) : List (String × Json) → List (Path × Json)
  | [] => []
  | (k, v) :: rest => leaves (path ++ [k]) v ++ memberLeaves path rest

end

/-- The leaves below a whole value, if that is an object. -/
def leavesBelow (resource : String) : Json → List (Path × Json)
  | .obj members => memberLeaves [resource] members
  | _ => []

/-! ## Judgements -/

variable {σ : Type}

/-- Runs a rule; its faults are told as texts. -/
def Rule.run (r : Rule) (value : Json) (args : List Json) :
    StateM (Sandbox σ) (Except String Bool) := do
  match r.executable with
  | .native body => return (body value args).mapError RuleFault.message
  | .script handle =>
    let (result, s) := (← get).evaluate handle value args
    set s
    return result.mapError SandboxError.message

namespace Rulebook

/-- The violation of a reference at an entry by a value, if it is one. -/
def check (b : Rulebook) (path : Path) (value : Json) (r : RuleRef) :
    StateM (Sandbox σ) (Option Violation) := do
  let violation (rulePath : Path) (reason : ViolationReason) : Violation :=
    { path, rulePath, rule := r.toString, value, reason }
  match b.resolve path r with
  | none => return some (violation [] .unresolved)
  | some (home, rule) =>
    match ← rule.run value r.args with
    | .ok true => return none
    | .ok false => return some (violation home (.failed rule.failureText))
    | .error text => return some (violation home (.errored text))

/-- The violations of all references at an entry by a value, in their order. -/
def entryViolations (b : Rulebook) (path : Path) (value : Json) :
    StateM (Sandbox σ) (List Violation) := do
  return (← (b.referencesAt path).mapM (b.check path value)).filterMap id

/-- The violations by the leaves of a value. -/
def leafViolations (b : Rulebook) (resource : String) (value : Json) :
    StateM (Sandbox σ) (List EntryViolations) := do
  let found ← (leavesBelow resource value).mapM fun (path, leaf) => do
    let violations ← b.entryViolations path leaf
    return if violations.isEmpty then none else some { path, violations }
  return found.filterMap id

/-- The violations by a value as a whole. -/
def rootViolations (b : Rulebook) (resource : String) (value : Json) :
    StateM (Sandbox σ) (List Violation) := b.entryViolations [resource] value

/-- All violations by a value. -/
def report (b : Rulebook) (resource : String) (value : Json) : StateM (Sandbox σ) Report := do
  let root ← b.rootViolations resource value
  let entries ← b.leafViolations resource value
  return { root, entries }

end Rulebook

end Compliance

/-! ## Engines -/

/-- A rulebook and a sandbox for its scripts. -/
structure ComplianceEngine (σ : Type) where
  book : Rulebook := Builtin.modules.foldl Rulebook.register {}
  sandbox : Sandbox σ

namespace ComplianceEngine

variable {σ : Type}

/-- Does something in the sandbox. -/
def inSandbox {α : Type} (e : ComplianceEngine σ) (act : StateM (Sandbox σ) α) :
    α × ComplianceEngine σ :=
  let (a, sandbox) := act.run e.sandbox
  (a, { e with sandbox })

/-- Enters a schema, in the place of one with the same name. If anything is wrong with it the old
one stays. -/
def load (e : ComplianceEngine σ) (s : Schema) : Except EngineError Unit × ComplianceEngine σ :=
  let (result, e) := e.inSandbox (Loading.contents s).run
  match result with
  | .ok contents => (.ok (), { e with book := e.book.enter s.name contents })
  | .error error => (.error error, e)

/-- Drops a schema with its rules; tells whether there was one. -/
def unload (e : ComplianceEngine σ) (name : String) : Bool × ComplianceEngine σ :=
  (e.book.hasSchema name, { e with book := e.book.drop name })

/-- Enters a module of native rules. -/
def register (e : ComplianceEngine σ) (m : RuleModule) : ComplianceEngine σ :=
  { e with book := e.book.register m }

/-- All that a value breaks of the rules for a resource. -/
def report (e : ComplianceEngine σ) (resource : String) (value : Json) :
    Report × ComplianceEngine σ :=
  e.inSandbox (e.book.report resource value)

/-- Checks a value against the schema of a resource, if there is one. -/
def verify (e : ComplianceEngine σ) (resource : String) (value : Json) :
    Except EngineError Unit × ComplianceEngine σ :=
  if e.book.hasSchema resource then
    let (report, e) := e.report resource value
    (if report.isEmpty then .ok () else .error (.ruleVerificationFailure report), e)
  else (.ok (), e)

/-- Checks a value against a schema that is not entered; of the engine only the native rules
count. -/
def reportOn (e : ComplianceEngine σ) (s : Schema) (value : Json) :
    Except EngineError Report × ComplianceEngine σ :=
  let scratch : ComplianceEngine σ := { e with book := e.book.nativeOnly }
  let (result, scratch) := scratch.load s
  match result with
  | .ok () =>
    let (report, scratch) := scratch.report s.name value
    (.ok report, { e with sandbox := scratch.sandbox })
  | .error error => (.error error, { e with sandbox := scratch.sandbox })

/-- The engine as it appears in diagnostics. -/
def describe (e : ComplianceEngine σ) : String :=
  "ComplianceEngine \x7b builtins: " ++ toString e.book.builtins.length ++ ", rules: "
    ++ toString e.book.rules.length ++ ", entries: " ++ toString e.book.references.length
    ++ ", sandbox: " ++ e.sandbox.describe ++ " \x7d"

end ComplianceEngine

end LayeredAccess
