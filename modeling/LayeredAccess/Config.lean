/-
  LayeredAccess.Config

  Settings of an engine: whether compile requests are answered at once or
  queued, and the time budgets of user-defined rules. Settings come from
  defaults, from JSON, or from environment variables.
-/
import LayeredAccess.Decode
import LayeredAccess.Encode
import LayeredAccess.Text.Blank

namespace LayeredAccess

open Decode Encode

/-- How compile requests become compiled values. -/
inductive CompileMode where
  /-- The request is answered on the spot. -/
  | inline
  /-- The request is queued for a compiler elsewhere. -/
  | deferred
  deriving DecidableEq, Inhabited, Repr

namespace CompileMode

def names : List (String × CompileMode) := [("inline", .inline), ("deferred", .deferred)]

def toString : CompileMode → String
  | .inline => "inline"
  | .deferred => "deferred"

/-- Reads a mode in any mixture of cases of the ASCII letters. -/
def parse (s : String) : Except String CompileMode :=
  let lower := String.ofList (s.toList.map Char.toLower)
  match names.find? (·.1 == lower) with
  | some (_, mode) => .ok mode
  | none => .error ("unknown compile mode '" ++ lower ++ "'")

def decode : Decoder CompileMode := choice names

def encode (m : CompileMode) : Json := .str m.toString

end CompileMode

/-- Time budgets in milliseconds. -/
structure SandboxConfig where
  /-- For compiling one rule. -/
  compileBudget : Nat := 100
  /-- For evaluating one rule once. -/
  evalBudget : Nat := 100
  deriving DecidableEq, Inhabited, Repr

namespace SandboxConfig

def fields : List (Slot SandboxConfig) :=
  [defaulted "compile_budget_ms" word64 fun v c => { c with compileBudget := v },
   defaulted "eval_budget_ms" word64 fun v c => { c with evalBudget := v }]

def decode : Decoder SandboxConfig := Decode.record "SandboxConfig" fields {}

def encode (c : SandboxConfig) : Json :=
  Encode.record
    [always "compile_budget_ms" (.int c.compileBudget), always "eval_budget_ms" (.int c.evalBudget)]

/-- The settings as they appear in diagnostics. -/
def describe (c : SandboxConfig) : String :=
  "SandboxConfig \x7b compile_budget_ms: " ++ toString c.compileBudget ++ ", eval_budget_ms: "
    ++ toString c.evalBudget ++ " \x7d"

end SandboxConfig

/-- The settings of an engine. -/
structure EngineConfig where
  compileMode : CompileMode := .inline
  sandbox : SandboxConfig := {}
  deriving DecidableEq, Inhabited, Repr

namespace EngineConfig

def fields : List (Slot EngineConfig) :=
  [defaulted "compile_mode" CompileMode.decode fun v c => { c with compileMode := v },
   defaulted "sandbox" SandboxConfig.decode fun v c => { c with sandbox := v }]

def decode : Decoder EngineConfig := Decode.record "EngineConfig" fields {}

def encode (c : EngineConfig) : Json :=
  Encode.record
    [always "compile_mode" c.compileMode.encode, always "sandbox" c.sandbox.encode]

/-! ## Environment -/

/-- The variable that names the compile mode. -/
def modeVariable : String := "PERMIT_COMPILE_MODE"

/-- The variable with the budget for compiling a rule. -/
def compileBudgetVariable : String := "PERMIT_RULE_COMPILE_BUDGET_MS"

/-- The variable with the budget for evaluating a rule. -/
def evalBudgetVariable : String := "PERMIT_RULE_EVAL_BUDGET_MS"

/-- A natural number of 64 bits. -/
def word64? (s : String) : Option Nat := (Text.natural? s).filter (· < wordLimit)

/-- The defaults overlaid with the environment variables that can be read; white space around a
value does not count, and a value that can not be read is ignored. -/
def ofEnvironment (lookup : String → Option String) : EngineConfig :=
  let trimmed (name : String) : Option String := (lookup name).map Text.trim
  let mode := (trimmed modeVariable).bind fun s => (CompileMode.parse s).toOption
  let compileBudget := (trimmed compileBudgetVariable).bind word64?
  let evalBudget := (trimmed evalBudgetVariable).bind word64?
  { compileMode := mode.getD .inline
    sandbox :=
      { compileBudget := compileBudget.getD 100
        evalBudget := evalBudget.getD 100 } }

end EngineConfig

end LayeredAccess
