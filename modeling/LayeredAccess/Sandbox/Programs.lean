/-
  LayeredAccess.Sandbox.Programs

  The interpreter of rule scripts, in whatever language they are written. It
  keeps the programs that it has compiled under the numbers of their scripts. A
  rule's script sees the value that is judged and the arguments of the rule, and
  has to give a boolean.
-/
import LayeredAccess.Sandbox.Basic
import LayeredAccess.Script.Language

namespace LayeredAccess

open Script

/-- The programs that have been compiled, by the numbers of their scripts. -/
abbrev Programs (lang : Language) := KeyMap Nat lang.Program

namespace Programs

variable {lang : Language}

variable (lang) in
/-- The program of a source. -/
def read (source : String) : Reply lang.Program :=
  match lang.compile source with
  | .result program => .answer (.ok program)
  | .failure report => .answer (.error (.compile report))
  | .endless => .late
  | .crash => .stopped

/-- The judgement of a program on a value with arguments. -/
def judge (program : lang.Program) (value : Json) (args : List Json) : Reply Bool :=
  match lang.execute program (ruleEnv value args) with
  | .result (some holds) => .answer (.ok holds)
  | .result none => .answer (.error .nonBoolean)
  | .failure report => .answer (.error (.evaluate report))
  | .endless => .late
  | .crash => .stopped

/-- Compiles a script and keeps its program under its number. -/
def compile (h : ScriptHandle) (known : Programs lang) : Reply Unit × Programs lang :=
  match read lang h.source with
  | .answer (.ok program) => (.answer (.ok ()), KeyMap.insert known h.id program)
  | .answer (.error e) => (.answer (.error e), known)
  | .late => (.late, known)
  | .stopped => (.stopped, known)

/-- Runs the program that is kept under a number; if there is none, the source of the script is
compiled first. -/
def evaluate (h : ScriptHandle) (value : Json) (args : List Json) (known : Programs lang) :
    Reply Bool × Programs lang :=
  match KeyMap.find? known h.id with
  | some program => (judge program value args, known)
  | none =>
    match read lang h.source with
    | .answer (.ok program) => (judge program value args, KeyMap.insert known h.id program)
    | .answer (.error e) => (.answer (.error e), known)
    | .late => (.late, known)
    | .stopped => (.stopped, known)

variable (lang) in
/-- What an interpreter says to a script that has not been asked anything before. -/
def fresh (h : ScriptHandle) (value : Json) (args : List Json) : Reply Bool :=
  (evaluate h value args ([] : Programs lang)).1

variable (lang) in
/-- The interpreter of scripts: a new worker knows none. -/
def interpreter : Interpreter (Programs lang) where
  start := fun _ => []
  compile := compile
  evaluate := evaluate

variable (lang) in
/-- A sandbox for scripts that has no worker yet. -/
def sandbox (config : SandboxConfig) : Sandbox (Programs lang) :=
  { interpreter := interpreter lang, config, state := [] }

end Programs

end LayeredAccess
