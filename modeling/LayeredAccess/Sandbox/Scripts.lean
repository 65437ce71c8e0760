/-
  LayeredAccess.Sandbox.Scripts

  The interpreter of the scripts that are expressions.
-/
import LayeredAccess.Sandbox.Programs
import LayeredAccess.Script.Evaluation

namespace LayeredAccess

/-- The expressions that have been read, by the numbers of their scripts. -/
abbrev Scripts := Programs Script.language

namespace Scripts

def compile (h : ScriptHandle) (known : Scripts) : Reply Unit × Scripts :=
  Programs.compile h known

def evaluate (h : ScriptHandle) (value : Json) (args : List Json) (known : Scripts) :
    Reply Bool × Scripts :=
  Programs.evaluate h value args known

/-- A sandbox for scripts that has no worker yet. -/
def sandbox (config : SandboxConfig) : Sandbox Scripts := Programs.sandbox Script.language config

end Scripts

end LayeredAccess
