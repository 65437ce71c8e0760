/-
  LayeredAccess.Script.Language

  What those who run scripts know of the language that these are written in: a
  source may become a program, and a program may give a value where the variables
  of a rule have given values. Either goes by what it is given alone. Beyond that
  nothing is known of a `Language`, and all that is proved of scripts holds of
  any.
-/
import LayeredAccess.Script.Value

namespace LayeredAccess.Script

/-- The values of variables, the innermost first. -/
abbrev Env := List (String × Value)

/-- The variables of a rule's script. -/
def ruleEnv (value : Json) (args : List Json) : Env :=
  [("value", .ofJson value), ("args", .ofArgs args)]

/-- What comes of asking a language for something. -/
inductive Outcome (α : Type) where
  | result (a : α)
  /-- It reports what is wrong, in words of its own. -/
  | failure (report : String)
  /-- It never comes to an end. -/
  | endless
  /-- It takes down whoever has asked. -/
  | crash

/-- A language for scripts. -/
structure Language where
  Program : Type
  /-- The program of a source. -/
  compile : String → Outcome Program
  /-- The boolean that a program gives, or none if it gives something else. -/
  execute : Program → Env → Outcome (Option Bool)

end LayeredAccess.Script
