/-
  LayeredAccess.Pattern.Search

  Reading a pattern and searching texts for it.
-/
import LayeredAccess.Pattern.Automaton
import LayeredAccess.Pattern.Footprint
import LayeredAccess.Pattern.Meaning
import LayeredAccess.Pattern.Reader

namespace LayeredAccess

namespace PatternError

/-- The text of a refusal. -/
def message : PatternError → String
  | malformed => "regex parse error"
  | tooLarge =>
    "Compiled regex exceeds size limit of " ++ toString Pattern.sizeLimit ++ " bytes."

end PatternError

namespace Pattern

/-- The pattern that a written one means, if its automata are small enough. -/
def ofWritten (w : Written) : Except PatternError Pattern := do
  let (p, _) ← meaning {} w
  if p.fits then return p else throw .tooLarge

/-- Reads a pattern. -/
def parse (text : String) : Except PatternError Pattern :=
  match readWritten {} text with
  | .ok w => ofWritten w
  | .error _ => .error .malformed

/-- Does some stretch of a text match? -/
def isMatch (p : Pattern) (text : String) : Bool := (Automaton.ofPattern p).isMatch text

end Pattern

end LayeredAccess
