/-
  LayeredAccess.Compliance.Loading

  What a schema says, found by a walk over its entries: each entry before those
  below it, and these in their order. On the way the scripts of all rules are
  compiled; the walk ends with the first that is none, or with the first entry
  that has no name.
-/
import LayeredAccess.Compliance.Rulebook
import LayeredAccess.Error

namespace LayeredAccess.Compliance

/-- Work with a sandbox that may fail. -/
abbrev Loading (σ : Type) := ExceptT EngineError (StateM (Sandbox σ))

namespace Loading

variable {σ : Type}

/-- Compiles the rules that an entry of a schema defines. -/
def compileAll (schema : String) (path : Path) :
    List RuleDefinition → Loading σ (List (Path × Rule))
  | [] => return []
  | d :: rest => do
    let (result, s) := (← get).compile d.body
    set s
    match result with
    | .error e => throw (.ruleCompileFailure schema path d.name d.body e.message)
    | .ok handle =>
      let others ← compileAll schema path rest
      return (path ++ [d.name], .scripted d handle) :: others

/-- What a block of rules says at an entry. -/
def block (schema : String) (path : Path) : Option Comply → Loading σ Rulebook.Contents
  | none => return {}
  | some c => do
    return { references := [(path, c.rules)], rules := ← compileAll schema path c.define }

mutual

/-- What an entry says, with everything below it; `path` leads to the entry. -/
def visit (schema : String) (path : Path) : Schema → Loading σ Rulebook.Contents
  | { name, comply, children, .. } => do
    if name.isEmpty then
      throw (.invalidDefinition
        ("schema \"" ++ schema ++ "\" has an unnamed entry under " ++ Text.quotedList path))
    let own ← block schema path comply
    let below ← visitAll schema path children
    return own ++ below

/-- What the entries below a path say. -/
def visitAll (schema : String) (path : Path) : List Schema → Loading σ Rulebook.Contents
  | [] => return {}
  | s :: rest => do
    let first ← visit schema (path ++ [s.name]) s
    let others ← visitAll schema path rest
    return first ++ others

end

/-- What a schema says. -/
def contents (s : Schema) : Loading σ Rulebook.Contents := visit s.name [s.name] s

end Loading

end LayeredAccess.Compliance
