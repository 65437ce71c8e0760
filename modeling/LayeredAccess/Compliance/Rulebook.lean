/-
  LayeredAccess.Compliance.Rulebook

  What compliance checks go by: native rules under their module and name, rules
  of schemas under the path of the entry that defines them and their name, and
  for every entry the references to the rules that its values have to satisfy.

  A reference with a dot says where its rule is. Any other is looked up the way
  variables are: the innermost entry around the value that defines the name has
  the rule.
-/
import LayeredAccess.Compliance.Report
import LayeredAccess.Compliance.Rule

namespace LayeredAccess.Compliance

/-- Rules and references to them. -/
structure Rulebook where
  /-- Native rules by module and name. -/
  builtins : KeyMap Path Rule := []
  /-- Rules of schemas by the path of their entry, followed by their name. -/
  rules : KeyMap Path Rule := []
  /-- The references of the entries that list any. -/
  references : KeyMap Path (List RuleRef) := []
  /-- The names of the schemas. -/
  schemas : KeyMap String Unit := []

namespace Rulebook

/-! ## Native rules -/

/-- Enters the rules of a module, in the place of those with the same names. -/
def register (b : Rulebook) (m : RuleModule) : Rulebook :=
  { b with builtins := m.rules.foldl (fun rs r => KeyMap.insert rs [m.name, r.name] r) b.builtins }

/-- The native rule of a module. -/
def builtin? (b : Rulebook) (module name : String) : Option Rule :=
  KeyMap.find? b.builtins [module, name]

/-- The book with native rules only. -/
def nativeOnly (b : Rulebook) : Rulebook := { builtins := b.builtins }

/-! ## Finding rules -/

def hasSchema (b : Rulebook) (name : String) : Bool := KeyMap.contains b.schemas name

/-- Is there a rule of this name in an entry? -/
def defines (b : Rulebook) (path : Path) (name : String) : Bool :=
  KeyMap.contains b.rules (path ++ [name])

/-- The innermost entry that defines a name, among those on the way from one entry down to
another. -/
def innermost (b : Rulebook) (name : String) (outer : Path) : Path → Option Path
  | [] => none
  | segment :: rest =>
    let here := outer ++ [segment]
    (innermost b name here rest).orElse fun _ => if b.defines here name then some here else none

/-- The innermost entry that defines a name, among an entry and those around it. -/
def findRule (b : Rulebook) (path : Path) (name : String) : Option Path := b.innermost name [] path

/-- Without a path there is no entry to look at. -/
@[simp] theorem findRule_nil (b : Rulebook) (name : String) : b.findRule [] name = none := rfl

/-- The rule of an entry. -/
def rule? (b : Rulebook) (path : Path) (name : String) : Option Rule :=
  KeyMap.find? b.rules (path ++ [name])

/-- The rule that a reference means at an entry, and where it is. Native rules come before those of
schemas. -/
def resolve (b : Rulebook) (path : Path) (r : RuleRef) : Option (Path × Rule) :=
  if r.isQualified then
    let segments := r.name.splitOn "."
    let rule := (KeyMap.find? b.builtins segments).orElse fun _ => KeyMap.find? b.rules segments
    rule.map fun rule => (segments.dropLast, rule)
  else do
    let home ← b.findRule path r.name
    return (home, ← b.rule? home r.name)

/-- The references at an entry. -/
def referencesAt (b : Rulebook) (path : Path) : List RuleRef :=
  (KeyMap.find? b.references path).getD []

/-! ## Schemas -/

/-- The entries of a table that do not belong to a schema. -/
def outside {α : Type} (name : String) (table : KeyMap Path α) : KeyMap Path α :=
  table.filter fun e => e.1.head? ≠ some name

/-- Below other roots nothing is lost, and below the schema's own nothing is left. -/
theorem find?_outside {α : Type} (name : String) (table : KeyMap Path α) (path : Path) :
    KeyMap.find? (outside name table) path
      = if path.head? = some name then none else KeyMap.find? table path := by
  refine (KeyMap.find?_filter (fun path => path.head? ≠ some name) table path).trans ?_
  by_cases h : path.head? = some name <;> simp [h]

/-- Drops a schema with its rules and references. -/
def drop (b : Rulebook) (name : String) : Rulebook :=
  { b with
    rules := outside name b.rules
    references := outside name b.references
    schemas := KeyMap.erase b.schemas name }

/-- What a schema says: its references and rules in the order of its entries. -/
structure Contents where
  references : List (Path × List RuleRef) := []
  rules : List (Path × Rule) := []

/-- The contents of a schema's parts one behind the other. -/
def Contents.append (a b : Contents) : Contents :=
  ⟨a.references ++ b.references, a.rules ++ b.rules⟩

instance : Append Contents := ⟨Contents.append⟩

/-- Enters what the new version of a schema says over what is there, and then drops all other
entries of the schema. Of two things at one path the later one stays. -/
def overwrite {α : Type} (name : String) (table : KeyMap Path α) (entries : List (Path × α)) :
    KeyMap Path α :=
  let fresh := entries.map (·.1)
  (entries.foldl (fun t e => KeyMap.insert t e.1 e.2) table).filter fun e =>
    !(e.1.head? = some name && !fresh.contains e.1)

/-- Enters a schema in the place of one with the same name. -/
def enter (b : Rulebook) (name : String) (c : Contents) : Rulebook :=
  { b with
    rules := overwrite name b.rules c.rules
    references := overwrite name b.references c.references
    schemas := KeyMap.insert b.schemas name () }

end Rulebook

end LayeredAccess.Compliance
