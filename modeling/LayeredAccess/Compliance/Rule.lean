/-
  LayeredAccess.Compliance.Rule

  Rules: what they are called, how they are described, and how they judge a
  value. A rule is either native or a script that runs in a sandbox.
-/
import LayeredAccess.Compliance.Schema
import LayeredAccess.Pattern.Search
import LayeredAccess.Sandbox.Basic
import LayeredAccess.Text.Quoted

namespace LayeredAccess.Compliance

/-- Why a native rule can not judge a value. -/
inductive RuleFault where
  /-- The rule lacks an argument of the type that it needs. -/
  | expects (rule what : String)
  /-- The rule does not apply to the value. -/
  | unsuited (rule verb : String) (value : Json)
  /-- The pattern of the rule can not be used. -/
  | pattern (reason : PatternError)
  /-- The JSON schema of the rule is none. -/
  | schema
  deriving Inhabited

/-- The text of a fault. -/
def RuleFault.message : RuleFault → String
  | expects rule what => rule ++ " expects a " ++ what
  | unsuited rule verb value => rule ++ " can not " ++ verb ++ " " ++ value.render
  | pattern reason => reason.message
  | schema => "invalid schema"

/-- A native judgement of a value with arguments. -/
abbrev NativeRule := Json → List Json → Except RuleFault Bool

/-- How a rule judges. -/
inductive Executable where
  | native (body : NativeRule)
  | script (handle : ScriptHandle)
  deriving Inhabited

/-- The way of judging as diagnostics show it. -/
def Executable.describe : Executable → String
  | native _ => "Builtin"
  | script handle => "Script(" ++ Text.quoted handle.source ++ ")"

/-- A rule. -/
structure Rule where
  name : String
  label : Option String := none
  description : Option String := none
  args : List RuleArg := []
  /-- What is reported where the rule fails. -/
  errorText : Option String := none
  executable : Executable
  deriving Inhabited

namespace Rule

/-- A native rule of a module; its texts are keys of a message catalogue. -/
def native (module name : String) (args : List RuleArg) (body : NativeRule) : Rule :=
  let key (what : String) : Option String :=
    some ("common.rules." ++ module ++ "." ++ name ++ "." ++ what)
  { name, label := key "label", description := key "description", args
    errorText := key "errorText", executable := .native body }

/-- The rule of a definition whose script has been compiled. -/
def scripted (d : RuleDefinition) (handle : ScriptHandle) : Rule :=
  { name := d.name, label := d.label, description := d.description, args := d.args
    errorText := d.errorText, executable := .script handle }

/-- What is reported of a value that breaks the rule. -/
def failureText (r : Rule) : String :=
  r.errorText.getD ("Value does not comply with \"" ++ r.name ++ "\"")

/-- The description of a rule. -/
def encode (r : Rule) : Json :=
  let text (s : Option String) : Json := .ofOption (s.map .str)
  Json.mkObj
    [("name", .str r.name), ("label", text r.label), ("description", text r.description),
     ("args", .arr (r.args.map RuleArg.encode)), ("errorText", text r.errorText),
     ("failureText", .str r.failureText), ("executable", .str r.executable.describe)]

end Rule

/-- A group of native rules. -/
structure RuleModule where
  name : String
  rules : List Rule

end LayeredAccess.Compliance
