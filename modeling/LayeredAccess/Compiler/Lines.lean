/-
  LayeredAccess.Compiler.Lines

  A compiler that reads one envelope per line and writes one reply per line.
  Blank lines, lines that hold no envelope and envelopes that the compiler
  refuses are passed over. How envelopes are written on lines is left to a
  `LineFormat`.

  The format in use is JSON. An envelope is read straight from the tokens of its
  line: members other than the event and the data are stepped over without a look
  at what they hold, and neither of the two may be given twice.
-/
import LayeredAccess.Compiler.Service
import LayeredAccess.Json.Parser
import LayeredAccess.Text.Blank

namespace LayeredAccess

namespace Compiler

open Json (Token)

/-- The parts of an envelope read so far. -/
structure Parts where
  event : Option CompilerEvent := none
  data : Option Json := none

namespace Parts

/-- The envelope, if its event has been given. -/
def toEnvelope? (p : Parts) : Option Envelope :=
  p.event.map fun event => ⟨event, p.data.getD .null⟩

/-- How deeply data may nest: the envelope itself is one level. -/
def dataMode : Json.Mode := .keep (Json.maxDepth - 1)

/-- Reads the event from the front of a token list: its name, alone or as the key of `null`. -/
def readEvent : List Token → Option (CompilerEvent × List Token)
  | .string (some name) :: ts => (find? name).map (·, ts)
  | .openObject :: .string (some name) :: .colon :: .null :: .closeObject :: ts =>
    (find? name).map (·, ts)
  | _ => none
where
  find? (name : String) : Option CompilerEvent :=
    (CompilerEvent.names.find? (·.1 == name)).map (·.2)

/-- Reads the value of a member of an envelope. -/
def readMember (p : Parts) (key : String) (ts : List Token) : Option (Parts × List Token) :=
  if key = "event" then
    if p.event.isSome then none
    else (readEvent ts).map fun (event, ts) => ({ p with event := some event }, ts)
  else if key = "data" then
    if p.data.isSome then none
    else (Json.readValue dataMode ts).map fun (v, ts) => ({ p with data := some v }, ts)
  else (Json.readValue .skip ts).map fun (_, ts) => (p, ts)

/-- Reads members up to the end of the object; each takes at least two tokens, so the number of
tokens bounds their number. -/
def readMembers : Nat → Parts → List Token → Option (Parts × List Token)
  | bound + 1, p, .string (some key) :: .colon :: ts => do
    let (p, ts) ← p.readMember key ts
    match ts with
    | .comma :: ts => readMembers bound p ts
    | .closeObject :: ts => return (p, ts)
    | _ => none
  | _, _, _ => none

/-- Reads the event and the data from an array. -/
def readItems (ts : List Token) : Option (Parts × List Token) := do
  let (event, ts) ← readEvent ts
  match ts with
  | .closeArray :: ts => return ({ event := some event }, ts)
  | .comma :: ts =>
    match ← Json.readValue dataMode ts with
    | (v, .closeArray :: ts) => return ({ event := some event, data := some v }, ts)
    | _ => none
  | _ => none

end Parts

end Compiler

open Compiler (Parts)

/-- The envelope that is written as a text. -/
def Envelope.parse? (text : String) : Option Envelope := do
  let ts ← Json.tokens text.toList
  let (p, rest) ← match ts with
    | .openObject :: ts => Parts.readMembers ts.length {} ts
    | .openArray :: ts => Parts.readItems ts
    | _ => none
  if rest.isEmpty then p.toEnvelope? else none

/-- How envelopes are written on lines. -/
structure LineFormat where
  read : String → Option Envelope
  write : Envelope → String

namespace LineFormat

def json : LineFormat := ⟨Envelope.parse?, Envelope.render⟩

/-- The envelope that a line holds; there is none on a line of white space. -/
def envelope? (format : LineFormat) (line : String) : Option Envelope :=
  if line.toList.all Text.isBlank then none else format.read line

/-- Answers one line: the reply line, if there is one, and the compiler afterwards. -/
def handleLine (format : LineFormat) (c : Compiler) (line : String) : Option String × Compiler :=
  match format.envelope? line with
  | none => (none, c)
  | some e =>
    let (result, c) := c.handle e
    (result.toOption.join.map format.write, c)

/-- The reply lines to a list of lines. -/
def handleLines (format : LineFormat) (c : Compiler) : List String → List String
  | [] => []
  | line :: rest =>
    let (reply, c) := format.handleLine c line
    reply.toList ++ handleLines format c rest

end LineFormat

namespace Compiler

def handleLine (c : Compiler) (line : String) : Option String × Compiler :=
  LineFormat.json.handleLine c line

def handleLines (c : Compiler) (lines : List String) : List String :=
  LineFormat.json.handleLines c lines

/-- The lines of a text: what follows the last line end is a line if it is not empty. -/
def linesOf (input : String) : List String :=
  let lines := input.splitOn "\n"
  if lines.getLast? = some "" then lines.dropLast else lines

end Compiler

end LayeredAccess
