/-
  LayeredAccess.Json.Parser

  JSON texts to values. Nesting is kept on an explicit stack of open
  containers, so reading is a single pass over the tokens and the depth limit
  is a bound on the stack.
-/
import LayeredAccess.Json.Token

namespace LayeredAccess.Json

/-- The deepest nesting that is read. -/
def maxDepth : Nat := 127

/-- An open container with what has been read of it. -/
inductive Frame where
  /-- An array with its items so far, last first. -/
  | items (done : List Json)
  /-- An object with its members so far and the key whose value is awaited. -/
  | members (done : KeyMap String Json) (key : String)

/-- What the next token has to be. -/
inductive Expected where
  | value
  | valueOrEnd
  | keyOrEnd (done : KeyMap String Json)
  | key (done : KeyMap String Json)
  | colon (done : KeyMap String Json) (key : String)
  /-- A value has just been completed. -/
  | separator (value : Json)

/-- How a value is read. -/
inductive Mode where
  /-- It is kept: it may nest up to a limit, and every literal must have a value. -/
  | keep (limit : Nat)
  /-- It is stepped over: any depth will do, and literals need no value. -/
  | skip

/-- May another container be opened inside so many open ones? -/
def Mode.mayOpen : Mode → Nat → Bool
  | .keep limit, depth => depth < limit
  | .skip, _ => true

/-- The value of a literal. -/
def Mode.literal {α : Type} (mode : Mode) (substitute : α) (value : Option α) : Option α :=
  match mode with
  | .keep _ => value
  | .skip => some (value.getD substitute)

/-- The value that a token other than a bracket stands for. -/
def scalar? (mode : Mode) : Token → Option Json
  | .null => some .null
  | .bool b => some (.bool b)
  | .number v => mode.literal .null v
  | .string s => (mode.literal "" s).map .str
  | _ => none

/-- Starts a value: a scalar is complete at once, an opening bracket opens a frame. -/
def startValue (mode : Mode) (stack : List Frame) (t : Token) : Option (List Frame × Expected) :=
  match t with
  | .openArray => if mode.mayOpen stack.length then some (.items [] :: stack, .valueOrEnd) else none
  | .openObject => if mode.mayOpen stack.length then some (stack, .keyOrEnd []) else none
  | t => (scalar? mode t).map fun v => (stack, .separator v)

/-- One step of reading. An object whose next key is awaited is held by the expectation; it
goes onto the stack with its key. -/
def readToken (mode : Mode) (stack : List Frame) :
    Expected → Token → Option (List Frame × Expected)
  | .value, t => startValue mode stack t
  | .valueOrEnd, .closeArray =>
    match stack with
    | .items done :: rest => some (rest, .separator (.arr done.reverse))
    | _ => none
  | .valueOrEnd, t => startValue mode stack t
  | .keyOrEnd done, .closeObject => some (stack, .separator (.obj done))
  | .keyOrEnd done, .string s => (mode.literal "" s).map fun k => (stack, .colon done k)
  | .key done, .string s => (mode.literal "" s).map fun k => (stack, .colon done k)
  | .colon done k, .colon => some (.members done k :: stack, .value)
  | .separator v, t =>
    match stack, t with
    | .items done :: rest, .comma => some (.items (v :: done) :: rest, .value)
    | .items done :: rest, .closeArray => some (rest, .separator (.arr (v :: done).reverse))
    | .members done k :: rest, .comma => some (rest, .key (KeyMap.insert done k v))
    | .members done k :: rest, .closeObject =>
      some (rest, .separator (.obj (KeyMap.insert done k v)))
    | _, _ => none
  | _, _ => none

/-- The value that reading has completed, once no container is open. -/
def completed? (stack : List Frame) (e : Expected) : Option Json :=
  match stack, e with
  | [], .separator v => some v
  | _, _ => none

/-- Reads on until the outermost value is complete. -/
def readUntilComplete (mode : Mode) (stack : List Frame) (e : Expected) :
    List Token → Option (Json × List Token)
  | [] => (completed? stack e).map (·, [])
  | t :: ts =>
    match completed? stack e with
    | some v => some (v, t :: ts)
    | none =>
      match readToken mode stack e t with
      | none => none
      | some (stack, e) => readUntilComplete mode stack e ts

/-- Reads one value from the front of a token list. -/
def readValue (mode : Mode) (ts : List Token) : Option (Json × List Token) :=
  readUntilComplete mode [] .value ts

/-- The value that a text stands for, if it is one JSON value and nothing more. -/
def parse (text : String) : Option Json := do
  let ts ← tokens text.toList
  match ← readValue (.keep maxDepth) ts with
  | (v, []) => some v
  | _ => none

end LayeredAccess.Json
