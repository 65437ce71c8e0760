/-
  LayeredAccess.Script.Function

  Operators and functions of scripts, and how they fail. A function sees the
  place of its call: the value that it is called on, if there is one, and
  arguments that it may evaluate, or bind a variable in, as it needs them.
-/
import LayeredAccess.Decimal.Notation
import LayeredAccess.Decimal.Reading
import LayeredAccess.Pattern.Search
import LayeredAccess.Script.Value

namespace LayeredAccess.Script

/-- Why an evaluation fails. -/
inductive EvalError where
  | noSuchKey
  | undeclaredReference
  | unexpectedType
  | invalidArgumentCount
  | missingArgumentOrTarget
  | unsupportedKeyType
  | unsupportedBinaryOperator
  | unsupportedUnaryOperator
  | valuesNotComparable
  | functionError
  | unsupportedListIndex
  | unsupportedMapIndex
  | unsupportedIndex
  | unsupportedFieldsConstruction
  deriving DecidableEq, Inhabited, Repr

namespace EvalError

/-- The name of a failure. -/
def name : EvalError → String
  | noSuchKey => "NoSuchKey"
  | undeclaredReference => "UndeclaredReference"
  | unexpectedType => "UnexpectedType"
  | invalidArgumentCount => "InvalidArgumentCount"
  | missingArgumentOrTarget => "MissingArgumentOrTarget"
  | unsupportedKeyType => "UnsupportedKeyType"
  | unsupportedBinaryOperator => "UnsupportedBinaryOperator"
  | unsupportedUnaryOperator => "UnsupportedUnaryOperator"
  | valuesNotComparable => "ValuesNotComparable"
  | functionError => "FunctionError"
  | unsupportedListIndex => "UnsupportedListIndex"
  | unsupportedMapIndex => "UnsupportedMapIndex"
  | unsupportedIndex => "UnsupportedIndex"
  | unsupportedFieldsConstruction => "UnsupportedFieldsConstruction"

end EvalError

/-- How an evaluation ends without a value. -/
inductive Stop where
  /-- It fails. -/
  | error (e : EvalError)
  /-- The interpreter itself stops. -/
  | crash
  deriving DecidableEq, Inhabited, Repr

/-- The result of an evaluation. -/
abbrev Result := Except Stop

def fail {α : Type} (e : EvalError) : Result α := .error (.error e)

/-! ## Operators -/

/-- A signed integer, if 64 bits hold it. -/
def int64 (n : Int) : Result Value := if isInt64 n then .ok (.int n) else .error .crash

/-- An unsigned integer, if 64 bits hold it. -/
def uint64 (n : Int) : Result Value :=
  if 0 ≤ n && n < wordLimit then .ok (.uint n.toNat) else .error .crash

/-- The operations of arithmetic. -/
inductive Arith where
  | add
  | sub
  | mul
  | div
  | rem
  deriving DecidableEq, Repr

namespace Arith

/-- The operation on integers; division rounds towards zero, and there is none by zero. -/
def onInts (op : Arith) (a b : Int) : Option Int :=
  match op with
  | add => some (a + b)
  | sub => some (a - b)
  | mul => some (a * b)
  | div => if b = 0 then none else some (Int.tdiv a b)
  | rem => if b = 0 then none else some (Int.tmod a b)

/-- The operation on doubles. -/
def onFloats (op : Arith) (x y : Float) : Float :=
  match op with
  | add => x + y
  | sub => x - y
  | mul => x * y
  | div => x / y
  | rem => Decimal.remainder x y

/-- The number of a value as a double. -/
def float? : Value → Option Float
  | .int n => some (Float.ofInt n)
  | .uint n => some (Float.ofNat n)
  | .float x => some x
  | _ => none

/-- The operation on two values at a place of the script. Integers of different kinds do not mix; a
double takes any number beside it. Texts, lists and maps can only be added. -/
def apply (op : Arith) (here : Origin) : Value → Value → Result Value
  | .int a, .int b =>
    if op = rem && b = -1 && a = -signLimit then .error .crash
    else
      match op.onInts a b with
      | some n => int64 n
      | none => .error .crash
  | .uint a, .uint b =>
    match op.onInts a b with
    | some n => uint64 n
    | none => .error .crash
  | .int _, .uint _ | .uint _, .int _ => fail .unsupportedBinaryOperator
  | .str a, .str b => if op = add then .ok (.str (a ++ b)) else fail .unsupportedBinaryOperator
  | .list _ a, .list _ b =>
    if op = add then .ok (.list here (a ++ b)) else fail .unsupportedBinaryOperator
  | .map _ a, .map _ b =>
    if op = add then .ok (.map here (b.foldl (fun m e => Value.setEntry m e.1 e.2) a))
    else fail .unsupportedBinaryOperator
  | a, b =>
    match float? a, float? b with
    | some x, some y => .ok (.float (op.onFloats x y))
    | _, _ => fail .unsupportedBinaryOperator

end Arith

/-- Does the order of two values satisfy a condition? -/
def compareWith (test : Ordering → Bool) (a b : Value) : Result Value :=
  match a.order? b with
  | some o => .ok (.bool (test o))
  | none => fail .valuesNotComparable

/-- Is a text part of another? -/
def isInfix (part text : String) : Bool := (text.splitOn part).length != 1 || part.isEmpty

/-- Is a value part of a text, an item of a list or a key of a map? -/
def isMember : Value → Value → Result Bool
  | .str a, .str b => .ok (isInfix a b)
  | v, .list _ items => .ok (items.any fun item => item.same v)
  | v, .map _ entries => .ok (v.toKey?.any fun k => KeyMap.contains entries k)
  | _, _ => fail .valuesNotComparable

/-- The minus sign in front of a value. -/
def negate : Value → Result Value
  | .int n => int64 (-n)
  | .float x => .ok (.float (-x))
  | _ => fail .unsupportedUnaryOperator

/-- Two minus signs in front of a value. -/
def negateTwice : Value → Result Value
  | .int n => .ok (.int n)
  | .uint n => .ok (.uint n)
  | .float x => .ok (.float x)
  | _ => fail .unsupportedUnaryOperator

/-- The character that starts so many bytes behind the front of a text and is one byte long. -/
def byteAt? : List Char → Nat → Option Char
  | [], _ => none
  | c :: rest, offset =>
    if offset = 0 then (if c.utf8Size = 1 then some c else none)
    else if c.utf8Size ≤ offset then byteAt? rest (offset - c.utf8Size)
    else none

/-- What stands at an index. Where there is nothing the result is null. -/
def indexInto : Value → Value → Result Value
  | .list _ items, .int i => .ok (if 0 ≤ i then (items[i.toNat]?).getD .null else .null)
  | .str s, .int i =>
    .ok (match if 0 ≤ i then byteAt? s.toList i.toNat else none with
      | some c => .str (String.singleton c)
      | none => .null)
  | .map _ entries, i =>
    match i.toKey? with
    | some k => .ok ((Value.lookup? entries k).getD .null)
    | none => fail .unsupportedMapIndex
  | .list _ _, _ => fail .unsupportedListIndex
  | _, _ => fail .unsupportedIndex

/-! ## The place of a call -/

/-- The place of a call: the value that a function is called on, and its arguments. -/
structure CallSite where
  /-- The place itself. -/
  here : Origin
  target : Option Value
  /-- The number of arguments. -/
  count : Nat
  /-- Evaluates an argument. -/
  eval : Nat → Result Value
  /-- Evaluates an argument with a variable set to an item, which has a number. -/
  evalWith : Nat → String → Value × Nat → Result Value
  /-- The name of an argument that is no more than a variable. -/
  nameOf? : Nat → Option String

namespace CallSite

/-- The value of an argument, which has to be there. -/
def arg (c : CallSite) (i : Nat) : Result Value :=
  if i < c.count then c.eval i else fail .invalidArgumentCount

/-- The value that the function works on, and the position of the next argument: what it is called
on, or else the first argument, whatever goes wrong with that. -/
def subject (c : CallSite) : Result (Value × Nat) :=
  match c.target with
  | some v => .ok (v, 0)
  | none =>
    match c.arg 0 with
    | .ok v => .ok (v, 1)
    | .error .crash => .error .crash
    | .error (.error _) => fail .missingArgumentOrTarget

/-- The name that an argument binds; nothing is ready for its absence. -/
def binder (c : CallSite) (i : Nat) : Result String :=
  if i < c.count then
    match c.nameOf? i with
    | some name => .ok name
    | none => fail .unexpectedType
  else .error .crash

/-- The subject, and how to evaluate the body of the function for an item with its number. Nothing
is ready for the absence of a body. -/
def overItems (c : CallSite) : Result (Value × (Value × Nat → Result Value)) := do
  let (v, i) ← c.subject
  let name ← c.binder i
  if i + 1 < c.count then return (v, c.evalWith (i + 1) name) else .error .crash

end CallSite

/-! ## Functions -/

/-- A text, and nothing else. -/
def text : Value → Result String
  | .str s => .ok s
  | _ => fail .unexpectedType

/-- The items of a list, or the keys of a map, with their numbers. -/
def itemsOrKeys : Value → Result (List (Value × Nat))
  | .list _ items => .ok items.zipIdx
  | .map _ entries => .ok (entries.map (·.1.toValue)).zipIdx
  | _ => fail .unexpectedType

/-- The items of a list with their numbers. -/
def itemsOf : Value → Result (List (Value × Nat))
  | .list _ items => .ok items.zipIdx
  | _ => fail .unexpectedType

def isBool (b : Bool) : Value → Bool
  | .bool c => b == c
  | _ => false

/-- Does the body give true for some item? Evaluation ends with the first such item. -/
def someHolds (body : Value × Nat → Result Value) : List (Value × Nat) → Result Bool
  | [] => .ok false
  | v :: rest => do if isBool true (← body v) then return true else someHolds body rest

/-- Does the body give false for no item? Evaluation ends with the first such item. -/
def noneFails (body : Value × Nat → Result Value) : List (Value × Nat) → Result Bool
  | [] => .ok true
  | v :: rest => do if isBool false (← body v) then return false else noneFails body rest

/-- Does the body give true for exactly one item? Evaluation ends with the second such item. -/
def existsOne (body : Value × Nat → Result Value) (found : Bool) :
    List (Value × Nat) → Result Bool
  | [] => .ok found
  | v :: rest => do
    if isBool true (← body v) then
      if found then return false else existsOne body true rest
    else existsOne body found rest

/-- The greatest of some values, the last of those that are equal. -/
def maximum (acc : Value) : List Value → Result Value
  | [] => .ok acc
  | v :: rest =>
    match acc.order? v with
    | some .gt => maximum acc rest
    | some _ => maximum v rest
    | none => fail .valuesNotComparable

/-- The number of bytes of a text, items of a list or entries of a map. -/
def countOf : Value → Result Value
  | .str s => .ok (.int s.utf8ByteSize)
  | .list _ items => .ok (.int items.length)
  | .map _ entries => .ok (.int entries.length)
  | _ => fail .functionError

/-- The text of a text or a number. -/
def toText : Value → Result Value
  | .str s => .ok (.str s)
  | .int n => .ok (.str (toString n))
  | .uint n => .ok (.str (toString n))
  | .float x => .ok (.str (Decimal.plain.render x))
  | _ => fail .functionError

/-- The integer on the side of zero, within bounds; zero for NaN. -/
def clamp (low high : Int) (x : Float) : Int :=
  if x.isNaN then 0
  else if !Decimal.isFinite x then (if x < 0 then low else high)
  else max low (min high (Decimal.truncate x))

/-- The signed integer of a number or a text. -/
def toInt : Value → Result Value
  | .int n => .ok (.int n)
  | .uint n => if n < signLimit then .ok (.int n) else fail .functionError
  | .float x =>
    let limit : Float := Float.ofScientific signLimit false 0
    if limit < x || x < -limit then fail .functionError
    else .ok (.int (clamp (-signLimit) (signLimit - 1) x))
  | .str s =>
    match Decimal.int? true s with
    | some n => if isInt64 n then .ok (.int n) else fail .functionError
    | none => fail .functionError
  | _ => fail .functionError

/-- The unsigned integer of a number or a text. -/
def toUint : Value → Result Value
  | .int n => if 0 ≤ n then .ok (.uint n.toNat) else fail .functionError
  | .uint n => .ok (.uint n)
  | .float x =>
    let limit : Float := Float.ofScientific wordLimit false 0
    if limit < x || x < 0.0 then fail .functionError
    else .ok (.uint (clamp 0 (wordLimit - 1) x).toNat)
  | .str s =>
    match Decimal.int? false s with
    | some n => if n < wordLimit then .ok (.uint n.toNat) else fail .functionError
    | none => fail .functionError
  | _ => fail .functionError

/-- The double of a number or a text. -/
def toDouble : Value → Result Value
  | .str s =>
    match Decimal.float? s with
    | some x => .ok (.float x)
    | none => fail .functionError
  | v =>
    match Arith.float? v with
    | some x => .ok (.float x)
    | none => fail .functionError

/-- Does a value hold another: an item of a list, a key of a map, a part of a text? -/
def holds : Value → Value → Result Bool
  | .list _ items, v => .ok (items.any fun item => item.same v)
  | .map _ entries, v =>
    match v.toKey? with
    | some k => .ok (KeyMap.contains entries k)
    | none => fail .unsupportedKeyType
  | .str s, .str part => .ok (isInfix part s)
  | _, _ => .ok false

/-- A question about the subject and one argument, both texts. -/
def onTexts (f : String → String → Result Bool) (c : CallSite) : Result Value := do
  let (v, i) ← c.subject
  let s ← text v
  let t ← text (← c.arg i)
  return .bool (← f s t)

/-- A conversion of the subject. -/
def onSubject (f : Value → Result Value) (c : CallSite) : Result Value := do
  let (v, _) ← c.subject
  f v

/-- The functions by name. -/
def functions : List (String × (CallSite → Result Value)) :=
  [("contains", fun c => do
      let (v, i) ← c.subject
      return .bool (← holds v (← c.arg i))),
   ("size", fun c => do countOf (← c.arg 0)),
   ("has", fun c =>
      match c.arg 0 with
      | .ok _ => .ok (.bool true)
      | .error (.error .noSuchKey) => .ok (.bool false)
      | .error e => .error e),
   ("map", fun c => do
      let (v, body) ← c.overItems
      return .list c.here (← (← itemsOf v).mapM body)),
   ("filter", fun c => do
      let (v, body) ← c.overItems
      let kept ← (← itemsOf v).filterM fun item => do return isBool true (← body item)
      return .list c.here (kept.map (·.1))),
   ("all", fun c => do
      let (v, body) ← c.overItems
      return .bool (← noneFails body (← itemsOrKeys v))),
   ("exists", fun c => do
      let (v, body) ← c.overItems
      return .bool (← someHolds body (← itemsOrKeys v))),
   ("exists_one", fun c => do
      let (v, body) ← c.overItems
      return .bool (← existsOne body false (← itemsOrKeys v))),
   ("max", fun c => do
      let args ← (List.range c.count).mapM c.eval
      let items := match args with
        | [.list _ items] => items
        | args => args
      match items with
      | [] => return .null
      | v :: rest => maximum v rest),
   ("startsWith", onTexts fun s t => .ok (t.toList.isPrefixOf s.toList)),
   ("endsWith", onTexts fun s t => .ok (t.toList.isSuffixOf s.toList)),
   ("matches", onTexts fun s t =>
      match Pattern.parse t with
      | .ok p => .ok (p.isMatch s)
      | .error _ => fail .functionError),
   ("string", onSubject toText),
   ("double", onSubject toDouble),
   ("int", onSubject toInt),
   ("uint", onSubject toUint)]

/-- Functions that make bytes, spans and points of time from a text. -/
def temporalConversions : List String := ["bytes", "duration", "timestamp"]

/-- Is there a function of this name? -/
def isFunction (name : String) : Bool :=
  functions.any (·.1 == name) || temporalConversions.contains name

/-- Calls a function. -/
def callFunction (name : String) (c : CallSite) : Result Value :=
  match functions.find? (·.1 == name) with
  | some (_, f) => f c
  | none =>
    if temporalConversions.contains name then do
      discard <| text (← c.arg 0)
      fail .functionError
    else fail .undeclaredReference

/-- What a value has under a name: an entry of a map, or else the function of that name on the
value. -/
def memberOf (v : Value) (name : String) : Result Value :=
  let entry := match v with
    | .map _ entries => KeyMap.find? entries (.str name)
    | _ => none
  match entry with
  | some found => .ok found
  | none => if isFunction name then .ok (.function name v) else fail .noSuchKey

end LayeredAccess.Script
