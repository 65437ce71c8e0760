/-
  LayeredAccess.Script.Evaluation

  The value of an expression where its variables have given values. Operands
  are evaluated from the left, both sides of `&&` always, the right side of
  `||` only where the left does not count as true.
-/
import LayeredAccess.Script.Expr
import LayeredAccess.Script.Function
import LayeredAccess.Script.Language
import LayeredAccess.Script.Parser

namespace LayeredAccess.Script

/-- The result of an operator in front. -/
def UnaryOp.apply : UnaryOp → Value → Result Value
  | .not, v => .ok (.bool !v.isTruthy)
  | .notNot, v => .ok (.bool v.isTruthy)
  | .minus, v => negate v
  | .minusMinus, v => negateTwice v

/-- The result of an operator between two values at a place of the script. -/
def BinaryOp.apply (here : Origin) : BinaryOp → Value → Value → Result Value
  | .add, a, b => Arith.add.apply here a b
  | .sub, a, b => Arith.sub.apply here a b
  | .mul, a, b => Arith.mul.apply here a b
  | .div, a, b => Arith.div.apply here a b
  | .rem, a, b => Arith.rem.apply here a b
  | .lt, a, b => compareWith (· == .lt) a b
  | .le, a, b => compareWith (· != .gt) a b
  | .gt, a, b => compareWith (· == .gt) a b
  | .ge, a, b => compareWith (· != .lt) a b
  | .eq, a, b => .ok (.bool (b.same a))
  | .ne, a, b => .ok (.bool !(b.same a))
  | .mem, a, b => (isMember a b).map .bool

/-- The name of an expression that is no more than a variable. -/
def Expr.name? : Expr → Option String
  | .variable name => some name
  | _ => none

mutual

/-- The value of an expression at a place of the script. -/
def eval (env : Env) (here : Origin) : Expr → Result Value
  | .literal v => .ok v
  | .variable name =>
    match KeyMap.find? env name with
    | some v => .ok v
    | none => fail .undeclaredReference
  | .unary op e => do op.apply (← eval env (0 :: here) e)
  | .binary op a b => do
    let x ← eval env (0 :: here) a
    let y ← eval env (1 :: here) b
    op.apply here x y
  | .and a b => do
    let x ← eval env (0 :: here) a
    let y ← eval env (1 :: here) b
    return .bool (x.isTruthy && y.isTruthy)
  | .or a b => do
    let x ← eval env (0 :: here) a
    if x.isTruthy then return x else eval env (1 :: here) b
  | .conditional test yes no => do
    let t ← eval env (0 :: here) test
    if t.isTruthy then eval env (1 :: here) yes else eval env (2 :: here) no
  | .list items => do return .list here (← evalAll env here 0 items)
  | .map entries => do return .map here (← evalEntries env here 0 [] entries)
  | .member e name => do memberOf (← eval env (0 :: here) e) name
  | .index e i => do
    let v ← eval env (0 :: here) e
    let k ← eval env (1 :: here) i
    indexInto v k
  | .construct e => do
    let _ ← eval env (0 :: here) e
    fail .unsupportedFieldsConstruction
  | .call name args =>
    if isFunction name then
      callFunction name
        { here
          target := none
          count := args.length
          eval := fun i => evalNth env ((i + 1) :: here) args i
          evalWith := fun i x item =>
            evalNth ((x, item.1) :: env) (item.2 :: (i + 1) :: here) args i
          nameOf? := fun i => (args[i]?).bind Expr.name? }
    else fail .undeclaredReference
  | .method target name args =>
    if isFunction name then do
      let v ← eval env (0 :: here) target
      callFunction name
        { here
          target := some v
          count := args.length
          eval := fun i => evalNth env ((i + 1) :: here) args i
          evalWith := fun i x item =>
            evalNth ((x, item.1) :: env) (item.2 :: (i + 1) :: here) args i
          nameOf? := fun i => (args[i]?).bind Expr.name? }
    else fail .undeclaredReference

/-- The values of a list of expressions, which are numbered from `next` on. -/
def evalAll (env : Env) (here : Origin) (next : Nat) : List Expr → Result (List Value)
  | [] => .ok []
  | e :: rest => do
    let v ← eval env (next :: here) e
    let vs ← evalAll env here (next + 1) rest
    return v :: vs

/-- The value of one of a list of expressions. -/
def evalNth (env : Env) (here : Origin) : List Expr → Nat → Result Value
  | [], _ => fail .invalidArgumentCount
  | e :: _, 0 => eval env here e
  | _ :: rest, i + 1 => evalNth env here rest i

/-- The entries of a map, entered one after the other and numbered from `next` on. -/
def evalEntries (env : Env) (here : Origin) (next : Nat) (done : List (Key × Value)) :
    Entries → Result (List (Key × Value))
  | .nil => .ok done
  | .cons key value rest => do
    match (← eval env (0 :: next :: here) key).toKey? with
    | none => fail .unsupportedKeyType
    | some k =>
      let v ← eval env (1 :: next :: here) value
      evalEntries env here (next + 1) (Value.setEntry done k v) rest

end

/-- The value of a whole script. -/
def evaluate (env : Env) (script : Expr) : Result Value := eval env [0] script

/-- The language of expressions. Its reports are names only. -/
def language : Language where
  Program := Expr
  compile source :=
    match parse source with
    | .ok e => .result e
    | .error .grammar => .failure "not a script"
    | .error .crash => .crash
  execute e env :=
    match evaluate env e with
    | .ok (.bool holds) => .result (some holds)
    | .ok _ => .result none
    | .error (.error e) => .failure e.name
    | .error .crash => .crash

end LayeredAccess.Script
