/-
  LayeredAccess.Script.Parser

  Token lists to expressions. From loose to tight: the conditional, `||`, `&&`,
  one relation, sums, products, one operator in front, members, and the things
  that stand for themselves.

  Each function reads from the front of a list of tokens. The bound that they
  carry counts nested calls; `parse` starts with one that no token list
  exhausts.
-/
import LayeredAccess.Script.Expr
import LayeredAccess.Script.Token

namespace LayeredAccess.Script

/-- Why a text is no script. -/
inductive ParseError where
  /-- The text breaks the grammar. -/
  | grammar
  /-- A literal has no value: this stops the interpreter itself. -/
  | crash
  deriving DecidableEq, Inhabited, Repr

namespace Parser

def fail {α : Type} : Except ParseError α := .error .grammar

/-- Can a token follow a complete operand? -/
def canFollow : List Token → Bool
  | [] => true
  | .sign s :: _ => !(["(", "!", "!!", "--"].contains s)
  | _ => false

def relation? : String → Option BinaryOp
  | "<" => some .lt
  | "<=" => some .le
  | ">" => some .gt
  | ">=" => some .ge
  | "==" => some .eq
  | "!=" => some .ne
  | "in" => some .mem
  | _ => none

def sumOp? : String → Option BinaryOp
  | "+" => some .add
  | "-" => some .sub
  | _ => none

def productOp? : String → Option BinaryOp
  | "*" => some .mul
  | "/" => some .div
  | "%" => some .rem
  | _ => none

def unaryOp? : String → Option UnaryOp
  | "!" => some .not
  | "!!" => some .notNot
  | "-" => some .minus
  | "--" => some .minusMinus
  | _ => none

mutual

/-- A conditional: its branches nest to the right. -/
def readExpr : Nat → List Token → Except ParseError (Expr × List Token)
  | 0, _ => fail
  | n + 1, ts => do
    let (test, ts) ← readOr n ts
    match ts with
    | .sign "?" :: ts =>
      match ← readOr n ts with
      | (yes, .sign ":" :: ts) =>
        let (no, ts) ← readExpr n ts
        return (.conditional test yes no, ts)
      | _ => fail
    | ts => return (test, ts)

def readOr : Nat → List Token → Except ParseError (Expr × List Token)
  | 0, _ => fail
  | n + 1, ts => do
    let (e, ts) ← readAnd n ts
    readOrTail n e ts

def readOrTail : Nat → Expr → List Token → Except ParseError (Expr × List Token)
  | n + 1, left, .sign "||" :: ts => do
    let (right, ts) ← readAnd n ts
    readOrTail n (.or left right) ts
  | _, left, ts => .ok (left, ts)

def readAnd : Nat → List Token → Except ParseError (Expr × List Token)
  | 0, _ => fail
  | n + 1, ts => do
    let (e, ts) ← readRelation n ts
    readAndTail n e ts

def readAndTail : Nat → Expr → List Token → Except ParseError (Expr × List Token)
  | n + 1, left, .sign "&&" :: ts => do
    let (right, ts) ← readRelation n ts
    readAndTail n (.and left right) ts
  | _, left, ts => .ok (left, ts)

/-- At most one relation: relations do not chain. -/
def readRelation : Nat → List Token → Except ParseError (Expr × List Token)
  | 0, _ => fail
  | n + 1, ts => do
    let (left, ts) ← readSum n ts
    match ts with
    | .sign s :: rest =>
      match relation? s with
      | some op =>
        let (right, ts) ← readSum n rest
        return (.binary op left right, ts)
      | none => return (left, ts)
    | ts => return (left, ts)

def readSum : Nat → List Token → Except ParseError (Expr × List Token)
  | 0, _ => fail
  | n + 1, ts => do
    let (e, ts) ← readProduct n ts
    readSumTail n e ts

def readSumTail : Nat → Expr → List Token → Except ParseError (Expr × List Token)
  | n + 1, left, .sign s :: ts =>
    match sumOp? s with
    | some op => do
      let (right, ts) ← readProduct n ts
      readSumTail n (.binary op left right) ts
    | none => .ok (left, .sign s :: ts)
  | _, left, ts => .ok (left, ts)

def readProduct : Nat → List Token → Except ParseError (Expr × List Token)
  | 0, _ => fail
  | n + 1, ts => do
    let (e, ts) ← readUnary n ts
    readProductTail n e ts

def readProductTail : Nat → Expr → List Token → Except ParseError (Expr × List Token)
  | n + 1, left, .sign s :: ts =>
    match productOp? s with
    | some op => do
      let (right, ts) ← readUnary n ts
      readProductTail n (.binary op left right) ts
    | none => .ok (left, .sign s :: ts)
  | _, left, ts => .ok (left, ts)

/-- At most one operator in front. -/
def readUnary : Nat → List Token → Except ParseError (Expr × List Token)
  | 0, _ => fail
  | n + 1, ts =>
    let plain : Except ParseError (Expr × List Token) := do
      let (e, ts) ← readPrimary n ts
      readMembers n e ts
    match ts with
    | .sign s :: rest =>
      match unaryOp? s with
      | some op => do
        let (e, ts) ← readPrimary n rest
        let (e, ts) ← readMembers n e ts
        return (.unary op e, ts)
      | none => plain
    | _ => plain

/-- Whatever may stand behind an operand to pick something out of it. -/
def readMembers : Nat → Expr → List Token → Except ParseError (Expr × List Token)
  | n + 1, e, .sign "." :: .name s :: .sign "(" :: ts => do
    let (args, ts) ← readItems n ")" ts
    readMembers n (.method e s args) ts
  | n + 1, e, .sign "." :: .name s :: ts => readMembers n (.member e s) ts
  | n + 1, e, .sign "[" :: ts => do
    match ← readExpr n ts with
    | (i, .sign "]" :: ts) => readMembers n (.index e i) ts
    | _ => fail
  | n + 1, e, .sign "\x7b" :: ts => do
    let ts ← readFields n ts
    readMembers n (.construct e) ts
  | _, _, .sign "." :: _ => fail
  | _, e, ts => .ok (e, ts)

/-- Names, calls, literals, lists, maps and whatever stands in parentheses. -/
def readPrimary : Nat → List Token → Except ParseError (Expr × List Token)
  | n + 1, .sign "." :: .name s :: ts => readName n s ts
  | n + 1, .name s :: ts => readName n s ts
  | _, .literal (some v) :: ts => .ok (.literal v, ts)
  | _, .literal none :: ts => .error (if canFollow ts then .crash else .grammar)
  | n + 1, .sign "(" :: ts => do
    match ← readExpr n ts with
    | (e, .sign ")" :: ts) => return (e, ts)
    | _ => fail
  | n + 1, .sign "[" :: ts => do
    let (items, ts) ← readItems n "]" ts
    return (.list items, ts)
  | n + 1, .sign "\x7b" :: ts => do
    let (entries, ts) ← readEntries n ts
    return (.map entries, ts)
  | _, _ => fail

/-- A variable, or a call if arguments follow. -/
def readName : Nat → String → List Token → Except ParseError (Expr × List Token)
  | n + 1, s, .sign "(" :: ts => do
    let (args, ts) ← readItems n ")" ts
    return (.call s args, ts)
  | _, s, ts => .ok (.variable s, ts)

/-- Expressions between commas up to a closing bracket; a comma may stand behind the last. -/
def readItems : Nat → String → List Token → Except ParseError (List Expr × List Token)
  | 0, _, _ => fail
  | n + 1, stop, ts =>
    match ts with
    | .sign s :: rest => if s = stop then .ok ([], rest) else readItem n stop (.sign s :: rest)
    | ts => readItem n stop ts

/-- One expression, and the others behind it. -/
def readItem : Nat → String → List Token → Except ParseError (List Expr × List Token)
  | 0, _, _ => fail
  | n + 1, stop, ts => do
    match ← readExpr n ts with
    | (e, .sign "," :: ts) =>
      let (rest, ts) ← readItems n stop ts
      return (e :: rest, ts)
    | (e, .sign s :: ts) => if s = stop then return ([e], ts) else fail
    | _ => fail

/-- The entries of a map up to the closing brace. -/
def readEntries : Nat → List Token → Except ParseError (Entries × List Token)
  | _, .sign "\x7d" :: ts => .ok (.nil, ts)
  | 0, _ => fail
  | n + 1, ts => do
    match ← readExpr n ts with
    | (k, .sign ":" :: ts) =>
      match ← readExpr n ts with
      | (v, .sign "," :: ts) =>
        let (rest, ts) ← readEntries n ts
        return (.cons k v rest, ts)
      | (v, .sign "\x7d" :: ts) => return (.cons k v .nil, ts)
      | _ => fail
    | _ => fail

/-- The fields of a construction up to the closing brace; what they hold is not kept. -/
def readFields : Nat → List Token → Except ParseError (List Token)
  | _, .sign "\x7d" :: ts => .ok ts
  | n + 1, .name _ :: .sign ":" :: ts => do
    match ← readExpr n ts with
    | (_, .sign "," :: ts) => readFields n ts
    | (_, .sign "\x7d" :: ts) => return ts
    | _ => fail
  | _, _ => fail

end

/-- How many calls nest at most between one token and the next. -/
def callsPerToken : Nat := 16

end Parser

/-- Reads a script. -/
def parse (text : String) : Except ParseError Expr := do
  let ts := tokens text.toList
  match ← Parser.readExpr (Parser.callsPerToken * (ts.length + 1)) ts with
  | (e, []) => return e
  | _ => throw .grammar

end LayeredAccess.Script
