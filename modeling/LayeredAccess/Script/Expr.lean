/-
  LayeredAccess.Script.Expr

  Scripts as trees. A script is one expression over the variables that it is
  given.
-/
import LayeredAccess.Script.Value

namespace LayeredAccess.Script

/-- The operators in front of an operand. -/
inductive UnaryOp where
  | not
  | notNot
  | minus
  | minusMinus
  deriving DecidableEq, Inhabited, Repr

/-- The operators between two operands that both are evaluated first. -/
inductive BinaryOp where
  | add
  | sub
  | mul
  | div
  | rem
  | lt
  | le
  | gt
  | ge
  | eq
  | ne
  | mem
  deriving DecidableEq, Inhabited, Repr

mutual

/-- An expression. -/
inductive Expr where
  | literal (v : Value)
  | variable (name : String)
  | unary (op : UnaryOp) (e : Expr)
  | binary (op : BinaryOp) (a b : Expr)
  | and (a b : Expr)
  | or (a b : Expr)
  | conditional (test yes no : Expr)
  | list (items : List Expr)
  | map (entries : Entries)
  /-- What a value has under a name. -/
  | member (e : Expr) (name : String)
  | index (e i : Expr)
  /-- A value with fields in braces behind it; there is no such thing at run time. -/
  | construct (e : Expr)
  | call (name : String) (args : List Expr)
  /-- A call of a function on a value. -/
  | method (target : Expr) (name : String) (args : List Expr)

/-- The entries of a map. -/
inductive Entries where
  | nil
  | cons (key value : Expr) (rest : Entries)

end

instance : Inhabited Expr := ⟨.literal .null⟩

end LayeredAccess.Script
