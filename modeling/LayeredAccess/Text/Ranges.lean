/-
  LayeredAccess.Text.Ranges

  Sets of characters as lists of closed ranges of code points. The operations
  give lists in order, without overlaps and without neighbours that touch.

  A written set is a list of ranges in hexadecimal digits with blanks between
  them: `41-5A` is a range, `61` is one code point, and `100-136/2` is every
  second code point from 100 to 136.
-/

namespace LayeredAccess.Text

/-- Closed ranges of code points. -/
abbrev Ranges := List (Nat × Nat)

namespace Ranges

/-- Does a code point lie in one of the ranges? -/
def contains (rs : Ranges) (n : Nat) : Bool := rs.any fun r => r.1 ≤ n && n ≤ r.2

theorem contains_iff (rs : Ranges) (n : Nat) :
    rs.contains n = true ↔ ∃ r ∈ rs, r.1 ≤ n ∧ n ≤ r.2 := by
  simp [contains]

/-! ## Operations -/

/-- The largest code point. -/
def lastCode : Nat := 0x10FFFF

/-- Joins ranges in order of their starts with the range ahead of them where they touch it. -/
def join (current : Nat × Nat) : Ranges → Ranges
  | [] => [current]
  | r :: rest =>
    if r.1 ≤ current.2 + 1 then join (current.1, max current.2 r.2) rest
    else current :: join r rest

/-- The ranges in order and joined. -/
def sorted (rs : Ranges) : Ranges :=
  match rs.mergeSort fun a b => a.1 ≤ b.1 with
  | [] => []
  | r :: rest => join r rest

/-- What lies in one of two sets. -/
def union (a b : Ranges) : Ranges := sorted (a ++ b)

/-- The gap between two code points, if there is a character in it. No character has a code point
from D800 to DFFF. -/
def gap (first last : Nat) : Ranges :=
  let first := if 0xD800 ≤ first && first < 0xE000 then 0xE000 else first
  let last := if 0xD800 ≤ last && last < 0xE000 then 0xD7FF else last
  if first ≤ last then [(first, last)] else []

/-- The gaps from a code point on in front of ranges in order, and the one behind them. -/
def gapsFrom (next : Nat) : Ranges → Ranges
  | [] => if next ≤ lastCode then gap next lastCode else []
  | r :: rest => (if next < r.1 then gap next (r.1 - 1) else []) ++ gapsFrom (r.2 + 1) rest

/-- All characters outside of a set. -/
def compl (rs : Ranges) : Ranges := gapsFrom 0 (sorted rs)

/-- What lies in both of two sets. -/
def inter (a b : Ranges) : Ranges := compl (union (compl a) (compl b))

/-- What lies in the first set and not in the second. -/
def diff (a b : Ranges) : Ranges := inter a (compl b)

/-- What lies in exactly one of two sets. -/
def symmDiff (a b : Ranges) : Ranges := diff (union a b) (inter a b)

/-- Every character. -/
def all : Ranges := compl []

/-! ## Written sets -/

/-- The number that hexadecimal digits in upper case stand for. -/
def hexNumber (ds : List Char) : Nat :=
  ds.foldl (fun n c => n * 16 + (if c.isDigit then c.toNat - 48 else c.toNat - 55)) 0

/-- The ranges of a written range: a single one, or one for each code point of a stride. -/
def ofWord (cs : List Char) : Ranges :=
  let first := hexNumber (cs.takeWhile (· ≠ '-'))
  match cs.dropWhile (· ≠ '-') with
  | [] => [(first, first)]
  | _ :: rest =>
    let last := hexNumber (rest.takeWhile (· ≠ '/'))
    match rest.dropWhile (· ≠ '/') with
    | [] => [(first, last)]
    | _ :: stride =>
      let stride := hexNumber stride
      (List.range ((last - first) / stride + 1)).map fun i =>
        (first + i * stride, first + i * stride)

/-- Reads a written set, which may stretch over several texts. -/
def ofLines (texts : List String) : Ranges :=
  sorted (texts.flatMap fun s => (s.splitOn " ").flatMap fun w => ofWord w.toList)

end Ranges

end LayeredAccess.Text
