/-
  LayeredAccess.Flags

  The state of an entitlement as a set of flags, kept in the bits of a byte.
  Bits without a name survive storing and reading and are ignored elsewhere.
-/

namespace LayeredAccess

/-- A set of state flags. -/
structure Flags where
  bits : UInt8
  deriving DecidableEq, Inhabited, Repr

namespace Flags

/-- No flag. -/
def empty : Flags := ⟨0⟩

/-- The entitlement takes part. -/
def active : Flags := ⟨1⟩

/-- A compiled value is held. -/
def compiled : Flags := ⟨2⟩

/-- The compiled value has been verified. -/
def valid : Flags := ⟨4⟩

/-- The directory is not told of the entitlement. -/
def implicit : Flags := ⟨8⟩

/-- Updates are forbidden. -/
def sealed : Flags := ⟨16⟩

/-- Deletion is forbidden. -/
def pinned : Flags := ⟨32⟩

/-- The flags with their names, in the order of their bits. -/
def named : List (Flags × String) :=
  [(active, "ACTIVE"), (compiled, "COMPILED"), (valid, "VALID"), (implicit, "IMPLICIT"),
   (sealed, "SEALED"), (pinned, "PINNED")]

/-! ## Set operations -/

def union (a b : Flags) : Flags := ⟨a.bits ||| b.bits⟩

def inter (a b : Flags) : Flags := ⟨a.bits &&& b.bits⟩

/-- The bits that have a name. -/
def truncate (bits : UInt8) : Flags := ⟨bits &&& 0x3F⟩

/-- The named flags that are not in the set. -/
def compl (a : Flags) : Flags := truncate (~~~a.bits)

/-- The set with the flags of another added. -/
def insert (a b : Flags) : Flags := a.union b

/-- The set with the flags of another taken out. -/
def remove (a b : Flags) : Flags := ⟨a.bits &&& ~~~b.bits⟩

/-- Are all flags of the other set in this one? -/
def contains (a b : Flags) : Bool := a.bits &&& b.bits == b.bits

/-- Have the sets a flag in common? -/
def intersects (a b : Flags) : Bool := a.bits &&& b.bits != 0

def isEmpty (a : Flags) : Bool := a.bits == 0

instance : OrOp Flags := ⟨union⟩

instance : AndOp Flags := ⟨inter⟩

/-! ## Groups -/

/-- What a dependency needs before others may build on it. -/
def dependable : Flags := active ||| valid

/-- The flags that only compiling and verifying set. -/
def derived : Flags := compiled ||| valid

/-- The flags that a definition may start with. -/
def initial : Flags := implicit ||| sealed ||| pinned

/-- The flags that a customization sets and clears. -/
def customizable : Flags := active ||| implicit ||| sealed ||| pinned

/-- The names of the flags in the set. -/
def names (a : Flags) : List String := (named.filter fun f => a.contains f.1).map (·.2)

/-- The set as it appears in diagnostics. -/
def describe (a : Flags) : String :=
  match a.names with
  | [] => "Flags(empty)"
  | names => "Flags(" ++ String.intercalate " | " names ++ ")"

end Flags

end LayeredAccess
