/-
  LayeredAccess.Pattern.Footprint

  The size of the byte automata for a pattern. A pattern has two of them, one
  that reads forwards and remembers groups, and one that reads backwards; neither
  may exceed `sizeLimit`. `fits` tells whether both stay within it.

  States are counted in the order in which they are made. Sets of characters
  beyond ASCII become automata over bytes whose equal ends are shared as far as
  a table of fixed size knows them; which of them the table still knows depends
  on the numbers of the states.
-/
import LayeredAccess.Pattern.Basic

namespace LayeredAccess.Pattern

/-- The largest automaton in bytes. -/
def sizeLimit : Nat := 10485760

/-! ## Counting -/

/-- An automaton so far. -/
structure Meter where
  /-- The number of states, and the number of the next one. -/
  states : Nat := 0
  /-- The bytes that states take beyond their fixed size. -/
  extra : Nat := 0
  deriving DecidableEq, Inhabited, Repr

namespace Meter

/-- The bytes that every state takes. -/
def stateSize : Nat := 32

/-- The bytes of one choice of a state. -/
def choiceSize : Nat := 4

/-- The bytes of one transition of a state that has several. -/
def transitionSize : Nat := 8

def size (m : Meter) : Nat := m.states * stateSize + m.extra

/-- Adds states with more bytes; nothing if the automaton becomes too large. -/
def add (m : Meter) (states extra : Nat) : Option Meter :=
  let m : Meter := ⟨m.states + states, m.extra + extra⟩
  if m.size ≤ sizeLimit then some m else none

end Meter

/-- Does something so many times. -/
def repeatedly (step : Meter → Option Meter) : Nat → Meter → Option Meter
  | 0, m => some m
  | n + 1, m =>
    match step m with
    | some m => repeatedly step n m
    | none => none

/-! ## Characters as bytes -/

/-- A range of bytes. -/
abbrev ByteRange := Nat × Nat

/-- The bytes of a code point. -/
def bytesOf (n : Nat) : List Nat :=
  if n < 0x80 then [n]
  else if n < 0x800 then [0xC0 + n / 0x40, 0x80 + n % 0x40]
  else if n < 0x10000 then [0xE0 + n / 0x1000, 0x80 + n / 0x40 % 0x40, 0x80 + n % 0x40]
  else
    [0xF0 + n / 0x40000, 0x80 + n / 0x1000 % 0x40, 0x80 + n / 0x40 % 0x40, 0x80 + n % 0x40]

/-- Where a range of code points has to be divided, if its bytes do not range one by one: the last
code point of the first half. -/
def divide? (first last : Nat) : Option Nat :=
  let sameLength := [0x7F, 0x7FF, 0xFFFF].find? fun m => first ≤ m && m < last
  match sameLength with
  | some m => some m
  | none =>
    if last ≤ 0x7F then none
    else
      [0x40, 0x1000, 0x40000].findSome? fun unit =>
        if first / unit = last / unit then none
        else if first % unit ≠ 0 then some (first / unit * unit + unit - 1)
        else if last % unit ≠ unit - 1 then some (last / unit * unit - 1)
        else none

/-- The ranges of bytes, one after the other, of the characters of a range that is divided so many
times at most. -/
def byteRangesWithin : Nat → Nat → Nat → List (List ByteRange)
  | 0, _, _ => []
  | bound + 1, first, last =>
    match divide? first last with
    | some m => byteRangesWithin bound first m ++ byteRangesWithin bound (m + 1) last
    | none => [(bytesOf first).zip (bytesOf last)]

/-- The ranges of bytes of the characters of some ranges. -/
def byteRanges (rs : Text.Ranges) : List (List ByteRange) :=
  rs.flatMap fun r =>
    let below := if r.1 < 0xD800 then byteRangesWithin 16 r.1 (min r.2 0xD7FF) else []
    let above := if 0xE000 ≤ r.2 then byteRangesWithin 16 (max r.1 0xE000) r.2 else []
    below ++ above

/-! ## Tables of states -/

/-- Mixes a number into a hash value. -/
def mix (hash : UInt64) (n : Nat) : UInt64 := (hash ^^^ n.toUInt64) * 1099511628211

/-- The hash value of no numbers. -/
def emptyHash : UInt64 := 14695981039346656037

/-! ### Forwards -/

/-- The transitions of a state: ranges of bytes, and the state behind each. -/
abbrev Transitions := List (ByteRange × Nat)

/-- The number of places in the table of states with transitions. -/
def forwardPlaces : Nat := 10000

def Transitions.hash (ts : Transitions) : UInt64 :=
  ts.foldl (fun h t => mix (mix (mix h t.1.1) t.1.2) t.2) emptyHash

/-- A state under construction: its transitions, last first, and a range of bytes whose end is not
known yet. -/
structure OpenState where
  done : Transitions := []
  last : Option ByteRange := none
  deriving Inhabited

/-- Ends the open range of a state. -/
def OpenState.finish (s : OpenState) (next : Nat) : Transitions :=
  match s.last with
  | some r => (r, next) :: s.done
  | none => s.done

/-- The states for a set of characters. -/
structure ForwardStates where
  meter : Meter
  /-- The finished states that are known. -/
  table : Array (Option (Transitions × Nat))
  /-- The open states on the way of the last bytes, deepest first. -/
  path : List OpenState

namespace ForwardStates

/-- The number of a finished state, which may be there already. -/
def close (f : ForwardStates) (transitions : Transitions) : Option (Nat × ForwardStates) :=
  match f with
  | ⟨meter, table, path⟩ =>
    let ts : Transitions := transitions.reverse
    let i := (ts.hash % forwardPlaces.toUInt64).toNat
    let known := match (table[i]?).join with
      | some (known, n) => if known == ts then some n else none
      | none => none
    match known with
    | some n => some (n, ⟨meter, table, path⟩)
    | none =>
      match meter.add 1 (Meter.transitionSize * ts.length) with
      | some m => some (meter.states, ⟨m, table.setIfInBounds i (some (ts, meter.states)), path⟩)
      | none => none

/-- Closes so many states from the end of the path; the last one leads to a state of a number. -/
def closeDown : Nat → Nat → ForwardStates → Option (Nat × ForwardStates)
  | 0, next, f => some (next, f)
  | n + 1, next, f =>
    match f.path with
    | s :: rest =>
      match close { f with path := rest } (s.finish next) with
      | some (next, f) => closeDown n next f
      | none => none
    | [] => some (next, f)

/-- The number of states at the front of the path that the bytes share. -/
def sharedFront : List OpenState → List ByteRange → Nat
  | s :: rest, r :: bytes => if s.last = some r then sharedFront rest bytes + 1 else 0
  | _, _ => 0

/-- Adds the bytes of some characters; `target` is the state behind all of them. -/
def enter (target : Nat) (f : ForwardStates) (bytes : List ByteRange) : Option ForwardStates :=
  let shared := sharedFront f.path.reverse bytes
  match closeDown (f.path.length - shared - 1) target f with
  | none => none
  | some (next, f) =>
    match f.path, bytes.drop shared with
    | s :: rest, r :: more =>
      let s : OpenState := ⟨s.finish next, some r⟩
      let opened := more.foldl (fun path r => ⟨[], some r⟩ :: path) (s :: rest)
      some { f with path := opened }
    | _, _ => some f

end ForwardStates

/-- The automaton for a set of characters, read forwards. -/
def forwardSet (rs : Text.Ranges) (m : Meter) : Option Meter := do
  let target := m.states
  let m ← m.add 1 0
  let start : ForwardStates := ⟨m, Array.replicate forwardPlaces none, [{}]⟩
  let f ← (byteRanges rs).foldlM (ForwardStates.enter target) start
  let (_, f) ← ForwardStates.closeDown f.path.length target f
  return f.meter

/-! ### Backwards -/

/-- The number of places in the table of states with one transition. -/
def backwardPlaces : Nat := 1000

/-- The automaton for the bytes of some characters, read backwards, with a table of the known
states by the state behind them and their range of bytes. -/
def backwardBytes : List ByteRange → Nat → Meter × Array (Option ((Nat × ByteRange) × Nat)) →
    Option (Meter × Array (Option ((Nat × ByteRange) × Nat)))
  | [], _, (m, table) => (m.add 0 Meter.choiceSize).map (·, table)
  | r :: rest, behind, (m, table) =>
    let key := (behind, r)
    let i := (mix (mix (mix emptyHash behind) r.1) r.2 % backwardPlaces.toUInt64).toNat
    let known := match (table[i]?).join with
      | some (k, n) => if k = key then some n else none
      | none => none
    match known with
    | some n => backwardBytes rest n (m, table)
    | none =>
      match m.add 1 0 with
      | some m' => backwardBytes rest m.states (m', table.setIfInBounds i (some (key, m.states)))
      | none => none

/-- The automaton for a set of characters, read backwards. -/
def backwardSet (rs : Text.Ranges) (m : Meter) : Option Meter := do
  let target := m.states + 1
  let m ← m.add 2 0
  let table := Array.replicate backwardPlaces none
  let (m, _) ← (byteRanges rs).foldlM (fun t bytes => backwardBytes bytes target t) (m, table)
  return m

/-! ## Choices between literals -/

/-- A tree of texts: for each stretch of choices without an end between them, the bytes that can
come next. An end is where one of the texts is complete. -/
inductive TextTree where
  | node (stretches : List (List (Nat × TextTree)))
  deriving Inhabited

namespace TextTree

/-- The tree of one text. -/
def ofBytes : List Nat → TextTree
  | [] => .node [[], []]
  | b :: rest => .node [[(b, ofBytes rest)]]

/-- Is nothing but an end in the tree? -/
def isLeaf : TextTree → Bool
  | .node stretches => stretches.all (·.isEmpty)

/-- Changes the tree behind a byte, or adds one. -/
def update (b : Nat) (fresh : TextTree) (change : TextTree → TextTree) :
    List (Nat × TextTree) → List (Nat × TextTree)
  | [] => [(b, fresh)]
  | (c, t) :: rest =>
    if c = b then (c, change t) :: rest else (c, t) :: update b fresh change rest

/-- Adds a text; its bytes belong to the last stretch. -/
def insert : List Nat → TextTree → TextTree
  | [], .node stretches =>
    if stretches.length > 1 && stretches.all (·.isEmpty) then .node stretches
    else .node (stretches ++ [[]])
  | b :: rest, .node stretches =>
    let last := stretches.getLast?.getD []
    .node (stretches.dropLast ++ [update b (ofBytes rest) (insert rest) last])

mutual

/-- The states of the tree, and their bytes beyond their fixed size. -/
def cost : TextTree → Nat × Nat
  | .node stretches =>
    let (states, extra, choices) := stretchesCost stretches
    (states + 1, extra + Meter.choiceSize * (choices + (stretches.length - 1)))

/-- The states of some stretches, their bytes beyond their fixed size, and how many have any. -/
def stretchesCost : List (List (Nat × TextTree)) → Nat × Nat × Nat
  | [] => (0, 0, 0)
  | stretch :: rest =>
    let (states, extra) := branchesCost stretch
    let (states', extra', choices) := stretchesCost rest
    match stretch with
    | [] => (states', extra', choices)
    | [_] => (states + states' + 1, extra + extra', choices + 1)
    | _ =>
      (states + states' + 1, extra + extra' + Meter.transitionSize * stretch.length, choices + 1)

/-- The states behind some bytes; where a text ends there is none. -/
def branchesCost : List (Nat × TextTree) → Nat × Nat
  | [] => (0, 0)
  | (_, t) :: rest =>
    let (states, extra) := if t.isLeaf then (0, 0) else t.cost
    let (states', extra') := branchesCost rest
    (states + states', extra + extra')

end

end TextTree

/-- The texts of patterns that all are literals. -/
def literals? (ps : List Pattern) : Option (List (List Char)) :=
  ps.mapM fun p => match p with
    | .literal cs => some cs
    | _ => none

/-- The automaton for a choice between literals. -/
def literalChoice (backwards : Bool) (texts : List (List Char)) (m : Meter) : Option Meter :=
  let enter (t : TextTree) (cs : List Char) : TextTree :=
    let bytes := cs.flatMap fun c => bytesOf c.toNat
    t.insert (if backwards then bytes.reverse else bytes)
  let tree := texts.foldl enter (.node [[]])
  let (states, extra) := tree.cost
  m.add (states + 1) extra

/-! ## Patterns -/

/-- The automaton for a set of characters. -/
def setFootprint (backwards : Bool) (rs : Text.Ranges) (m : Meter) : Option Meter :=
  if List.all rs fun r => r.2 < 128 then m.add 2 (Meter.transitionSize * rs.length)
  else if backwards then backwardSet rs m
  else forwardSet rs m

/-- A choice to leave out what `step` makes and all that follows. -/
def optionalStep (step : Meter → Option Meter) (m : Meter) : Option Meter := do
  (← step (← m.add 1 0)).add 0 (2 * Meter.choiceSize)

/-- The automaton for a repetition of what `step` makes; does every match of it have a character?
A state that leads on and back has a choice for either. -/
def countFootprint (step : Meter → Option Meter) (isLong : Bool) (least : Nat)
    (most : Option Nat) (m : Meter) : Option Meter :=
  match least, most with
  | 0, some 1 => do (← optionalStep step m).add 1 0
  | 0, none =>
    if isLong then optionalStep step m
    else do (← step m).add 3 (4 * Meter.choiceSize)
  | n, none => do (← repeatedly step n m).add 1 (2 * Meter.choiceSize)
  | n, some k =>
    if n = k then repeatedly step n m
    else do
      let m ← if n = 0 then m.add 1 0 else repeatedly step n m
      repeatedly (optionalStep step) (k - n) (← m.add 1 0)

mutual

/-- The automaton for a pattern behind what there is of it; only forwards it remembers groups. -/
def footprint (backwards : Bool) : Pattern → Meter → Option Meter
  | .empty, m => m.add 1 0
  | .literal cs, m => m.add (cs.flatMap fun c => bytesOf c.toNat).length 0
  | .set rs, m => setFootprint backwards rs m
  | .place _, m => m.add 1 0
  | .count p least most _, m =>
    countFootprint (footprint backwards p) (p.isLong.getD false) least most m
  | .group _ p, m =>
    if backwards then footprint backwards p m
    else do (← footprint backwards p (← m.add 1 0)).add 1 0
  | .concat ps, m => rowFootprint backwards ps m
  | .alternative ps, m =>
    match literals? ps with
    | some texts => literalChoice backwards texts m
    | none => choicesFootprint backwards 0 ps m

/-- The automata for a row of patterns, made from the side where reading begins. -/
def rowFootprint (backwards : Bool) : List Pattern → Meter → Option Meter
  | [], m => some m
  | p :: ps, m =>
    if backwards then do footprint backwards p (← rowFootprint backwards ps m)
    else do rowFootprint backwards ps (← footprint backwards p m)

/-- The automata for choices behind so many others, and a state ahead of all choices and one behind
them, which come after the first two. -/
def choicesFootprint (backwards : Bool) (done : Nat) : List Pattern → Meter → Option Meter
  | [], m => some m
  | p :: ps, m => do
    let m ← footprint backwards p m
    let m ← m.add (if done = 1 then 2 else 0) Meter.choiceSize
    choicesFootprint backwards (done + 1) ps m

end

/-! ## Whole patterns -/

mutual

/-- Does every match start at the start of the text, as far as places in front show? -/
def startsAtStart : Pattern → Bool
  | .place p => p = .textStart
  | .group _ p => startsAtStart p
  | .count p least _ _ => 0 < least && startsAtStart p
  | .concat ps => rowStartsAtStart ps
  | .alternative ps => allStartAtStart ps
  | _ => false

/-- Does every match of a row start at the start of the text? -/
def rowStartsAtStart : List Pattern → Bool
  | [] => false
  | p :: ps => startsAtStart p || (p.isEmptyOnly && rowStartsAtStart ps)

/-- Does every match of some patterns start at the start of the text? -/
def allStartAtStart : List Pattern → Bool
  | [] => true
  | p :: ps => startsAtStart p && allStartAtStart ps

end

mutual

/-- Does every match end at the end of the text, as far as places behind show? -/
def endsAtEnd : Pattern → Bool
  | .place p => p = .textEnd
  | .group _ p => endsAtEnd p
  | .count p least _ _ => 0 < least && endsAtEnd p
  | .concat ps => rowEndsAtEnd ps
  | .alternative ps => allEndAtEnd ps
  | _ => false

/-- Does every match of a row end at the end of the text? -/
def rowEndsAtEnd : List Pattern → Bool
  | [] => false
  | p :: ps => rowEndsAtEnd ps || (areEmptyOnly ps && endsAtEnd p)

/-- Does every match of some patterns end at the end of the text? -/
def allEndAtEnd : List Pattern → Bool
  | [] => true
  | p :: ps => endsAtEnd p && allEndAtEnd ps

end

/-- The automaton for searching a text, from any place in it unless matches are tied to the side
where reading begins. -/
def searchFootprint (backwards : Bool) (p : Pattern) : Option Meter := do
  let tied := if backwards then p.endsAtEnd else p.startsAtStart
  let m : Meter := {}
  let m ← if tied then m.add 1 0 else m.add 3 (Meter.transitionSize + 2 * Meter.choiceSize)
  let m ← if backwards then p.footprint backwards m
    else (Pattern.group 0 p).footprint backwards m
  m.add 1 0

/-- Do the automata for a pattern stay within the limit? -/
def fits (p : Pattern) : Bool :=
  (p.searchFootprint false).isSome && (p.searchFootprint true).isSome

end LayeredAccess.Pattern
