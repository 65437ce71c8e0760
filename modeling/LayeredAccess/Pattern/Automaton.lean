/-
  LayeredAccess.Pattern.Automaton

  Searching by an automaton over characters. Its nodes are numbered; a search
  follows all ways through them at once, so that its time grows with the length
  of the text times the number of nodes.
-/
import LayeredAccess.Pattern.Basic

namespace LayeredAccess.Pattern

/-- A node of an automaton. -/
inductive Node where
  /-- One character of a set, and the node behind it. -/
  | char (rs : Text.Ranges) (next : Nat)
  /-- A condition on the place, and the node behind it. -/
  | place (p : Place) (next : Nat)
  /-- Two ways on. -/
  | fork (a b : Nat)
  /-- The end of a match. -/
  | accept
  deriving Inhabited, Repr

/-- An automaton. -/
structure Automaton where
  nodes : Array Node
  /-- The node where matches start. -/
  start : Nat
  deriving Inhabited

namespace Automaton

/-! ## Building -/

/-- Adds a node; gives its number. -/
def push (n : Node) (nodes : Array Node) : Nat × Array Node := (nodes.size, nodes.push n)

/-- Puts what a step makes ahead of a node so many times. -/
def repeated (step : Nat → Array Node → Nat × Array Node) :
    Nat → Nat → Array Node → Nat × Array Node
  | 0, next, nodes => (next, nodes)
  | n + 1, next, nodes =>
    let (next, nodes) := step next nodes
    repeated step n next nodes

/-- Puts what a step makes ahead of a node up to so many times; every time it can be left out with
all that follows up to `behind`. -/
def optional (step : Nat → Array Node → Nat × Array Node) (behind : Nat) :
    Nat → Nat → Array Node → Nat × Array Node
  | 0, next, nodes => (next, nodes)
  | n + 1, next, nodes =>
    let (entry, nodes) := step next nodes
    let (next, nodes) := push (.fork entry behind) nodes
    optional step behind n next nodes

/-- Puts what a step makes ahead of a node any number of times. -/
def loop (step : Nat → Array Node → Nat × Array Node) (behind : Nat) (nodes : Array Node) :
    Nat × Array Node :=
  let (fork, nodes) := push (.fork behind behind) nodes
  let (entry, nodes) := step fork nodes
  (fork, nodes.setIfInBounds fork (.fork entry behind))

/-- Puts a text ahead of a node. -/
def literal (cs : List Char) (next : Nat) (nodes : Array Node) : Nat × Array Node :=
  cs.foldr (fun c (next, nodes) => push (.char [(c.toNat, c.toNat)] next) nodes) (next, nodes)

mutual

/-- Puts the nodes of a pattern ahead of a node; gives the first of them. -/
def build : Pattern → Nat → Array Node → Nat × Array Node
  | .empty, next, nodes => (next, nodes)
  | .literal cs, next, nodes => literal cs next nodes
  | .set rs, next, nodes => push (.char rs next) nodes
  | .place p, next, nodes => push (.place p next) nodes
  | .count p least most _, next, nodes =>
    let (next, nodes) := match most with
      | none => loop (build p) next nodes
      | some n => optional (build p) next (n - least) next nodes
    repeated (build p) least next nodes
  | .group _ p, next, nodes => build p next nodes
  | .concat ps, next, nodes => buildRow ps next nodes
  | .alternative ps, next, nodes => buildChoices ps next nodes

/-- Puts the nodes of patterns in a row ahead of a node. -/
def buildRow : List Pattern → Nat → Array Node → Nat × Array Node
  | [], next, nodes => (next, nodes)
  | p :: ps, next, nodes =>
    let (next, nodes) := buildRow ps next nodes
    build p next nodes

/-- Puts the nodes of choices ahead of a node; without a choice there is no way on. -/
def buildChoices : List Pattern → Nat → Array Node → Nat × Array Node
  | [], next, nodes => push (.char [] next) nodes
  | p :: ps, next, nodes =>
    let (rest, nodes) := buildChoices ps next nodes
    let (entry, nodes) := build p next nodes
    push (.fork entry rest) nodes

end

/-- The automaton for a pattern. -/
def ofPattern (p : Pattern) : Automaton :=
  let (start, nodes) := build p 0 #[.accept]
  ⟨nodes, start⟩

/-! ## Searching -/

/-- Is a code point in ranges that are in order? -/
def holds (n : Nat) : Text.Ranges → Bool
  | [] => false
  | r :: rest => if n < r.1 then false else n ≤ r.2 || holds n rest

/-- How far the ways at one place of the text have been followed. -/
structure Front where
  /-- The last place, by number, at which each node was reached. -/
  seen : Array Nat
  /-- The ways over the next character: its set, and the node behind it. -/
  steps : List (Text.Ranges × Nat) := []
  /-- Has a match ended? -/
  accepted : Bool := false

/-- Follows ways as far as they go without a character; every node counts once. The bound is on the
number of nodes that are looked at. -/
def follow (a : Automaton) (place : Nat) (before after : Option Char) :
    Nat → List Nat → Front → Front
  | 0, _, f => f
  | _, [], f => f
  | bound + 1, i :: pending, f =>
    if f.seen[i]?.getD place = place then follow a place before after bound pending f
    else
      let f := { f with seen := f.seen.setIfInBounds i place }
      match a.nodes[i]? with
      | some (.char rs next) =>
        follow a place before after bound pending { f with steps := (rs, next) :: f.steps }
      | some (.place p next) =>
        let pending := if p.holds before after then next :: pending else pending
        follow a place before after bound pending f
      | some (.fork x y) => follow a place before after bound (x :: y :: pending) f
      | some .accept => { f with accepted := true }
      | none => f

/-- Follows ways from some nodes and from the start. -/
def followAll (a : Automaton) (place : Nat) (before after : Option Char) (pending : List Nat)
    (seen : Array Nat) : Front :=
  let pending := a.start :: pending
  follow a place before after (pending.length + 2 * a.nodes.size) pending { seen }

/-- Searches from a place of the text on, where ways lead to some nodes. -/
def search (a : Automaton) (place : Nat) (before : Option Char) (pending : List Nat)
    (seen : Array Nat) : List Char → Bool
  | [] => (a.followAll place before none pending seen).accepted
  | c :: rest =>
    let f := a.followAll place before (some c) pending seen
    if f.accepted then true
    else
      let pending := f.steps.filterMap fun s => if holds c.toNat s.1 then some s.2 else none
      search a (place + 1) (some c) pending f.seen rest

/-- Does some stretch of a text match? -/
def isMatch (a : Automaton) (text : String) : Bool :=
  a.search 1 none [] (Array.replicate a.nodes.size 0) text.toList

end Automaton

end LayeredAccess.Pattern
