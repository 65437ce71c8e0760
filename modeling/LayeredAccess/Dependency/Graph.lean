/-
  LayeredAccess.Dependency.Graph

  Which node depends on which, and the check that keeps the relation free of
  cycles. The check walks the dependencies depth first. Every node it enters
  is taken off the list of unexplored ones, so it is entered once; a
  dependency that lies on the current path closes a cycle.
-/
import LayeredAccess.Error

namespace LayeredAccess

/-- Why a node does not fit into a graph. -/
inductive GraphError where
  /-- A walk along dependencies that ends where it starts. -/
  | circular (cycle : List String)
  /-- A dependency is listed twice. -/
  | duplicate (node dependency : String)
  /-- The node has no proper key. -/
  | invalidNode (reason : String)
  deriving DecidableEq, Inhabited, Repr

namespace GraphError

/-- The short name of an error. -/
def code : GraphError → String
  | circular _ => "circular"
  | duplicate _ _ => "duplicate"
  | invalidNode _ => "invalid_node"

/-- A walk as messages show it. -/
def walkText (walk : List String) : String := String.intercalate " -> " walk

/-- The text of an error. -/
def message : GraphError → String
  | circular cycle => "Circular dependency detected: " ++ walkText cycle
  | duplicate node dependency =>
    "Node [\"" ++ node ++ "\"] lists \"" ++ dependency ++ "\" more than once"
  | invalidNode reason => "Invalid node: " ++ reason

/-- The error as one of the engine. -/
def toEngineError : GraphError → EngineError
  | circular cycle => .cyclicDependency (walkText cycle)
  | e => .invalidDefinition e.message

end GraphError

/-- The dependencies of every node that has been entered. -/
structure DependencyGraph where
  edges : KeyMap String (List String) := []
  deriving DecidableEq, Inhabited, Repr

namespace DependencyGraph

/-- The dependencies of a node. -/
def dependencies? (g : DependencyGraph) (key : String) : Option (List String) :=
  KeyMap.find? g.edges key

def insert (g : DependencyGraph) (key : String) (dependencies : List String) : DependencyGraph :=
  ⟨KeyMap.insert g.edges key dependencies⟩

def erase (g : DependencyGraph) (key : String) : DependencyGraph := ⟨KeyMap.erase g.edges key⟩

def size (g : DependencyGraph) : Nat := g.edges.length

/-! ## The check -/

/-- A node on the current path, with the dependencies that remain to be looked at. -/
abbrev Frame := String × List String

/-- The first bad dependency in a list: one that is the node itself, or stands further ahead. -/
def badDependency? (key : String) (seen : List String) : List String → Option GraphError
  | [] => none
  | d :: rest =>
    if d = key then some (.circular [key, key])
    else if d ∈ seen then some (.duplicate key d)
    else badDependency? key (d :: seen) rest

/-- What can be said against a node without looking at any other. -/
def validate (key : String) (dependencies : List String) : Except GraphError Unit :=
  if key.isEmpty then .error (.invalidNode "key must not be empty")
  else
    match badDependency? key [] dependencies with
    | some e => .error e
    | none => .ok ()

/-! ## The walk -/

namespace Walk

/-- The number of nodes in a list, and of the dependencies that they list. -/
def extent (entries : List (String × List String)) : Nat :=
  entries.length + (entries.flatMap (·.2)).length

@[simp] theorem extent_nil : extent [] = 0 := rfl

@[simp] theorem extent_cons (node : String) (ds : List String)
    (rest : List (String × List String)) :
    extent ((node, ds) :: rest) = extent rest + ds.length + 1 := by
  simp only [extent, List.length_cons, List.flatMap_cons, List.length_append]
  omega

theorem extent_erase_le (m : KeyMap String (List String)) (k : String) :
    extent (KeyMap.erase m k) ≤ extent m := by
  induction m with
  | nil => exact Nat.le_refl _
  | cons e rest ih =>
    obtain ⟨key, ds⟩ := e
    rw [KeyMap.erase]
    split
    · rw [extent_cons]
      omega
    · rw [extent_cons, extent_cons]
      omega

/-- Entering a node takes it and its dependencies off what is unexplored. -/
theorem extent_erase_lt {m : KeyMap String (List String)} {k : String} {ds : List String}
    (h : KeyMap.find? m k = some ds) :
    extent (KeyMap.erase m k) + ds.length + 1 ≤ extent m := by
  induction m with
  | nil => simp at h
  | cons e rest ih =>
    obtain ⟨key, ds'⟩ := e
    rw [KeyMap.find?_cons] at h
    rw [KeyMap.erase]
    split at h
    · next hk =>
      have hle := extent_erase_le rest k
      rw [if_pos hk, extent_cons, Option.some.inj h]
      omega
    · next hk =>
      have hrest := ih h
      rw [if_neg hk, extent_cons, extent_cons]
      omega

end Walk

/-- Walks on from the top of the current path, which is given last node first. The result is a
walk that ends where it starts. -/
def findCycle? (unexplored : KeyMap String (List String)) (path : List Frame) :
    Option (List String) :=
  match path with
  | [] => none
  | (_, []) :: rest => findCycle? unexplored rest
  | (node, d :: ds) :: rest =>
    let nodes := node :: rest.map (·.1)
    if d ∈ nodes then some (d :: (nodes.takeWhile (· ≠ d)).reverse ++ [d])
    else
      match _h : KeyMap.find? unexplored d with
      | some below => findCycle? (KeyMap.erase unexplored d) ((d, below) :: (node, ds) :: rest)
      | none => findCycle? unexplored ((node, ds) :: rest)
-- Every step leaves fewer nodes and dependencies to look at.
termination_by Walk.extent unexplored + Walk.extent path
decreasing_by
  · simp only [Walk.extent_cons, List.length_nil]
    omega
  · have hlt := Walk.extent_erase_lt _h
    simp only [Walk.extent_cons, List.length_cons]
    omega
  · simp only [Walk.extent_cons, List.length_cons]
    omega

/-- Would the graph be free of cycles if the node had these dependencies? Dependencies that have
not been entered end the walk. -/
def check (g : DependencyGraph) (key : String) (dependencies : List String) :
    Except GraphError Unit := do
  validate key dependencies
  match findCycle? (KeyMap.erase g.edges key) [(key, dependencies)] with
  | some cycle => throw (.circular cycle)
  | none => return ()

end DependencyGraph

end LayeredAccess
