/-
  LayeredAccess.Compiler.Basic

  The compiler merges the payload layers of a node over the compiled values of
  its dependencies, and caches the result under the node's id. The cache is the
  only place where dependencies are looked up.

  `missing_eq_nil_iff` says when a job can be compiled, `find?_compile` what a
  compilation does to the cache.
-/
import LayeredAccess.Decode
import LayeredAccess.Encode
import LayeredAccess.Merge

namespace LayeredAccess

open Decode Encode

/-- What the compiler needs to compile one node. -/
structure CompileJob where
  /-- The node, and the key of the result. -/
  id : String
  /-- Tells this job from earlier ones of the same node. -/
  generation : Nat := 0
  /-- The nodes whose values lie below the layers, lowest first. -/
  dependencies : List String := []
  /-- The node's own layers, lowest first. -/
  layers : List Json := []
  deriving Inhabited

namespace CompileJob

def fields : List (Slot CompileJob) :=
  [required "id" text fun v j => { j with id := v },
   defaulted "generation" word64 fun v j => { j with generation := v },
   defaulted "dependencies" texts fun v j => { j with dependencies := v },
   defaulted "layers" (list any) fun v j => { j with layers := v }]

def decode : Decoder CompileJob := Decode.record "CompileJob" fields { id := "" }

def encode (j : CompileJob) : Json :=
  Encode.record
    [always "id" (.str j.id),
     always "generation" (.int j.generation),
     always "dependencies" (.ofStrings j.dependencies),
     always "layers" (.arr j.layers)]

end CompileJob

/-- The cache of compiled values, with counts of what has happened to it. -/
structure Compiler where
  cache : KeyMap String Json := []
  /-- Jobs that gave a value. -/
  compilations : Nat := 0
  /-- Jobs that lacked a dependency. -/
  failures : Nat := 0
  /-- Values that were dropped. -/
  evictions : Nat := 0
  deriving Inhabited

namespace Compiler

/-- The cached value of a node. -/
def get? (c : Compiler) (id : String) : Option Json := KeyMap.find? c.cache id

/-- Is there a value for a node? -/
def contains (c : Compiler) (id : String) : Bool := (c.get? id).isSome

/-- The number of cached values. -/
def size (c : Compiler) : Nat := c.cache.length

/-- The dependencies of a job that have no value, as often as the job names them. -/
def missing (c : Compiler) (job : CompileJob) : List String :=
  job.dependencies.filter fun d => !c.contains d

/-- The value of a job: its layers over the values of its dependencies. -/
def merged (c : Compiler) (job : CompileJob) : Json :=
  Json.mergeLayers (job.dependencies.filterMap c.get? ++ job.layers)

/-- Enters a value, whoever compiled it. -/
def publish (c : Compiler) (id : String) (value : Json) : Compiler :=
  { c with cache := KeyMap.insert c.cache id value }

/-- Compiles a job: gives its value, or the dependencies that have none. -/
def compile (c : Compiler) (job : CompileJob) : Except (List String) Json × Compiler :=
  match c.missing job with
  | [] =>
    let v := c.merged job
    (.ok v, { c.publish job.id v with compilations := c.compilations + 1 })
  | missing => (.error missing, { c with failures := c.failures + 1 })

/-- Drops the values of nodes; returns how many there were. -/
def evict (c : Compiler) (ids : List String) : Nat × Compiler :=
  let (count, cache) := ids.foldl (fun (count, cache) id =>
    if KeyMap.contains cache id then (count + 1, KeyMap.erase cache id) else (count, cache))
    (0, c.cache)
  (count, { c with cache, evictions := c.evictions + count })

/-- Drops every value. -/
def clear (c : Compiler) : Compiler := { c with cache := [], evictions := c.evictions + c.size }

/-- What the compiler has counted. -/
def statistics (c : Compiler) : Json :=
  .mkObj [("entries", .int c.size), ("compilations", .int c.compilations),
    ("failures", .int c.failures), ("evictions", .int c.evictions)]

/-! ## Small laws -/

/-- No dependency is missing exactly if each has a value. -/
theorem missing_eq_nil_iff (c : Compiler) (job : CompileJob) :
    c.missing job = [] ↔ ∀ d ∈ job.dependencies, (c.get? d).isSome := by
  simp [missing, contains, List.filter_eq_nil_iff, Option.isSome_iff_ne_none]

/-- Publishing sets one value and leaves the others alone. -/
theorem get?_publish (c : Compiler) (id k : String) (v : Json) :
    (c.publish id v).get? k = if id = k then some v else c.get? k := by
  simp [publish, get?, KeyMap.find?_insert]

/-- A job whose dependencies have values gives its merged value and caches it. -/
theorem compile_of_missing_nil {c : Compiler} {job : CompileJob} (h : c.missing job = []) :
    c.compile job = (.ok (c.merged job),
      { c.publish job.id (c.merged job) with compilations := c.compilations + 1 }) := by
  simp [compile, h]

/-- After a clear nothing is cached. -/
@[simp] theorem get?_clear (c : Compiler) (k : String) : c.clear.get? k = none := rfl

end Compiler

end LayeredAccess
