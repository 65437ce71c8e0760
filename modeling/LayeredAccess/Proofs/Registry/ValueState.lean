/-
  LayeredAccess.Proofs.Registry.ValueState

  What a registry amounts to for those who only care for values: of each node
  the parts of its value, whether it is held and whether it is ready; what is
  due to be compiled; the generations and the outbox.

  Everything that an operation does is a chain of moves between outlooks. What
  is kept by every move is therefore kept by every operation, whatever cascade
  it sets off; see `Kept`.
-/
import LayeredAccess.Proofs.Registry.Steady

namespace LayeredAccess

/-- What matters of a node for its value. -/
structure Outline where
  dependencies : List String
  layers : List Json
  compiled : Option Json
  ready : Bool

def NodeView.outline (v : NodeView) : Outline where
  dependencies := v.inputs.dependencies
  layers := v.inputs.layers
  compiled := v.compiled
  ready := decide v.Ready

/-- A registry with the nodes that are due to be compiled. -/
structure Outlook where
  outline? : String → Option Outline
  due : List String
  deferred : Bool
  generation : Nat
  generations : String → Option Nat
  outbox : List CompilerCommand

namespace Registry

variable {ν : Type} [Node ν] [NodeKind ν]

def outlook (r : Registry ν) (due : List String) : Outlook where
  outline? k := (r.view? k).map NodeView.outline
  due := due
  deferred := r.isDeferred
  generation := r.generation
  generations := KeyMap.find? r.generations
  outbox := r.outbox

end Registry

namespace Outlook

def value? (o : Outlook) (k : String) : Option Json := (o.outline? k).bind (·.compiled)

/-- The value that a node is to have, going by the values of its dependencies. -/
def expected (o : Outlook) (l : Outline) : Json :=
  Json.mergeLayers (l.dependencies.filterMap o.value? ++ l.layers)

def set (o : Outlook) (k : String) (l : Option Outline) : Outlook :=
  { o with outline? := fun j => if j = k then l else o.outline? j }

/-- The last request for a node, whatever it was, does not count any more. -/
def supersede (o : Outlook) (k : String) : Outlook :=
  { o with
    generation := o.generation + 1
    generations := fun j => if j = k then some (o.generation + 1) else o.generations j }

/-- A node gets a value. -/
def arrive (o : Outlook) (k : String) (l : Outline) (x : Json) : Outlook :=
  (o.supersede k).set k (some { l with compiled := some x })

/-- The job of a node is queued. -/
def request (o : Outlook) (k : String) (l : Outline) : Outlook :=
  { o.supersede k with
    outbox := o.outbox.filter (fun c => !c.isCompileOf k) ++
      [.compile
        { id := k, generation := o.generation + 1, dependencies := l.dependencies
          layers := l.layers }] }

/-- A node takes its place without a value; the value that it had is evicted. -/
def lapse (o : Outlook) (k : String) (l : Outline) : Outlook :=
  { o.set k (some l) with
    outbox := o.outbox ++
      if (o.value? k).isSome = true ∧ o.deferred = true then [.evict [k]] else [] }

/-- A node is taken out, with its requests. -/
def remove (o : Outlook) (k : String) : Outlook :=
  { o.set k none with
    due := o.due.filter (· ≠ k)
    generations := fun j => if j = k then none else o.generations j
    outbox := o.outbox.filter (fun c => !c.isCompileOf k) ++
      if o.deferred = true then [.evict [k]] else [] }

/-- Every value and all readiness is dropped, and everything that can be compiled is due. -/
def reset (o : Outlook) (due : List String) : Outlook :=
  { o with
    outline? := fun k =>
      (o.outline? k).map fun l => { l with compiled := none, ready := decide (l.dependencies = []) }
    due := due
    outbox := if o.deferred = true then [.clear] else o.outbox }

/-! ### Queued jobs -/

section Queued

variable {o : Outlook} {k : String} {l : Outline} {job : CompileJob}

/-- A job that is queued after a request is the new one, or was queued before for another node. -/
theorem compile_mem_request :
    .compile job ∈ (o.request k l).outbox ↔
      (.compile job ∈ o.outbox ∧ job.id ≠ k) ∨
        job = { id := k, generation := o.generation + 1, dependencies := l.dependencies
                layers := l.layers } := by
  simp [request, CompilerCommand.isCompileOf]

theorem compile_mem_lapse : .compile job ∈ (o.lapse k l).outbox ↔ .compile job ∈ o.outbox := by
  rw [lapse, List.mem_append]
  split <;> simp

/-- The jobs of a node that is taken out go with it. -/
theorem compile_mem_remove :
    .compile job ∈ (o.remove k).outbox ↔ .compile job ∈ o.outbox ∧ job.id ≠ k := by
  rw [remove, List.mem_append, List.mem_filter]
  split <;> simp [CompilerCommand.isCompileOf]

/-- A reset leaves no job if it has the cache cleared. -/
theorem compile_mem_reset {due : List String} :
    .compile job ∈ (o.reset due).outbox ↔ .compile job ∈ o.outbox ∧ o.deferred = false := by
  rw [reset]
  cases o.deferred <;> simp

end Queued

/-- Nobody who depends on a node is ready, or holds a value. -/
def Unused (o : Outlook) (k : String) : Prop :=
  ∀ j l, o.outline? j = some l → k ∈ l.dependencies → l.ready = false ∧ l.compiled = none

/-- How a cascade that brings values to nodes goes on, at nodes within reach. -/
inductive Advance (reach : String → Prop) (o : Outlook) : Outlook → Prop
  /-- The last dependency that was missing has become dependable. -/
  | learn {k : String} {l : Outline} : o.outline? k = some l → l.ready = false →
      l.compiled = none → reach k →
      Advance reach o { o.set k (some { l with ready := true }) with due := k :: o.due }
  /-- A job is queued for a compiler elsewhere. -/
  | request {k : String} {l : Outline} {due : List String} : o.deferred = true →
      o.due = k :: due → o.outline? k = some l → l.ready = true → l.compiled = none →
      (∀ d ∈ l.dependencies, (o.value? d).isSome) → reach k →
      Advance reach o { o.request k l with due }
  /-- A value is merged on the spot. -/
  | compile {k : String} {l : Outline} {due : List String} : o.deferred = false →
      o.due = k :: due → o.outline? k = some l → l.ready = true → l.compiled = none →
      (∀ d ∈ l.dependencies, (o.value? d).isSome) → o.Unused k → reach k →
      Advance reach o { o.arrive k l (o.expected l) with due }

/-- A node within reach loses its value, or is entered or replaced without one. -/
inductive Lapse (reach : String → Prop) (o : Outlook) : Outlook → Prop
  | lapse {k : String} {l : Outline} : l.compiled = none → (l.ready = true → k ∈ o.due) →
      reach k → Lapse reach o (o.lapse k l)

/-- What can happen to an outlook from within the registry. -/
inductive Move (o : Outlook) : Outlook → Prop
  | advance {reach : String → Prop} {o' : Outlook} : Advance reach o o' → Move o o'
  | lapse {reach : String → Prop} {o' : Outlook} : Lapse reach o o' → Move o o'
  /-- It is found that a node is to be compiled. -/
  | ask (k : String) : Move o { o with due := k :: o.due }
  | remove {k : String} : o.value? k = none → Move o (o.remove k)
  | reset {due : List String} : (∀ k l, o.outline? k = some l → l.dependencies = [] → k ∈ due) →
      Move o (o.reset due)

/-- What holds of an outlook is kept by every move. -/
def Kept (X : Outlook → Prop) : Prop := ∀ o o', Move o o' → X o → X o'

/-- What is kept is kept by a node that lapses, if the node is due should it be ready. -/
theorem Kept.lapse {X : Outlook → Prop} (hX : Kept X) {o : Outlook} {k : String} {l : Outline}
    (hnone : l.compiled = none) (hdue : l.ready = true → k ∈ o.due) (h : X o) :
    X (o.lapse k l) := by
  have hlapse : Lapse (fun _ => True) o (o.lapse k l) := .lapse hnone hdue trivial
  exact hX o _ (.lapse hlapse) h

/-- Nodes out of reach stay as they are. -/
theorem Lapse.outline?_eq {reach : String → Prop} {o o' : Outlook} (h : Lapse reach o o')
    {j : String} (hj : ¬ reach j) : o'.outline? j = o.outline? j := by
  cases h with
  | lapse hnone hdue hk =>
    refine if_neg ?_
    rintro rfl
    exact hj hk

/-- After a node has been given a new generation, it has none of those of before. -/
theorem generations_supersede {o : Outlook} {k j : String} {g : Nat} (hle : g ≤ o.generation)
    (hg : (o.supersede k).generations j = some g) : j ≠ k ∧ o.generations j = some g := by
  change (if j = k then some (o.generation + 1) else o.generations j) = some g at hg
  split at hg
  · obtain rfl : o.generation + 1 = g := Option.some.inj hg
    omega
  · next hj => exact ⟨hj, hg⟩

/-- The request of a node that is taken out goes with it. -/
theorem generations_of_remove {o : Outlook} {j k : String} {g : Nat}
    (hg : (o.remove k).generations j = some g) : j ≠ k ∧ o.generations j = some g := by
  change (if j = k then none else o.generations j) = some g at hg
  split at hg
  · simp at hg
  · next hj => exact ⟨hj, hg⟩

theorem outline?_set (o : Outlook) (k j : String) (l : Option Outline) :
    (o.set k l).outline? j = if j = k then l else o.outline? j := rfl

/-- Putting a node where it is changes nothing. -/
theorem set_eq_self {o : Outlook} {k : String} {l : Outline} (h : o.outline? k = some l) :
    o.set k (some l) = o := by
  have hline : (fun j => if j = k then some l else o.outline? j) = o.outline? := by
    funext j
    split
    · next hj => rw [hj, h]
    · rfl
  cases o
  simp only [set, Outlook.mk.injEq, and_true]
  exact hline

theorem value?_set (o : Outlook) (k j : String) (l : Option Outline) :
    (o.set k l).value? j = if j = k then l.bind (·.compiled) else o.value? j := by
  simp only [value?, outline?_set]
  split <;> rfl

end Outlook

namespace Registry

variable {ν : Type} [Node ν] [NodeKind ν] {r r' : Registry ν}

theorem outline?_outlook {due : List String} {k : String} {v : NodeView} (h : r.view? k = some v) :
    (r.outlook due).outline? k = some v.outline := by
  show (r.view? k).map NodeView.outline = _
  rw [h, Option.map_some]

@[simp] theorem value?_outlook (due : List String) (k : String) :
    (r.outlook due).value? k = r.value? k := by
  show ((r.view? k).map NodeView.outline).bind (·.compiled) = (r.view? k).bind (·.compiled)
  cases r.view? k <;> rfl

/-- What is kept holds also once it has been found whether a node is to be compiled. -/
theorem kept_ask {X : Outlook → Prop} (hX : Outlook.Kept X) (h : X (r.outlook [])) (k : String)
    (p : Prop) [Decidable p] : X (r.outlook (if p then [k] else [])) := by
  split
  · exact hX _ _ (.ask k) h
  · exact h

/-- Outlooks are equal if the registries agree in all that makes up an outlook. -/
theorem outlook_ext {o : Outlook}
    (hview : ∀ k, (r.view? k).map NodeView.outline = o.outline? k)
    (hmode : r.isDeferred = o.deferred) (hgeneration : r.generation = o.generation)
    (hgenerations : ∀ k, KeyMap.find? r.generations k = o.generations k)
    (houtbox : r.outbox = o.outbox) : r.outlook o.due = o := by
  cases o
  simp only [outlook, Outlook.mk.injEq, true_and]
  exact ⟨funext hview, hmode, hgeneration, funext hgenerations, houtbox⟩

theorem Alike.outlook_eq (h : Alike r r') (due : List String) :
    r'.outlook due = r.outlook due := by
  refine outlook_ext (o := r.outlook due) (fun k => ?_) h.isDeferred_eq h.generation_eq
    (fun k => ?_) h.outbox_eq
  · rw [h.view?_eq]
    rfl
  · rw [h.generations_eq]
    rfl

theorem Turns.outlook_eq {k : String} {v' : NodeView} (h : Turns r r' k v') (due : List String) :
    r'.outlook due = (r.outlook due).set k (some v'.outline) := by
  refine outlook_ext (o := (r.outlook due).set k (some v'.outline)) (fun j => ?_)
    h.isDeferred_eq h.generation_eq (fun j => ?_) h.outbox_eq
  · rw [h.view?_eq]
    show _ = if j = k then some v'.outline else (r.view? j).map NodeView.outline
    split <;> rfl
  · rw [h.generations_eq]
    rfl

/-- A node that takes its place without value lapses. -/
theorem outlook_eq_lapse {k : String} {v' : NodeView}
    (hview : ∀ j, r'.view? j = if j = k then some v' else r.view? j)
    (hmode : r'.isDeferred = r.isDeferred) (hgeneration : r'.generation = r.generation)
    (hgenerations : r'.generations = r.generations)
    (houtbox : r'.outbox = r.outbox ++
      if (r.value? k).isSome = true ∧ r.isDeferred = true then [.evict [k]] else [])
    (due : List String) : r'.outlook due = (r.outlook due).lapse k v'.outline := by
  refine outlook_ext (o := (r.outlook due).lapse k v'.outline) (fun j => ?_) hmode hgeneration
    (fun j => ?_) ?_
  · rw [hview]
    show _ = if j = k then some v'.outline else (r.view? j).map NodeView.outline
    split <;> rfl
  · rw [hgenerations]
    rfl
  · rw [houtbox]
    show _ = r.outbox ++
      if ((r.outlook due).value? k).isSome = true ∧ r.isDeferred = true then [.evict [k]] else []
    rw [value?_outlook]

theorem Changes.outlook_eq_lapse {k : String} {v v' : NodeView} (h : Changes r r' k v v')
    (hnone : v'.compiled = none) (due : List String) :
    r'.outlook due = (r.outlook due).lapse k v'.outline := by
  refine Registry.outlook_eq_lapse h.view?_eq h.isDeferred_eq h.generation_eq h.generations_eq
    ?_ due
  have hvalue : r.value? k = v.compiled := by rw [value?, h.before]; rfl
  rw [h.outbox_eq, hvalue]
  simp only [NodeView.Loses, hnone, and_true]

end Registry

end LayeredAccess
