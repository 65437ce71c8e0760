/-
  LayeredAccess.Proofs.Registry.LastActions

  What those who follow a node can gather from the actions they are told:
  whether the node is dependable (`seemsDependable`), and its value
  (`toldValue?`). Both go by the last action of certain kinds, and the theorems
  say how they change when something is published.
-/
import LayeredAccess.Proofs.Registry.Sparing

namespace LayeredAccess

/-- The value that a signal brings. -/
def Signal.value? : Signal → Option Json
  | .compiled value => some value
  | _ => none

namespace Registry

variable {ν : Type} [Node ν] {r r' r'' : Registry ν}

/-! ## The last action -/

/-- The kinds of action that tell whether a node is dependable. -/
def standingLabels : List String := ["Add Ok", "Validate Ok", "Invalid", "Delete Ok"]

/-- The last action of some kinds that those who follow a node have been told. -/
def lastOf (r : Registry ν) (key : String) (labels : List String) : Option Action :=
  ((r.actionsOf key).filter fun a => a.kind ∈ labels.map (actionKind ν)).getLast?

/-- Does a node seem dependable to those who follow it? -/
def seemsDependable (r : Registry ν) (key : String) : Bool :=
  (r.lastOf key standingLabels).any fun a => a.kind == actionKind ν "Validate Ok"

/-- The value of a node as far as its followers have been told. -/
def toldValue? (r : Registry ν) (key : String) : Option Json :=
  (r.lastOf key ["Compile Ok"]).bind (·.payload)

/-- Those who follow single nodes have been told nothing in between. -/
def Untold (r r' : Registry ν) : Prop := ∀ key, r'.actionsOf key = r.actionsOf key

omit [Node ν] in
theorem Untold.trans (h : Untold r r') (h' : Untold r' r'') : Untold r r'' :=
  fun key => (h' key).trans (h key)

omit [Node ν] in
theorem untold_of_published (h : r'.published = r.published) : Untold r r' := by
  intro key
  rw [actionsOf, h, actionsOf]

omit [Node ν] in
theorem untold_publish (r : Registry ν) {a : Action} (h : a.id = none) :
    Untold r (r.publish a) := by
  intro key
  exact (spared_publish r (n := key) (by simp [Action.route, h])).actionsOf_eq

theorem Untold.lastOf_eq (h : Untold r r') (key : String) (labels : List String) :
    r'.lastOf key labels = r.lastOf key labels := by
  rw [lastOf, h key, lastOf]

theorem Untold.seemsDependable_eq (h : Untold r r') (key : String) :
    r'.seemsDependable key = r.seemsDependable key := by
  rw [seemsDependable, h.lastOf_eq, seemsDependable]

theorem Untold.toldValue?_eq (h : Untold r r') (key : String) :
    r'.toldValue? key = r.toldValue? key := by
  rw [toldValue?, h.lastOf_eq, toldValue?]

/-! ## Publishing -/

/-- Kinds differ if their labels do. -/
theorem mem_map_actionKind_iff {label : String} {labels : List String} :
    actionKind ν label ∈ labels.map (actionKind ν) ↔ label ∈ labels :=
  List.mem_map_of_injective fun _ _ h => actionKind_inj.1 h

omit [Node ν] in
theorem getLast?_filter_concat {α : Type} (p : α → Bool) (xs : List α) (x : α) :
    ((xs ++ [x]).filter p).getLast? = if p x then some x else (xs.filter p).getLast? := by
  rw [List.filter_append]
  cases h : p x <;> simp [h]

/-- What is published last is the last that is told, provided that it is to be told. -/
theorem lastOf_publish (r : Registry ν) (label key : String) (payload : Option Json) (j : String)
    (labels : List String) :
    (r.publish { kind := actionKind ν label, id := some key, payload }).lastOf j labels =
      if j = key ∧ label ∈ labels then
        some { kind := actionKind ν label, id := some key, payload }
      else r.lastOf j labels := by
  have htold : (decide (actionKind ν label ∈ labels.map (actionKind ν)) &&
      decide (Channel.id key = .id j)) = true ↔ j = key ∧ label ∈ labels := by
    rw [Bool.and_eq_true, decide_eq_true_eq, decide_eq_true_eq, mem_map_actionKind_iff,
      Channel.id.injEq, and_comm, eq_comm]
  simp only [lastOf, actionsOf, List.filter_filter]
  exact (getLast?_filter_concat _ r.published _).trans (if_congr htold rfl rfl)

theorem publishNarrow_eq (r : Registry ν) (key : String) (s : Signal) :
    r.publishNarrow key s =
      r.publish { kind := actionKind ν s.label, id := some key, payload := s.value? } := by
  cases s <;> rfl

theorem untold_publishWide (r : Registry ν) (key : String) (s : Signal) :
    Untold r (r.publishWide key s) := untold_publish r rfl

theorem untold_publishError (r : Registry ν) (label key : String) (e : EngineError) :
    Untold r (r.publishError label key e) := untold_publish r rfl

theorem lastOf_publishNarrow (r : Registry ν) (key : String) (s : Signal) (j : String)
    (labels : List String) : (r.publishNarrow key s).lastOf j labels =
      if j = key ∧ s.label ∈ labels then
        some { kind := actionKind ν s.label, id := some key, payload := s.value? }
      else r.lastOf j labels := by
  rw [publishNarrow_eq, lastOf_publish]

theorem lastOf_publishSignal (r : Registry ν) (key : String) (s : Signal) (wide : Bool)
    (j : String) (labels : List String) :
    (r.publishSignal key s wide).lastOf j labels = (r.publishNarrow key s).lastOf j labels := by
  unfold publishSignal
  split
  · exact (untold_publishWide _ key s).lastOf_eq j labels
  · rfl

/-- A node that has become dependable seems so, and any other news of its standing make it seem
not to be. -/
theorem seemsDependable_publishSignal (r : Registry ν) (key : String) (s : Signal) (wide : Bool)
    (j : String) :
    (r.publishSignal key s wide).seemsDependable j =
      if j = key ∧ s.label ∈ standingLabels then decide (s.label = "Validate Ok")
      else r.seemsDependable j := by
  rw [seemsDependable, lastOf_publishSignal, lastOf_publishNarrow]
  split
  · rw [Option.any_some, Bool.eq_iff_iff, beq_iff_eq, decide_eq_true_eq]
    exact actionKind_inj
  · rfl

theorem toldValue?_publishSignal (r : Registry ν) (key : String) (s : Signal) (wide : Bool)
    (j : String) :
    (r.publishSignal key s wide).toldValue? j =
      if j = key ∧ s.label = "Compile Ok" then s.value? else r.toldValue? j := by
  have hlabel : (j = key ∧ s.label ∈ ["Compile Ok"]) ↔ (j = key ∧ s.label = "Compile Ok") :=
    and_congr_right fun _ => List.mem_singleton
  rw [toldValue?, lastOf_publishSignal, lastOf_publishNarrow, if_congr hlabel rfl rfl]
  split <;> rfl

/-! ## Tidings that say the same -/

/-- Followers gather the same from what they have been told. -/
structure SameTidings (r r' : Registry ν) : Prop where
  seemsDependable_eq : ∀ key, r'.seemsDependable key = r.seemsDependable key
  toldValue?_eq : ∀ key, r'.toldValue? key = r.toldValue? key

theorem Untold.sameTidings (h : Untold r r') : SameTidings r r' :=
  ⟨h.seemsDependable_eq, h.toldValue?_eq⟩

theorem SameTidings.trans (h : SameTidings r r') (h' : SameTidings r' r'') : SameTidings r r'' :=
  ⟨fun key => (h'.seemsDependable_eq key).trans (h.seemsDependable_eq key),
    fun key => (h'.toldValue?_eq key).trans (h.toldValue?_eq key)⟩

/-- Signals of other kinds tell nothing of standing or value. -/
theorem sameTidings_publishSignal (r : Registry ν) (key : String) {s : Signal} (wide : Bool)
    (hstanding : s.label ∉ standingLabels) (hvalue : s.label ≠ "Compile Ok") :
    SameTidings r (r.publishSignal key s wide) := by
  refine ⟨fun j => ?_, fun j => ?_⟩
  · rw [seemsDependable_publishSignal, if_neg fun h => hstanding h.2]
  · rw [toldValue?_publishSignal, if_neg fun h => hvalue h.2]

end Registry

end LayeredAccess
