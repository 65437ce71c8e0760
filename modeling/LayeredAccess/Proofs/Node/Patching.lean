/-
  LayeredAccess.Proofs.Node.Patching

  Patches of nodes. A patch installs what it gives and leaves the rest of the
  node alone, and its outcome asks for a new value exactly when the inputs of
  the value are not what they were (`applyPatch_exact`).

  A field that is given an equal value keeps the one it had. So the outcome may
  be read off the fields of the node before and after, whatever the patch was:
  that is proved once for a field of any type (`any_ne_iff`), and both kinds of
  nodes are made of such fields.
-/
import LayeredAccess.Entitlement.Node
import LayeredAccess.Profile.Node

namespace LayeredAccess

/-- A value that is equal to itself. Every value is, unless there is a double in it that is no
number, and no JSON text can write one. -/
def Json.Comparable (v : Json) : Prop := (v == v) = true

instance (v : Json) : Decidable v.Comparable := inferInstanceAs (Decidable ((v == v) = true))

/-! ## One field -/

/-- A field after a patch: what is given, up to a notion of sameness, and otherwise what was
there. -/
def Installs {α : Type} (same : α → α → Prop) (given : Option α) (before after : α) : Prop :=
  match given with
  | some v => same v after
  | none => after = before

section Field

variable {α : Type} [BEq α] {given : Option α} {before default : α}

/-- The new value takes the place of the old one, or is equal to it. -/
theorem installs_of_any_ne (hgiven : ∀ v ∈ given, (v == v) = true) :
    Installs (fun v w => (v == w) = true) given before
      (if given.any (fun v => !(v == before)) then given.getD default else before) := by
  cases given with
  | none => rfl
  | some v =>
    show (v == if (!(v == before)) = true then v else before) = true
    split
    · exact hgiven v rfl
    · next hsame => simpa using hsame

/-- A field counts as changed where its value is not what it was. -/
theorem any_ne_iff (hbefore : (before == before) = true) :
    given.any (fun v => !(v == before)) = true ↔
      ((if given.any (fun v => !(v == before)) then given.getD default else before) == before) =
        false := by
  cases given with
  | none => simp [hbefore]
  | some v =>
    show (!(v == before)) = true ↔
      ((if (!(v == before)) = true then v else before) == before) = false
    cases hsame : v == before with
    | true => simp [hbefore]
    | false => simp [hsame]

end Field

/-- Lists of dependencies are compared as they are. -/
theorem any_ne_dependencies (given : Option (List String)) (before : List String) :
    given.any (fun ds => !decide (ds = before)) = given.any (fun ds => !(ds == before)) := by
  refine congrArg (given.any ·) (funext fun ds => congrArg not ?_)
  rw [Bool.eq_iff_iff, decide_eq_true_eq, beq_iff_eq]

theorem installs_dependencies (given : Option (List String)) (before : List String) :
    Installs Eq given before
      (if given.any (fun ds => !decide (ds = before)) then given.getD [] else before) := by
  rw [any_ne_dependencies]
  have h : Installs (fun v w => (v == w) = true) given before
      (if given.any (fun ds => !(ds == before)) then given.getD [] else before) :=
    installs_of_any_ne fun ds _ => beq_self_eq_true ds
  cases given with
  | none => exact h
  | some ds => exact eq_of_beq h

theorem any_ne_dependencies_iff (given : Option (List String)) (before : List String) :
    given.any (fun ds => !decide (ds = before)) = true ↔
      (if given.any (fun ds => !decide (ds = before)) then given.getD [] else before) ≠ before := by
  rw [any_ne_dependencies]
  exact (any_ne_iff (beq_self_eq_true before)).trans (beq_eq_false_iff_ne)

/-- A field that is installed as it is given. -/
theorem installs_getD {α : Type} (given : Option α) (before : α) :
    Installs Eq given before (given.getD before) := by
  cases given <;> rfl

/-! ## The inputs of a value -/

/-- Are values equal to each other? -/
abbrev Json.Equal (v w : Json) : Prop := (v == w) = true

/-- The outcome of a patch tells by the inputs of the node's value, before and after, whether a
new one is needed. -/
structure PatchOutcome.Reports {ν : Type} [Node ν] (o : PatchOutcome) (before after : ν) :
    Prop where
  needsRecompile_iff : o.needsRecompile = true ↔
    (Node.layers after == Node.layers before) = false ∨
      Node.dependencies after ≠ Node.dependencies before ∨
      Node.resource after ≠ Node.resource before
  dependenciesChanged_iff : o.dependenciesChanged = true ↔
    Node.dependencies after ≠ Node.dependencies before

/-! ## Entitlements -/

namespace EntitlementNode

/-- The layers that a patch gives. -/
def givenLayers (p : EntitlementPatch) : List Json := p.own.toList ++ p.completion.toList

/-- The node after a patch. -/
structure Amended (n : EntitlementNode) (p : EntitlementPatch) (n' : EntitlementNode) : Prop where
  own : Installs Json.Equal p.own n.entitlement.own n'.entitlement.own
  completion : Installs (fun v w => (v == w) = true) (p.completion.map some)
    n.entitlement.completion n'.entitlement.completion
  dependencies : Installs Eq p.dependencies n.entitlement.dependencies n'.entitlement.dependencies
  metadata : Installs Eq p.metadata n.entitlement.metadata n'.entitlement.metadata
  id_eq : n'.entitlement.id = n.entitlement.id
  flags_eq : n'.entitlement.flags = n.entitlement.flags
  state_eq : n'.state = n.state
  readiness_eq : n'.readiness = n.readiness
  compiled_eq : n'.compiled = n.compiled

/-- Layers are equal if the payloads are and the completions are. -/
theorem layers_beq (e e' : Entitlement) :
    (e'.layers == e.layers) = (e'.own == e.own && e'.completion == e.completion) := by
  have hlayers : (e'.layers == e.layers) =
      (e'.own == e.own && (e'.completion.toList == e.completion.toList)) := rfl
  rw [hlayers]
  congr 1
  -- A completion is one more layer, so that the lists differ in length if only one has it.
  cases e'.completion <;> cases e.completion
  · rfl
  · rfl
  · rfl
  · exact Bool.and_true _

/-- The completion is a field like the others, only that it may be absent. -/
theorem completion_any (given completion : Option Json) :
    given.any (fun v => !(completion.any (v == ·))) =
      (given.map some).any (fun v => !(v == completion)) := by
  cases given with
  | none => rfl
  | some v => cases completion <;> rfl

variable (n : EntitlementNode) (p : EntitlementPatch)

theorem own_applyPatch : (n.applyPatch p).2.entitlement.own =
    if p.own.any (fun v => !(v == n.entitlement.own)) then p.own.getD n.entitlement.own
      else n.entitlement.own := rfl

theorem completion_applyPatch : (n.applyPatch p).2.entitlement.completion =
    if (p.completion.map some).any (fun v => !(v == n.entitlement.completion)) then
      (p.completion.map some).getD none else n.entitlement.completion := by
  rw [← completion_any]
  show (if p.completion.any (fun v => !(n.entitlement.completion.any (v == ·))) then p.completion
    else n.entitlement.completion) = _
  cases p.completion <;> rfl

/-- A patch installs what it gives and leaves the rest alone. -/
theorem amended_applyPatch (hgiven : ∀ v ∈ givenLayers p, v.Comparable) :
    n.Amended p (n.applyPatch p).2 where
  own := by
    rw [own_applyPatch]
    refine installs_of_any_ne fun v hv => hgiven v ?_
    exact List.mem_append_left _ (Option.mem_toList.2 hv)
  completion := by
    rw [completion_applyPatch]
    refine installs_of_any_ne fun c hc => ?_
    obtain ⟨v, hv, rfl⟩ := Option.map_eq_some_iff.1 hc
    exact hgiven v (List.mem_append_right _ (Option.mem_toList.2 hv))
  dependencies := installs_dependencies _ _
  metadata := installs_getD _ _
  id_eq := rfl
  flags_eq := rfl
  state_eq := rfl
  readiness_eq := rfl
  compiled_eq := rfl

/-- The payload or the completion counts as changed where the layers are not what they were. -/
theorem contentChanged_iff (hheld : ∀ v ∈ n.entitlement.layers, v.Comparable) :
    (n.applyPatch p).1.contentChanged = true ↔
      ((n.applyPatch p).2.entitlement.layers == n.entitlement.layers) = false := by
  have hown : (n.entitlement.own == n.entitlement.own) = true := hheld _ List.mem_cons_self
  have hcompletion : (n.entitlement.completion == n.entitlement.completion) = true := by
    cases hc : n.entitlement.completion with
    | none => rfl
    | some v => exact hheld v (List.mem_cons_of_mem _ (by rw [hc]; exact List.mem_singleton_self v))
  rw [layers_beq, Bool.and_eq_false_iff, own_applyPatch, completion_applyPatch,
    ← any_ne_iff hown, ← any_ne_iff hcompletion, ← completion_any, ← Bool.or_eq_true]
  rfl

theorem resourceChanged_iff : (n.applyPatch p).1.resourceChanged = true ↔
    (n.applyPatch p).2.entitlement.metadata.resource ≠ n.entitlement.metadata.resource := by
  show p.metadata.any (fun m => !decide (m.resource = n.entitlement.metadata.resource)) = true ↔
    (p.metadata.getD n.entitlement.metadata).resource ≠ n.entitlement.metadata.resource
  cases p.metadata <;> simp

theorem reports_applyPatch (hheld : ∀ v ∈ n.entitlement.layers, v.Comparable) :
    (n.applyPatch p).1.Reports n (n.applyPatch p).2 := by
  have hdependencies : (n.applyPatch p).1.dependenciesChanged = true ↔
      (n.applyPatch p).2.entitlement.dependencies ≠ n.entitlement.dependencies :=
    any_ne_dependencies_iff _ _
  refine ⟨?_, hdependencies⟩
  rw [PatchOutcome.needsRecompile, Bool.or_eq_true, Bool.or_eq_true, hdependencies,
    contentChanged_iff n p hheld, resourceChanged_iff, or_comm (a := _ ≠ _), or_assoc]
  rfl

end EntitlementNode

/-! ## Profiles -/

namespace ProfileNode

/-- The layers that a patch gives. -/
def givenLayers (p : ProfilePatch) : List Json := p.entitlements.toList

/-- The node after a patch. -/
structure Amended (n : ProfileNode) (p : ProfilePatch) (n' : ProfileNode) : Prop where
  entitlements : Installs Json.Equal p.entitlements n.profile.entitlements n'.profile.entitlements
  dependencies : Installs Eq p.dependencies n.profile.dependencies n'.profile.dependencies
  metadata : Installs Eq p.metadata n.profile.metadata n'.profile.metadata
  name_eq : n'.profile.name = n.profile.name
  state_eq : n'.state = n.state
  readiness_eq : n'.readiness = n.readiness
  compiled_eq : n'.compiled = n.compiled

variable (n : ProfileNode) (p : ProfilePatch)

/-- A patch installs what it gives and leaves the rest alone. -/
theorem amended_applyPatch (hgiven : ∀ v ∈ givenLayers p, v.Comparable) :
    n.Amended p (n.applyPatch p).2 where
  entitlements := installs_of_any_ne fun v hv => hgiven v (Option.mem_toList.2 hv)
  dependencies := installs_dependencies _ _
  metadata := installs_getD _ _
  name_eq := rfl
  state_eq := rfl
  readiness_eq := rfl
  compiled_eq := rfl

theorem contentChanged_iff (hheld : ∀ v ∈ n.profile.layers, v.Comparable) :
    (n.applyPatch p).1.contentChanged = true ↔
      ((n.applyPatch p).2.profile.layers == n.profile.layers) = false := by
  have hlayers : ((n.applyPatch p).2.profile.layers == n.profile.layers) =
      (((n.applyPatch p).2.profile.entitlements == n.profile.entitlements) && true) := rfl
  rw [hlayers, Bool.and_true]
  exact any_ne_iff (hheld _ (List.mem_singleton_self _))

theorem reports_applyPatch (hheld : ∀ v ∈ n.profile.layers, v.Comparable) :
    (n.applyPatch p).1.Reports n (n.applyPatch p).2 := by
  have hdependencies : (n.applyPatch p).1.dependenciesChanged = true ↔
      (n.applyPatch p).2.profile.dependencies ≠ n.profile.dependencies :=
    any_ne_dependencies_iff _ _
  have hresource : (n.applyPatch p).1.resourceChanged = false := rfl
  -- Profiles have no resource that could change.
  refine ⟨?_, hdependencies⟩
  rw [PatchOutcome.needsRecompile, hresource, Bool.or_false, Bool.or_eq_true, hdependencies,
    contentChanged_iff n p hheld, or_comm]
  exact or_congr_right (or_iff_left fun h => h rfl).symm

end ProfileNode

/-! ## Both kinds -/

/-- A patch installs the fields that it gives and leaves the rest of a node alone. Its outcome
asks for a new value exactly when the layers, the dependencies or the resource of the node are not
what they were. -/
theorem applyPatch_exact :
    (∀ (n : EntitlementNode) (p : EntitlementPatch),
      (∀ v ∈ n.entitlement.layers ++ EntitlementNode.givenLayers p, v.Comparable) →
        n.Amended p (n.applyPatch p).2 ∧ (n.applyPatch p).1.Reports n (n.applyPatch p).2) ∧
    (∀ (n : ProfileNode) (p : ProfilePatch),
      (∀ v ∈ n.profile.layers ++ ProfileNode.givenLayers p, v.Comparable) →
        n.Amended p (n.applyPatch p).2 ∧ (n.applyPatch p).1.Reports n (n.applyPatch p).2) := by
  constructor
  · intro n p h
    rw [List.forall_mem_append] at h
    exact ⟨n.amended_applyPatch p h.2, n.reports_applyPatch p h.1⟩
  · intro n p h
    rw [List.forall_mem_append] at h
    exact ⟨n.amended_applyPatch p h.2, n.reports_applyPatch p h.1⟩

/-- New metadata take the resource along and so ask for a new value, while an equal payload and
the same dependencies do not. -/
theorem applyPatch_exact_resource :
    let n : EntitlementNode :=
      { entitlement :=
          { id := "a", own := .obj [("x", .int 1)], completion := some (.bool true),
            dependencies := ["b"], metadata := { resource := some "s" } },
        state := .dependable, readiness := [("b", true)], compiled := some (.obj []) }
    let p : EntitlementPatch := { own := some (.obj [("x", .int 1)]), metadata := some {} }
    let m : ProfileNode := { profile := { name := "a", dependencies := ["b"] }, state := .valid }
    let q : ProfilePatch := { entitlements := some (.obj []), dependencies := some ["b"] }
    (n.Amended p (n.applyPatch p).2 ∧ (n.applyPatch p).1.Reports n (n.applyPatch p).2 ∧
      (n.applyPatch p).1.needsRecompile = true) ∧
    (m.Amended q (m.applyPatch q).2 ∧ (m.applyPatch q).1.Reports m (m.applyPatch q).2 ∧
      (m.applyPatch q).1.needsRecompile = false) := by
  intro n p m q
  obtain ⟨hamended, hreports⟩ := applyPatch_exact.1 n p (by decide +kernel)
  obtain ⟨hamended', hreports'⟩ := applyPatch_exact.2 m q (by decide +kernel)
  exact ⟨⟨hamended, hreports, by decide +kernel⟩, ⟨hamended', hreports', by decide +kernel⟩⟩

end LayeredAccess
