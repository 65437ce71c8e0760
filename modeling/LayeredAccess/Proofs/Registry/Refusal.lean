/-
  LayeredAccess.Proofs.Registry.Refusal

  Which operations a registry refuses, and why. Of the objections to an
  operation the one that is checked first is told; every other operation is
  carried out. A refusal leaves the registry as it was, but for one action that
  tells those who follow the kind of the error (`exact_reached`).
-/
import LayeredAccess.Proofs.Registry.Structure

namespace LayeredAccess

namespace Registry

open Relation

variable {ν : Type} [Node ν]

/-! ## Objections -/

/-- What there is to be said against entering a node. -/
inductive AddObjection (r : Registry ν) (n : ν) : EngineError → Prop
  | taken : r.contains (Node.key n) = true → AddObjection r n (.alreadyExists (Node.key n))
  | unfit {e : EngineError} : r.contains (Node.key n) = false →
      r.graph.Fault (Node.key n) (Node.dependencies n) e → AddObjection r n e

/-- What there is to be said against applying a patch, given which nodes are sealed. -/
inductive UpdateObjection (r : Registry ν) (isSealed : ν → Bool) (key : String)
    (patch : Node.Patch ν) : EngineError → Prop
  | absent : r.get? key = none → UpdateObjection r isSealed key patch (.notFound key)
  | forbidden {n : ν} : r.get? key = some n → isSealed n = true →
      UpdateObjection r isSealed key patch (.forbidden key .sealed)
  | unfit {n : ν} {ds : List String} {e : EngineError} : r.get? key = some n →
      isSealed n = false → Node.patchedDependencies patch = some ds → r.graph.Fault key ds e →
      UpdateObjection r isSealed key patch e

/-- What there is to be said against removing a node, given which nodes are pinned. -/
inductive DeleteObjection (r : Registry ν) (isPinned : ν → Bool) (key : String) :
    EngineError → Prop
  | absent : r.get? key = none → DeleteObjection r isPinned key (.notFound key)
  | forbidden {n : ν} : r.get? key = some n → isPinned n = true →
      DeleteObjection r isPinned key (.forbidden key .pinned)

/-- What there is to be said against customizing a node. -/
inductive CustomizeObjection (r : Registry ν) (key : String) : EngineError → Prop
  | absent : r.get? key = none → CustomizeObjection r key (.notFound key)

/-- Has an operation been refused? -/
def Refused {α : Type} (result : Except EngineError α) : Prop := ∃ e, result = .error e

/-- An operation is refused exactly where there is an objection. A refusal tells an objection, and
all that it does is to publish one action, on the channel of the kind of the error. -/
structure Judges {α : Type} (r : Registry ν) (label key : String)
    (objection : EngineError → Prop) (result : Except EngineError α × Registry ν) : Prop where
  refused_iff : Refused result.1 ↔ ∃ e, objection e
  told : ∀ e, result.1 = .error e → objection e
  unchanged : ∀ e, result.1 = .error e → result.2 =
    { r with
      published := r.published ++
        [{ kind := actionKind ν label, id := none, payload := some (errorPayload key e) }] }

variable {r : Registry ν} {α : Type} {label key : String} {objection : EngineError → Prop}
  {result : Except EngineError α × Registry ν}

theorem judges_of_refuse {e : EngineError} (he : objection e)
    (h : result = r.refuse label key e) : Judges r label key objection result := by
  subst h
  refine ⟨⟨fun _ => ⟨e, he⟩, fun _ => ⟨e, rfl⟩⟩, fun e' h' => ?_, fun e' h' => ?_⟩
  · exact Except.error.inj h' ▸ he
  · obtain rfl := Except.error.inj h'
    rfl

theorem judges_of_ok {a : α} (hnone : ∀ e, ¬ objection e) (h : result.1 = .ok a) :
    Judges r label key objection result := by
  have hnot : ∀ e, result.1 ≠ .error e := by simp [h]
  refine ⟨⟨fun ⟨e, he⟩ => absurd he (hnot e), fun ⟨e, he⟩ => absurd he (hnone e)⟩,
    fun e he => absurd he (hnot e), fun e he => absurd he (hnot e)⟩

/-! ## Entering -/

variable [NodeKind ν]

theorem Structured.judges_add (h : Structured r) (n : ν) :
    Judges r "Add Error" (Node.key n) (r.AddObjection n) (r.add n) := by
  cases hnew : r.contains (Node.key n) with
  | true => exact judges_of_refuse (.taken hnew) (by simp only [Registry.add, hnew, if_true])
  | false =>
    cases hcheck : r.graph.check (Node.key n) (Node.dependencies n) with
    | error e =>
      refine judges_of_refuse (.unfit hnew (DependencyGraph.fault_of_check h.ranked hcheck)) ?_
      simp only [Registry.add, hnew, hcheck, Bool.false_eq_true, if_false]
    | ok u =>
      refine judges_of_ok (a := ()) (fun e he => ?_) ?_
      · cases he with
        | taken htaken => simp [hnew] at htaken
        | unfit _ hfault => exact hfault.check_ne_ok h.ranked hcheck
      · rw [add_of_check hnew hcheck]

/-- The causes for which a node is not entered. -/
theorem Structured.add_refused_iff (h : Structured r) (n : ν) : Refused (r.add n).1 ↔
    r.contains (Node.key n) = true ∨ Node.key n = "" ∨ ¬ (Node.dependencies n).Nodup ∨
      Node.key n ∈ Node.dependencies n ∨
      ∃ d ∈ Node.dependencies n, ReflTransGen r.DependsOn d (Node.key n) := by
  rw [(h.judges_add n).refused_iff, ← h.dependsOn_eq, ← DependencyGraph.exists_fault_iff h.ranked]
  constructor
  · rintro ⟨e, he⟩
    cases he with
    | taken htaken => exact .inl htaken
    | unfit _ hfault => exact .inr ⟨e, hfault⟩
  · rintro (htaken | ⟨e, hfault⟩)
    · exact ⟨_, .taken htaken⟩
    · cases hnew : r.contains (Node.key n) with
      | true => exact ⟨_, .taken hnew⟩
      | false => exact ⟨e, .unfit hnew hfault⟩

/-! ## Changing -/

/-- Who would depend on whom if a node listed other dependencies. -/
def DependsOnIf (r : Registry ν) (key : String) (ds : List String) (a b : String) : Prop :=
  if a = key then b ∈ ds else r.DependsOn a b

omit [NodeKind ν] in
theorem checkUpdate_eq (r : Registry ν) (key : String) (n : ν) (patch : Node.Patch ν) :
    r.checkUpdate key n patch =
      match Node.checkUpdate n with
      | .error e => .error e
      | .ok () =>
        match Node.patchedDependencies patch with
        | none => .ok ()
        | some ds => (r.graph.check key ds).mapError GraphError.toEngineError := by
  unfold checkUpdate
  cases Node.checkUpdate n with
  | error e => rfl
  | ok u => cases Node.patchedDependencies patch <;> rfl

section

variable {isSealed isPinned : ν → Bool}
  (hsealed : ∀ n : ν, Node.checkUpdate n =
    if isSealed n then .error (.forbidden (Node.key n) .sealed) else .ok ())
  (hpinned : ∀ n : ν, Node.checkDelete n =
    if isPinned n then .error (.forbidden (Node.key n) .pinned) else .ok ())

include hsealed

theorem Structured.judges_update (h : Structured r) (key : String) (patch : Node.Patch ν) :
    Judges r "Update Error" key (r.UpdateObjection isSealed key patch) (r.update key patch) := by
  cases hn : r.get? key with
  | none => exact judges_of_refuse (.absent hn) (by simp only [Registry.update, hn])
  | some n =>
    have hkey : Node.key n = key := h.key_eq key _ (view?_of_get? hn)
    have hforbids := hsealed n
    rw [hkey] at hforbids
    cases hs : isSealed n with
    | true =>
      refine judges_of_refuse (.forbidden hn hs) ?_
      simp only [Registry.update, hn, checkUpdate_eq, hforbids, hs, if_true]
    | false =>
      have hpermits : Node.checkUpdate n = .ok () := by
        rw [hforbids, hs, if_neg Bool.false_ne_true]
      -- What is left to be said concerns the dependencies that the patch installs.
      have hok : r.checkUpdate key n patch = .ok () →
          (∀ ds, Node.patchedDependencies patch = some ds → r.graph.check key ds = .ok ()) →
          Judges r "Update Error" key (r.UpdateObjection isSealed key patch)
            (r.update key patch) := by
        intro hcheck hfits
        refine judges_of_ok (a := ()) (fun e he => ?_) ?_
        · cases he with
          | absent hnone => simp [hn] at hnone
          | forbidden hn' hs' =>
            obtain rfl := Option.some.inj (hn.symm.trans hn')
            simp [hs] at hs'
          | unfit _ _ hds hfault => exact hfault.check_ne_ok h.ranked (hfits _ hds)
        · simp only [Registry.update, hn, hcheck]
          split <;> rfl
      cases hds : Node.patchedDependencies patch with
      | none => exact hok (by rw [checkUpdate_eq, hpermits, hds]) (by simp [hds])
      | some ds =>
        cases hc : r.graph.check key ds with
        | ok u =>
          refine hok (by simp only [checkUpdate_eq, hpermits, hds, hc]; rfl) fun ds' hds' => ?_
          rw [← Option.some.inj (hds.symm.trans hds'), hc]
        | error e =>
          have hfault := DependencyGraph.fault_of_check h.ranked hc
          refine judges_of_refuse (.unfit hn hs hds hfault) ?_
          simp only [Registry.update, hn, checkUpdate_eq, hpermits, hds, hc]
          rfl

/-- The causes for which a node is not changed. -/
theorem Structured.update_refused_iff (h : Structured r) (key : String) (patch : Node.Patch ν) :
    Refused (r.update key patch).1 ↔
      r.contains key = false ∨ (∃ n, r.get? key = some n ∧ isSealed n = true) ∨
      ∃ ds, Node.patchedDependencies patch = some ds ∧
        (¬ ds.Nodup ∨ key ∈ ds ∨ ∃ k, TransGen (r.DependsOnIf key ds) k k) := by
  -- What the graph finds when it follows the new dependencies is a cycle among the nodes.
  have hcycle : ∀ ds, (∃ k, TransGen (r.DependsOnIf key ds) k k) ↔
      ∃ d ∈ ds, ReflTransGen r.graph.DependsOn d key := by
    intro ds
    have heq : r.DependsOnIf key ds = (r.graph.insert key ds).DependsOn := by
      funext a b
      rw [DependsOnIf, ← h.dependsOn_eq]
      exact propext (DependencyGraph.dependsOn_insert a b).symm
    rw [heq, DependencyGraph.exists_cycle_iff h.ranked]
  have hfault : ∀ ds, (∃ e, r.graph.Fault key ds e) ↔
      key = "" ∨ ¬ ds.Nodup ∨ key ∈ ds ∨ ∃ d ∈ ds, ReflTransGen r.graph.DependsOn d key :=
    fun _ => DependencyGraph.exists_fault_iff h.ranked
  rw [(h.judges_update hsealed key patch).refused_iff]
  simp only [hcycle]
  -- The objections are those of the checks, in their order.
  cases hn : r.get? key with
  | none =>
    have habsent : r.contains key = false := by simp [contains, hn]
    exact ⟨fun _ => .inl habsent, fun _ => ⟨_, .absent hn⟩⟩
  | some n =>
    have hpresent : r.contains key = true := by simp [contains, hn]
    have hne : key ≠ "" := h.consistent.ne_empty key hpresent
    constructor
    · rintro ⟨e, he⟩
      cases he with
      | absent hnone => simp [hn] at hnone
      | forbidden hn' hs => exact .inr (.inl ⟨_, hn ▸ hn', hs⟩)
      | unfit _ _ hds hf => exact .inr (.inr ⟨_, hds, ((hfault _).1 ⟨e, hf⟩).resolve_left hne⟩)
    · rintro (habsent | ⟨m, hm, hs⟩ | ⟨ds, hds, hbad⟩)
      · simp [hpresent] at habsent
      · exact ⟨_, .forbidden (hn.trans hm) hs⟩
      · obtain ⟨e, hf⟩ := (hfault ds).2 (.inr hbad)
        cases hs : isSealed n with
        | true => exact ⟨_, .forbidden hn hs⟩
        | false => exact ⟨e, .unfit hn hs hds hf⟩

omit hsealed
include hpinned

/-! ## Removing and customizing -/

theorem Structured.judges_delete [LinkedNode ν] (h : Structured r) (key : String) :
    Judges r "Delete Error" key (r.DeleteObjection isPinned key) (r.delete key) := by
  cases hn : r.get? key with
  | none => exact judges_of_refuse (.absent hn) (by simp only [Registry.delete, hn])
  | some n =>
    have hkey : Node.key n = key := h.key_eq key _ (view?_of_get? hn)
    have hforbids := hpinned n
    rw [hkey] at hforbids
    cases hp : isPinned n with
    | true =>
      refine judges_of_refuse (.forbidden hn hp) ?_
      simp only [Registry.delete, hn, hforbids, hp, if_true]
    | false =>
      -- A node that is there and is not pinned gives no ground for an objection.
      have hpermits : Node.checkDelete n = .ok () := by
        rw [hforbids, hp, if_neg Bool.false_ne_true]
      obtain ⟨-, m, -, heq⟩ := exists_delete hn hpermits
      refine judges_of_ok (a := m) (fun e he => ?_) (by rw [heq])
      cases he with
      | absent hnone => simp [hn] at hnone
      | forbidden hn' hp' =>
        obtain rfl := Option.some.inj (hn.symm.trans hn')
        simp [hp] at hp'

omit [Node ν] [NodeKind ν] hpinned in
/-- The objections to a removal. -/
theorem exists_deleteObjection_iff (r : Registry ν) (isPinned : ν → Bool) (key : String) :
    (∃ e, r.DeleteObjection isPinned key e) ↔
      r.contains key = false ∨ ∃ n, r.get? key = some n ∧ isPinned n = true := by
  constructor
  · rintro ⟨e, he⟩
    cases he with
    | absent hnone => exact .inl (by simp [contains, hnone])
    | forbidden hn hp => exact .inr ⟨_, hn, hp⟩
  · rintro (habsent | ⟨n, hn, hp⟩)
    · exact ⟨_, .absent (by simpa [contains] using habsent)⟩
    · exact ⟨_, .forbidden hn hp⟩

end

omit [NodeKind ν] in
theorem judges_customize (r : Registry ν) (key : String) (flags : Flags) :
    Judges r "Customize Error" key (r.CustomizeObjection key) (r.customize key flags) := by
  cases hn : r.get? key with
  | none =>
    refine judges_of_refuse (.absent hn) ?_
    simp only [customize, contains, hn, Option.isSome_none, Bool.false_eq_true, if_false]
  | some n =>
    refine judges_of_ok (a := ()) (fun e he => ?_) ?_
    · cases he with
      | absent hnone => simp [hn] at hnone
    · simp only [customize, contains, hn, Option.isSome_some, if_true]

/-! ## All operations -/

/-- Every operation is judged rightly, given which nodes are sealed and which are pinned. -/
structure Exact (r : Registry ν) (isSealed isPinned : ν → Bool) : Prop where
  add : ∀ n, Judges r "Add Error" (Node.key n) (r.AddObjection n) (r.add n)
  add_refused_iff : ∀ n, Refused (r.add n).1 ↔
    r.contains (Node.key n) = true ∨ Node.key n = "" ∨ ¬ (Node.dependencies n).Nodup ∨
      Node.key n ∈ Node.dependencies n ∨
      ∃ d ∈ Node.dependencies n, ReflTransGen r.DependsOn d (Node.key n)
  update : ∀ key patch,
    Judges r "Update Error" key (r.UpdateObjection isSealed key patch) (r.update key patch)
  update_refused_iff : ∀ key patch, Refused (r.update key patch).1 ↔
    r.contains key = false ∨ (∃ n, r.get? key = some n ∧ isSealed n = true) ∨
      ∃ ds, Node.patchedDependencies patch = some ds ∧
        (¬ ds.Nodup ∨ key ∈ ds ∨ ∃ k, TransGen (r.DependsOnIf key ds) k k)
  delete : ∀ key, Judges r "Delete Error" key (r.DeleteObjection isPinned key) (r.delete key)
  delete_refused_iff : ∀ key, Refused (r.delete key).1 ↔
    r.contains key = false ∨ ∃ n, r.get? key = some n ∧ isPinned n = true
  /-- A removal never ends in an error of the engine itself. -/
  delete_ne_internal : ∀ key reason, (r.delete key).1 ≠ .error (.internal reason)
  customize : ∀ key flags,
    Judges r "Customize Error" key (r.CustomizeObjection key) (r.customize key flags)
  customize_refused_iff : ∀ key flags,
    Refused (r.customize key flags).1 ↔ r.contains key = false

theorem Structured.exact [LinkedNode ν] (h : Structured r) {isSealed isPinned : ν → Bool}
    (hsealed : ∀ n : ν, Node.checkUpdate n =
      if isSealed n then .error (.forbidden (Node.key n) .sealed) else .ok ())
    (hpinned : ∀ n : ν, Node.checkDelete n =
      if isPinned n then .error (.forbidden (Node.key n) .pinned) else .ok ()) :
    Exact r isSealed isPinned where
  add := h.judges_add
  add_refused_iff := h.add_refused_iff
  update := h.judges_update hsealed
  update_refused_iff := h.update_refused_iff hsealed
  delete := h.judges_delete hpinned
  delete_refused_iff key := by
    rw [(h.judges_delete hpinned key).refused_iff, exists_deleteObjection_iff]
  delete_ne_internal key reason hinternal := by
    have hobjection := (h.judges_delete hpinned key).told _ hinternal
    cases hobjection
  customize := judges_customize r
  customize_refused_iff key flags := by
    rw [(judges_customize r key flags).refused_iff]
    constructor
    · rintro ⟨e, ⟨hnone⟩⟩
      simp [contains, hnone]
    · intro habsent
      exact ⟨_, .absent (by simpa [contains] using habsent)⟩

/-- In every registry that calls can lead to, operations are refused exactly for their causes.
Entitlements may be sealed or pinned; profiles never are. -/
theorem exact_reached (config : EngineConfig) (verifier : Option Verifier) :
    (∀ calls : List (Call EntitlementNode),
      Exact (reached config verifier calls) (fun n => n.has .sealed) fun n => n.has .pinned) ∧
    (∀ calls : List (Call ProfileNode),
      Exact (reached config verifier calls) (fun _ => false) fun _ => false) := by
  constructor
  · exact fun calls => (structured_reached config verifier calls).exact (fun _ => rfl) fun _ => rfl
  · exact fun calls => (structured_reached config verifier calls).exact (fun _ => rfl) fun _ => rfl

end Registry

end LayeredAccess
