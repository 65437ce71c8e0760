/-
  LayeredAccess.Proofs.Registry.CallSteps

  How a call goes. It is either done with at once, or it begins with some tasks
  that are then settled (`opening`); a node that has been told of its deletion
  is taken out in the end (`closing`). Together this is what the call does
  (`call_eq_closing`). The course of a call lists the registry and the task at
  the beginning of every step in between.

  `Opens` says once, case by case, how a call can begin; what follows about
  calls rests on these cases.
-/
import LayeredAccess.Proofs.Agenda.Moments
import LayeredAccess.Proofs.Registry.Invalidation

namespace LayeredAccess

/-- The node that a call is about. -/
def Call.subject {ν : Type} [Node ν] : Call ν → Option String
  | .add n => some (Node.key n)
  | .update key _ | .delete key | .customize key _ | .apply key _ => some key
  | .clearCache | .takeOutbox | .collect | .share _ => none

namespace Registry

variable {ν : Type} [Node ν]

/-! ## Openings -/

/-- May a node be deleted? -/
def deletable (r : Registry ν) (key : String) : Bool :=
  (r.get? key).any fun n => (Node.checkDelete n).isOk

/-- Would a value that comes for a node now be taken in? -/
def awaits (r : Registry ν) (key : String) (generation : Nat) : Bool :=
  decide (KeyMap.find? r.generations key = some generation) &&
    (r.get? key).any fun n => (Node.dependencies n).all r.isDependable

/-- The registry in which the tasks of a call begin, and these tasks; a call by which no node is
told anything has none. -/
def opening (r : Registry ν) : Call ν → Registry ν × List Task
  | .add n =>
    match (r.add n).1 with
    | .ok () =>
      ((r.install n).publishSignal (Node.key n) .added true,
        [.tell (Node.key n) (.own .added .registry)])
    | .error _ => ((r.add n).2, [])
  | .update key patch =>
    match r.get? key, (r.update key patch).1 with
    | some n, .ok () =>
      if (Node.applyPatch n patch).1.needsRecompile then
        (r.patched key n patch, [.tell key (.own .updated .registry)])
      else ((r.update key patch).2, [])
    | _, _ => ((r.update key patch).2, [])
  | .delete key =>
    if r.deletable key then
      let told := r.publishSignal key .deleted true
      (told, told.dispatch key .deleted .registry)
    else ((r.delete key).2, [])
  | .customize key flags =>
    if r.contains key then
      (r.publishSignal key (.customized flags) true,
        [.tell key (.own (.customized flags) .registry)])
    else ((r.customize key flags).2, [])
  | .clearCache =>
    let roots := (r.resetAll.nodes.filter fun e => Node.isCompilable e.2).map fun e => Node.key e.2
    (r.resetAll, roots.map fun key => .perform key .compile)
  | .apply key (.compiled generation value) =>
    if r.awaits key generation then
      let bumped := (r.bumpGeneration key).2
      ({ bumped with compiler := bumped.compiler.publish key value } : Registry ν).completeCompile
        key value
    else (r.applyOutcome key (.compiled generation value), [])
  | .apply key (.failed generation missing) =>
    (r.applyOutcome key (.failed generation missing), [])
  | .takeOutbox => (r.takeOutbox.2, [])
  | .collect => (r.collect.2, [])
  | .share compiler => ({ r with compiler }, [])

/-- What a call does when its tasks have been settled. -/
def closing (r settled : Registry ν) : Call ν → Registry ν
  | .delete key =>
    if r.deletable key then
      match settled.get? key with
      | none => settled
      | some n => settled.uninstall key (Node.dependencies n)
    else settled
  | _ => settled

/-- The registry and the task at the beginning of every step of a call. -/
def course (r : Registry ν) (c : Call ν) : List (Registry ν × Task) :=
  let (begun, tasks) := r.opening c
  Agenda.moments step (begun.cascadeBound tasks) begun tasks

/-- How a call can begin. -/
inductive Opens (r : Registry ν) : Call ν → Registry ν → List Task → Prop
  | refused {c : Call ν} {key : String} (label : String) (e : EngineError)
    (hlabel : label ≠ "Compile Error") (hsubject : c.subject = some key)
    (hcall : r.call c = r.publishError label key e) :
    Opens r c (r.publishError label key e) []
  | entered {n : ν} (hnew : r.contains (Node.key n) = false)
    (hcheck : r.graph.check (Node.key n) (Node.dependencies n) = .ok ()) :
    Opens r (.add n) ((r.install n).publishSignal (Node.key n) .added true)
      [.tell (Node.key n) (.own .added .registry)]
  /-- The patch is taken over, but leaves the value of the node alone. -/
  | adopted {key : String} {patch : Node.Patch ν} {n : ν} (hn : r.get? key = some n)
    (hcheck : r.checkUpdate key n patch = .ok ())
    (hsame : (Node.applyPatch n patch).1.needsRecompile = false) :
    Opens r (.update key patch)
      ((r.setNode key (Node.applyPatch n patch).2).publishWide key .updated) []
  | patched {key : String} {patch : Node.Patch ν} {n : ν} (hn : r.get? key = some n)
    (hcheck : r.checkUpdate key n patch = .ok ())
    (hneeds : (Node.applyPatch n patch).1.needsRecompile = true) :
    Opens r (.update key patch) (r.patched key n patch) [.tell key (.own .updated .registry)]
  | deleted {key : String} {n : ν} (hn : r.get? key = some n)
    (hcheck : Node.checkDelete n = .ok ()) :
    Opens r (.delete key) (r.publishSignal key .deleted true)
      ((r.publishSignal key .deleted true).dispatch key .deleted .registry)
  | customized {key : String} {flags : Flags} {n : ν} (hn : r.get? key = some n) :
    Opens r (.customize key flags) (r.publishSignal key (.customized flags) true)
      [.tell key (.own (.customized flags) .registry)]
  | cleared : Opens r .clearCache r.resetAll
      (((r.resetAll.nodes.filter fun e => Node.isCompilable e.2).map fun e => Node.key e.2).map
        fun key => .perform key .compile)
  /-- The outcome belongs to a request that has been superseded. -/
  | stale {key : String} {outcome : CompileOutcome}
    (hstale : KeyMap.find? r.generations key ≠ some outcome.generation) :
    Opens r (.apply key outcome) r []
  | failed {key : String} {generation : Nat} {missing : List String}
    (hcurrent : KeyMap.find? r.generations key = some generation) :
    Opens r (.apply key (.failed generation missing))
      ((r.bumpGeneration key).2.publishError "Compile Error" key (.missingDependency key missing))
      []
  /-- A dependency has been lost meanwhile. -/
  | unmet {key : String} {generation : Nat} {value : Json}
    (hcurrent : KeyMap.find? r.generations key = some generation) :
    Opens r (.apply key (.compiled generation value)) (r.bumpGeneration key).2 []
  | arrived {key : String} {generation : Nat} {value : Json}
    (hcurrent : KeyMap.find? r.generations key = some generation)
    (hmet : (r.get? key).any fun n => (Node.dependencies n).all r.isDependable) :
    Opens r (.apply key (.compiled generation value))
      (({ (r.bumpGeneration key).2 with
        compiler := r.compiler.publish key value } : Registry ν).publishSignal key
          (.compiled value) false)
      [.tell key (.own (.compiled value) .registry)]
  | fetched : Opens r .takeOutbox r.takeOutbox.2 []
  | collected : Opens r .collect r.collect.2 []
  | shared (compiler : Compiler) : Opens r (.share compiler) { r with compiler } []

@[simp] theorem settle_nil (r : Registry ν) : r.settle [] = r := by
  rw [settle, Agenda.run_nil]

variable {r : Registry ν}

theorem deletable_iff {key : String} :
    r.deletable key = true ↔ ∃ n, r.get? key = some n ∧ Node.checkDelete n = .ok () := by
  rw [deletable, Option.any_eq_true]
  refine exists_congr fun n => and_congr_right fun _ => ?_
  cases Node.checkDelete n <;> simp [Except.isOk, Except.toBool]

theorem opening_delete {key : String} (hmay : r.deletable key = true) :
    r.opening (.delete key) = (r.publishSignal key .deleted true,
      (r.publishSignal key .deleted true).dispatch key .deleted .registry) := by
  simp only [opening, hmay, if_true]

/-- How calls begin that enter a node. -/
theorem opens_add (r : Registry ν) (n : ν) :
    Opens r (.add n) (r.opening (.add n)).1 (r.opening (.add n)).2 ∧
      r.call (.add n) = (r.opening (.add n)).1.settle (r.opening (.add n)).2 := by
  cases hnew : r.contains (Node.key n) with
  | true =>
    have hadd : r.add n = r.refuse "Add Error" (Node.key n) (.alreadyExists (Node.key n)) := by
      simp only [Registry.add, hnew, if_true]
    simp only [opening, call, hadd, refuse, settle_nil]
    exact ⟨.refused _ _ (by decide) rfl (by simp only [call, hadd, refuse]), trivial⟩
  | false =>
    cases hcheck : r.graph.check (Node.key n) (Node.dependencies n) with
    | error e =>
      have hadd : r.add n = r.refuse "Add Error" (Node.key n) e.toEngineError := by
        simp only [Registry.add, hnew, hcheck, Bool.false_eq_true, if_false]
      simp only [opening, call, hadd, refuse, settle_nil]
      exact ⟨.refused _ _ (by decide) rfl (by simp only [call, hadd, refuse]), trivial⟩
    | ok u =>
      simp only [opening, call, add_of_check hnew hcheck]
      exact ⟨.entered hnew hcheck, rfl⟩

/-- How calls begin that change a node. -/
theorem opens_update (r : Registry ν) (key : String) (patch : Node.Patch ν) :
    Opens r (.update key patch) (r.opening (.update key patch)).1
        (r.opening (.update key patch)).2 ∧
      r.call (.update key patch) =
        (r.opening (.update key patch)).1.settle (r.opening (.update key patch)).2 := by
  -- The cases follow the checks in the order in which they are made.
  cases hn : r.get? key with
  | none =>
    have hupdate : r.update key patch = r.refuse "Update Error" key (.notFound key) := by
      simp only [Registry.update, hn]
    simp only [opening, call, hn, hupdate, refuse, settle_nil]
    exact ⟨.refused _ _ (by decide) rfl (by simp only [call, hupdate, refuse]), trivial⟩
  | some n =>
    cases hcheck : r.checkUpdate key n patch with
    | error e =>
      have hupdate : r.update key patch = r.refuse "Update Error" key e := by
        simp only [Registry.update, hn, hcheck]
      simp only [opening, call, hn, hupdate, refuse, settle_nil]
      exact ⟨.refused _ _ (by decide) rfl (by simp only [call, hupdate, refuse]), trivial⟩
    | ok u =>
      cases hneeds : (Node.applyPatch n patch).1.needsRecompile with
      | true =>
        have hupdate := update_eq hn hcheck hneeds
        simp only [opening, call, hn, hupdate, hneeds, if_true]
        exact ⟨.patched hn hcheck hneeds, rfl⟩
      | false =>
        have hsame : (Node.applyPatch n patch).1.dependenciesChanged = false := by
          simp only [PatchOutcome.needsRecompile, Bool.or_eq_false_iff] at hneeds
          exact hneeds.1.1
        have hupdate : r.update key patch =
            (.ok (), (r.setNode key (Node.applyPatch n patch).2).publishWide key .updated) := by
          simp only [Registry.update, hn, hcheck, hneeds, hsame, Bool.false_eq_true, if_false]
        simp only [opening, call, hn, hupdate, hneeds, Bool.false_eq_true, if_false, settle_nil]
        exact ⟨.adopted hn hcheck hneeds, trivial⟩

/-- How calls begin that remove a node. -/
theorem opens_delete (r : Registry ν) (key : String) :
    Opens r (.delete key) (r.opening (.delete key)).1 (r.opening (.delete key)).2 ∧
      r.call (.delete key) =
        r.closing ((r.opening (.delete key)).1.settle (r.opening (.delete key)).2)
          (.delete key) := by
  cases hmay : r.deletable key with
  | true =>
    obtain ⟨n, hn, hcheck⟩ := deletable_iff.1 hmay
    simp only [opening, closing, hmay, if_true]
    refine ⟨.deleted hn hcheck, ?_⟩
    simp only [call, Registry.delete, hn, hcheck]
    split <;> simp_all
  -- It may be absent, or may refuse to go.
  | false =>
    have hnot : ¬ ∃ n, r.get? key = some n ∧ Node.checkDelete n = .ok () := by
      rw [← deletable_iff, hmay]
      exact Bool.false_ne_true
    simp only [opening, closing, hmay, Bool.false_eq_true, if_false, settle_nil]
    refine ⟨?_, rfl⟩
    cases hn : r.get? key with
    | none =>
      have hdelete : r.delete key = r.refuse "Delete Error" key (.notFound key) := by
        simp only [Registry.delete, hn]
      rw [hdelete]
      exact .refused _ _ (by decide) rfl (congrArg Prod.snd hdelete)
    | some n =>
      cases hcheck : Node.checkDelete n with
      | ok u => exact absurd ⟨n, hn, hcheck⟩ hnot
      | error e =>
        have hdelete : r.delete key = r.refuse "Delete Error" key e := by
          simp only [Registry.delete, hn, hcheck]
        rw [hdelete]
        exact .refused _ _ (by decide) rfl (congrArg Prod.snd hdelete)

/-- How calls begin that set the flags of a node. -/
theorem opens_customize (r : Registry ν) (key : String) (flags : Flags) :
    Opens r (.customize key flags) (r.opening (.customize key flags)).1
        (r.opening (.customize key flags)).2 ∧
      r.call (.customize key flags) =
        (r.opening (.customize key flags)).1.settle (r.opening (.customize key flags)).2 := by
  cases hcontains : r.contains key with
  | true =>
    obtain ⟨n, hn⟩ := Option.isSome_iff_exists.1 hcontains
    simp only [opening, call, customize, hcontains, if_true]
    exact ⟨.customized hn, rfl⟩
  | false =>
    have hcustomize : r.customize key flags =
        r.refuse "Customize Error" key (.notFound key) := by
      simp only [customize, hcontains, Bool.false_eq_true, if_false]
    simp only [opening, call, hcontains, Bool.false_eq_true, if_false, settle_nil]
    rw [hcustomize]
    exact ⟨.refused _ _ (by decide) rfl (congrArg Prod.snd hcustomize), trivial⟩

theorem awaits_eq_true_iff {key : String} {generation : Nat} :
    r.awaits key generation = true ↔ KeyMap.find? r.generations key = some generation ∧
      (r.get? key).any (fun n => (Node.dependencies n).all r.isDependable) = true := by
  rw [awaits, Bool.and_eq_true, decide_eq_true_eq]

/-- What comes for a request that has been superseded is left alone. -/
theorem opening_apply_of_stale {key : String} (outcome : CompileOutcome)
    (hstale : KeyMap.find? r.generations key ≠ some outcome.generation) :
    r.applyOutcome key outcome = r ∧ r.opening (.apply key outcome) = (r, []) := by
  have hcall : r.applyOutcome key outcome = r := if_neg hstale
  refine ⟨hcall, ?_⟩
  cases outcome with
  | failed generation missing => exact congrArg (fun r' => (r', [])) hcall
  | compiled generation value =>
    have hawaits : ¬ r.awaits key generation = true :=
      fun h => hstale (awaits_eq_true_iff.1 h).1
    exact (if_neg hawaits).trans (congrArg (fun r' => (r', [])) hcall)

/-- A value that comes when a dependency has been lost only uses up the request. -/
theorem opening_apply_of_unmet {key : String} {generation : Nat} (value : Json)
    (hcurrent : KeyMap.find? r.generations key = some generation)
    (hunmet : ¬ (r.get? key).any (fun n => (Node.dependencies n).all r.isDependable) = true) :
    r.applyOutcome key (.compiled generation value) = (r.bumpGeneration key).2 ∧
      r.opening (.apply key (.compiled generation value)) = ((r.bumpGeneration key).2, []) := by
  have hcall : r.applyOutcome key (.compiled generation value) = (r.bumpGeneration key).2 :=
    (if_pos hcurrent).trans (if_neg hunmet)
  have hawaits : ¬ r.awaits key generation = true := fun h => hunmet (awaits_eq_true_iff.1 h).2
  exact ⟨hcall, (if_neg hawaits).trans (congrArg (fun r' => (r', [])) hcall)⟩

/-- How calls begin that bring the value of a job. -/
theorem opens_apply_compiled (r : Registry ν) (key : String) (generation : Nat) (value : Json) :
    let c : Call ν := .apply key (.compiled generation value)
    Opens r c (r.opening c).1 (r.opening c).2 ∧
      r.call c = (r.opening c).1.settle (r.opening c).2 := by
  intro c
  -- First the generation is checked, and then the dependencies.
  by_cases hcurrent : KeyMap.find? r.generations key = some generation
  · by_cases hmet : (r.get? key).any fun n => (Node.dependencies n).all r.isDependable
    · have hopening : r.opening c = ({ (r.bumpGeneration key).2 with
          compiler := r.compiler.publish key value } : Registry ν).completeCompile key value :=
        if_pos (awaits_eq_true_iff.2 ⟨hcurrent, hmet⟩)
      rw [hopening]
      refine ⟨.arrived hcurrent hmet, ?_⟩
      exact (if_pos hcurrent).trans (if_pos hmet)
    · obtain ⟨hcall, hopening⟩ := opening_apply_of_unmet value hcurrent hmet
      rw [hopening, settle_nil]
      exact ⟨.unmet hcurrent, hcall⟩
  · obtain ⟨hcall, hopening⟩ :=
      opening_apply_of_stale (.compiled generation value) hcurrent
    rw [hopening, settle_nil]
    exact ⟨.stale hcurrent, hcall⟩

/-- How calls begin that bring the failure of a job. -/
theorem opens_apply_failed (r : Registry ν) (key : String) (generation : Nat)
    (missing : List String) :
    let c : Call ν := .apply key (.failed generation missing)
    Opens r c (r.opening c).1 (r.opening c).2 ∧
      r.call c = (r.opening c).1.settle (r.opening c).2 := by
  intro c
  refine ⟨?_, (settle_nil _).symm⟩
  show Opens r c (r.applyOutcome key (.failed generation missing)) []
  by_cases hcurrent : KeyMap.find? r.generations key = some generation
  · have hcall : r.applyOutcome key (.failed generation missing) =
        (r.bumpGeneration key).2.publishError "Compile Error" key
          (.missingDependency key missing) := if_pos hcurrent
    rw [hcall]
    exact .failed hcurrent
  · have hcall : r.applyOutcome key (.failed generation missing) = r := if_neg hcurrent
    rw [hcall]
    exact .stale hcurrent

theorem opens_apply (r : Registry ν) (key : String) (outcome : CompileOutcome) :
    let c : Call ν := .apply key outcome
    Opens r c (r.opening c).1 (r.opening c).2 ∧
      r.call c = (r.opening c).1.settle (r.opening c).2 := by
  cases outcome with
  | compiled generation value => exact opens_apply_compiled r key generation value
  | failed generation missing => exact opens_apply_failed r key generation missing

/-- Every call begins in one of the ways listed. -/
theorem opens_opening (r : Registry ν) (c : Call ν) :
    Opens r c (r.opening c).1 (r.opening c).2 := by
  cases c with
  | add n => exact (opens_add r n).1
  | update key patch => exact (opens_update r key patch).1
  | delete key => exact (opens_delete r key).1
  | customize key flags => exact (opens_customize r key flags).1
  | clearCache => exact .cleared
  | apply key outcome => exact (opens_apply r key outcome).1
  | takeOutbox => exact .fetched
  | collect => exact .collected
  | share compiler => exact .shared compiler

/-- A call is its opening, settled, and its closing. -/
theorem call_eq_closing (r : Registry ν) (c : Call ν) :
    r.call c = r.closing ((r.opening c).1.settle (r.opening c).2) c := by
  cases c with
  | add n => exact (opens_add r n).2
  | update key patch => exact (opens_update r key patch).2
  | delete key => exact (opens_delete r key).2
  | customize key flags => exact (opens_customize r key flags).2
  | clearCache => rfl
  | apply key outcome => exact (opens_apply r key outcome).2
  | takeOutbox | collect | share => exact (settle_nil _).symm

variable [NodeKind ν] [LawfulNode ν]

/-- Whatever a call does first keeps the tables in step. -/
theorem Opens.structured {c : Call ν} {r' : Registry ν} {tasks : List Task}
    (h : Opens r c r' tasks) (hr : Structured r) : Structured r' := by
  cases h with
  | stale => exact hr
  | entered hnew hcheck =>
    refine (hr.install (by simpa using hnew) hcheck).of_linked ?_
    exact linked_of_silent (silent_publishSignal _ _ _ _)
  | @adopted key patch n hn hcheck hsame =>
    have hpatched := hr.patched hn hcheck
    simp only [PatchOutcome.needsRecompile, Bool.or_eq_false_iff] at hsame
    simp only [hsame.1.1, Bool.false_eq_true, if_false] at hpatched
    exact hpatched.of_linked (linked_of_silent ⟨_, rfl⟩)
  | patched hn hcheck => exact (hr.patched hn hcheck).of_linked (linked_of_silent ⟨_, rfl⟩)
  | deleted | customized => exact hr.of_linked (linked_of_silent (silent_publishSignal _ _ _ _))
  | cleared => exact hr.of_linked (linked_resetAll r)
  | refused | failed | unmet | arrived | fetched | collected | shared =>
    exact hr.of_linked (linked_of_nodes rfl rfl rfl rfl rfl)

theorem Structured.opening (h : Structured r) (c : Call ν) : Structured (r.opening c).1 :=
  (opens_opening r c).structured h

end Registry

end LayeredAccess
