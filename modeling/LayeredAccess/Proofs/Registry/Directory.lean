/-
  LayeredAccess.Proofs.Registry.Directory

  What the directory is asked to publish. Such requests come of the tasks that
  announce a node, one of each (`directory_step`), and of nothing else: neither
  how a call begins nor how it ends asks the directory for anything.
-/
import LayeredAccess.Proofs.Registry.Expectation
import LayeredAccess.Proofs.Registry.LossOrder

namespace LayeredAccess

/-- The node that a request to the directory is about. -/
def Action.announced? (a : Action) : Option String :=
  if a.kind = Action.directoryPublish then
    (a.payload.bind (·.member? "id")).bind Json.asString?
  else none

namespace Registry

variable {ν : Type} [Node ν]

/-- The request that the directory publish the value of a node. -/
def announcement (ν : Type) [Node ν] (key : String) (value : Json) : Action where
  kind := Action.directoryPublish
  payload := some (.mkObj [("kind", .str (Node.kind ν)), ("id", .str key), ("value", value)])

/-- The requests to the directory among what has been published. -/
def directory (r : Registry ν) : List Action :=
  r.published.filter fun a => a.kind = Action.directoryPublish

/-- What the directory is asked for by a task. -/
def requests [NodeKind ν] (r : Registry ν) : Task → List Action
  | .perform key .announce => ((r.value? key).map (announcement ν key)).toList
  | _ => []

/-- A request to the directory names its node. -/
theorem announced?_announcement (key : String) (value : Json) :
    (announcement ν key value).announced? = some key := by
  have hmember : (Json.mkObj [("kind", .str (Node.kind ν)), ("id", .str key),
      ("value", value)]).member? "id" = some (.str key) :=
    (KeyMap.find?_ofList (by simp [KeyMap.keys]) "id").trans (by simp [KeyMap.find?_cons])
  simp only [Action.announced?, announcement, if_true, Option.bind_some, hmember]
  rfl

/-- The notices of a kind of nodes are not taken for requests to the directory. -/
def Distinct (ν : Type) [Node ν] : Prop :=
  ∀ label, actionKind ν label ≠ Action.directoryPublish

/-- Kinds of actions differ if the names of nodes begin with other letters. -/
theorem actionKind_ne_directoryPublish (label : String)
    (h : (Node.kind ν).toList.head? ≠ some 'D') (hne : (Node.kind ν).toList ≠ []) :
    actionKind ν label ≠ Action.directoryPublish := by
  intro heq
  have hletters := congrArg (fun s => s.toList.tail.head?) heq
  rw [actionKind, Action.lifecycleKind] at hletters
  cases hkind : (Node.kind ν).toList with
  | nil => exact hne hkind
  | cons c rest =>
    simp only [String.toList_append, hkind] at hletters
    rw [hkind, List.head?_cons] at h
    exact h hletters

theorem distinct_entitlement : Distinct EntitlementNode := fun label =>
  actionKind_ne_directoryPublish label (by decide) (by decide)

theorem distinct_profile : Distinct ProfileNode := fun label =>
  actionKind_ne_directoryPublish label (by decide) (by decide)

variable {r r' : Registry ν} {tasks : List Task} {t : Task} {c : Call ν}

omit [Node ν] in
theorem directory_of_published (h : r'.published = r.published) : r'.directory = r.directory := by
  rw [directory, h, directory]

theorem requests_eq_nil [NodeKind ν] (h : ∀ key, t ≠ .perform key .announce) :
    r.requests t = [] := by
  unfold requests
  split
  · exact absurd rfl (h _)
  · rfl

/-- Only a node that is told something asks for being announced. -/
theorem exists_told_of_announce {key : String} (h : .perform key .announce ∈ (r.step t).2) :
    ∃ notice n, t = .tell key notice ∧ r.get? key = some n ∧ .announce ∈ (answer n notice).1 := by
  have hstep := steps_step r t
  generalize (r.step t).1 = r₁, (r.step t).2 = more at hstep h
  cases hstep with
  | absent | valueless | announced | rejected | unregistered | lacking | queued | uncached
  | validated | compiled => simp at h
  | @told k notice n hn =>
    obtain ⟨e, he, heq⟩ := List.mem_map.1 h
    obtain ⟨rfl, rfl⟩ := Task.perform.inj heq
    exact ⟨notice, n, rfl, hn, he⟩
  | broadcast =>
    obtain ⟨l, -, heq⟩ := List.mem_map.1 h
    cases l <;> simp at heq

/-! ## Notices of nodes -/

section Notices

variable (hdistinct : Distinct ν)
include hdistinct

theorem directory_publish (r : Registry ν) (label : String) (id : Option String)
    (payload : Option Json) :
    (r.publish { kind := actionKind ν label, id, payload }).directory = r.directory := by
  simp [directory, publish, hdistinct label]

theorem directory_publishSignal (r : Registry ν) (key : String) (s : Signal) (wide : Bool) :
    (r.publishSignal key s wide).directory = r.directory := by
  unfold publishSignal
  split
  · exact (directory_publish hdistinct _ _ _ _).trans (directory_publish hdistinct r _ _ _)
  · exact directory_publish hdistinct r _ _ _

theorem directory_publishError (r : Registry ν) (label key : String) (e : EngineError) :
    (r.publishError label key e).directory = r.directory :=
  directory_publish hdistinct r label none _

/-! ## Steps -/

/-- A step asks the directory for what its task announces. -/
theorem directory_step [NodeKind ν] (r : Registry ν) (t : Task) :
    (r.step t).1.directory = r.directory ++ r.requests t := by
  -- Announcing is the one task that makes requests.
  by_cases hannounce : ∃ key, t = .perform key .announce
  · obtain ⟨key, rfl⟩ := hannounce
    have hvalue : (r.get? key).bind Node.compiled = r.value? key := by
      rw [value?, view?]
      cases r.get? key <;> rfl
    show (r.announce key).directory = _
    simp only [announce, hvalue, requests]
    cases r.value? key with
    | none => simp
    | some x => simp [directory, publish, announcement]
  · rw [requests_eq_nil fun key he => hannounce ⟨key, he⟩, List.append_nil]
    have hstep := steps_step r t
    generalize (r.step t).1 = r₁, (r.step t).2 = more at hstep ⊢
    cases hstep with
    | absent | valueless | validated | unregistered | queued => rfl
    | told => rw [directory, published_reshape, directory]
    | announced => exact absurd ⟨_, rfl⟩ hannounce
    | broadcast => exact directory_publishSignal hdistinct r _ _ _
    | rejected | lacking => exact directory_publishError hdistinct r _ _ _
    | uncached => exact directory_publishError hdistinct _ _ _ _
    | compiled => exact directory_publishSignal hdistinct _ _ _ _

/-! ## Calls -/

/-- A call does not begin with a request to the directory. -/
theorem Opens.directory_eq (h : Opens r c r' tasks) (hc : c ≠ .collect) :
    r'.directory = r.directory := by
  cases h with
  -- Whatever is published is published on another subject.
  | stale | unmet | fetched | shared => rfl
  | refused label e => exact directory_publishError hdistinct r label _ e
  | @entered n =>
    obtain ⟨ls, hinstall⟩ := exists_install r n
    refine (directory_publishSignal hdistinct _ _ _ _).trans (directory_of_published ?_)
    rw [hinstall]
    rfl
  | adopted => exact directory_publish hdistinct _ _ _ _
  | @patched key patch n =>
    obtain ⟨nodes, listeners, graph, hpatched, -⟩ := exists_patched r key n patch
    rw [hpatched]
    exact (directory_publish hdistinct _ _ _ _).trans (directory_publish hdistinct _ _ _ _)
  | deleted | customized => exact directory_publishSignal hdistinct r _ _ _
  | cleared => exact directory_publish hdistinct _ _ _ _
  | failed => exact directory_publishError hdistinct _ _ _ _
  | arrived => exact directory_publishSignal hdistinct _ _ _ _
  | collected => exact absurd rfl hc

omit hdistinct in
theorem directory_closing (r settled : Registry ν) (c : Call ν) :
    (r.closing settled c).directory = settled.directory := by
  refine directory_of_published ?_
  cases c with
  | delete key =>
    simp only [closing]
    split
    · split
      · rfl
      · exact published_uninstall settled _ _
    · rfl
  | add | update | customize | clearCache | apply | takeOutbox | collect | share => rfl

end Notices

/-! ## Requests -/

/-- All that has been asked of the directory is to publish values of nodes. -/
def Requested (r : Registry ν) : Prop :=
  ∀ a ∈ r.directory, ∃ key value, a = announcement ν key value

theorem requested_of_eq (h : Requested r) (heq : r'.directory = r.directory) : Requested r' := by
  rw [Requested, heq]
  exact h

theorem Requested.step [NodeKind ν] (hdistinct : Distinct ν) (h : Requested r) (t : Task) :
    Requested (r.step t).1 := by
  rw [Requested, directory_step hdistinct]
  refine List.forall_mem_append.2 ⟨h, fun a ha => ?_⟩
  unfold requests at ha
  split at ha
  · next key =>
    obtain ⟨value, -, rfl⟩ := Option.map_eq_some_iff.1 (Option.mem_toList.1 ha)
    exact ⟨key, value, rfl⟩
  · simp at ha

theorem Requested.call [NodeKind ν] (hdistinct : Distinct ν) (h : Requested r) (c : Call ν) :
    Requested (r.call c) := by
  have hopening : Requested (r.opening c).1 := by
    by_cases hc : c = .collect
    · subst hc
      exact fun a ha => absurd ha List.not_mem_nil
    · exact requested_of_eq h ((opens_opening r c).directory_eq hdistinct hc)
  rw [call_eq_closing]
  refine requested_of_eq ?_ (directory_closing r _ c)
  exact Agenda.run_invariant (fun s t hs => hs.step hdistinct t) _ _ _ hopening

/-! ## Profiles -/

/-- A registry of profiles that has asked nothing of the directory does not do so in a cascade. -/
theorem directory_settle_profile {r : Registry ProfileNode}
    (htasks : ∀ t ∈ tasks, ∀ key, t ≠ .perform key .announce) :
    (r.settle tasks).directory = r.directory := by
  refine Agenda.run_invariant_of (P := fun s : Registry ProfileNode => s.directory = r.directory)
    (Q := fun t => ∀ key, t ≠ .perform key .announce)
    (fun s t hs ht => ⟨?_, fun u hu key he => ?_⟩) _ r tasks rfl htasks
  · rw [directory_step distinct_profile, requests_eq_nil ht, List.append_nil, hs]
  · subst he
    obtain ⟨notice, n, -, -, hannounce⟩ := exists_told_of_announce hu
    exact ProfileNode.announce_not_mem_answer n notice hannounce

/-- No call begins with an announcement. -/
theorem Opens.ne_announce (h : Opens r c r' tasks) :
    ∀ t ∈ tasks, ∀ key, t ≠ .perform key .announce := by
  intro t ht key
  cases h with
  | refused | adopted | stale | failed | unmet | fetched | collected | shared => simp at ht
  | entered | patched | customized | arrived =>
    obtain rfl := List.mem_singleton.1 ht
    simp
  | deleted =>
    obtain ⟨l, -, rfl⟩ := List.mem_map.1 ht
    cases l <;> simp
  | cleared =>
    obtain ⟨k, -, rfl⟩ := List.mem_map.1 ht
    simp

/-- A registry of profiles never asks anything of the directory. -/
theorem directory_reached_profile (config : EngineConfig) (verifier : Option Verifier)
    (calls : List (Call ProfileNode)) : (reached config verifier calls).directory = [] := by
  have hcalls : ∀ r : Registry ProfileNode, r.directory = [] →
      (calls.foldl Registry.call r).directory = [] := by
    induction calls with
    | nil => exact fun _ h => h
    | cons c rest ih =>
      intro r h
      refine ih (r.call c) ?_
      have hopens := opens_opening r c
      rw [call_eq_closing, directory_closing, directory_settle_profile hopens.ne_announce]
      by_cases hc : c = .collect
      · subst hc
        rfl
      · rw [hopens.directory_eq distinct_profile hc, h]
  exact hcalls _ rfl

end Registry

end LayeredAccess
