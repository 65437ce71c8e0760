/-
  LayeredAccess.Proofs.Registry.Announcements

  When the directory is told of an entitlement. It is told each time that the
  entitlement becomes dependable, unless that is implicit then, and never else
  (`announced_run`).

  The request waits behind the news to the dependents. Meanwhile only those are
  told something, and the entitlement hears what it has said itself; so it still
  holds the same value when its turn comes (`Owing`). The books are kept from
  step to step: what has emerged is what has been asked for and what is still
  owed (`Balanced`).
-/
import LayeredAccess.Proofs.Registry.DeletionOrder
import LayeredAccess.Proofs.Registry.Directory

namespace LayeredAccess

namespace Registry

open Relation

/-! ## Emergences -/

/-- Is an entitlement registered that the directory is not to be told of? -/
def isImplicit (r : Registry EntitlementNode) (key : String) : Bool :=
  (r.get? key).any (·.has .implicit)

/-- Has an entitlement become dependable, and is it not implicit? -/
def emerges (key : String) (before after : Registry EntitlementNode) : Bool :=
  !before.isDependable key && after.isDependable key && !after.isImplicit key

/-- Of registries that come one after the other, beginning with a given one, those in which an
entitlement has emerged. -/
def emergences (key : String) :
    Registry EntitlementNode → List (Registry EntitlementNode) → List (Registry EntitlementNode)
  | _, [] => []
  | before, after :: rest =>
    if emerges key before after then after :: emergences key after rest
    else emergences key after rest

/-- The registries that a call leads through: that in which its first task is done, those after
each of its steps, and that in which it ends. -/
def passed {ν : Type} [Node ν] [NodeKind ν] (r : Registry ν) (c : Call ν) : List (Registry ν) :=
  (r.opening c).1 :: (r.course c).map (fun m => (m.1.step m.2).1) ++ [r.call c]

/-- What the directory has been told of a node. -/
def announcements {ν : Type} (r : Registry ν) (key : String) : List Action :=
  r.published.filter fun a => a.announced? = some key

theorem emerges_eq_false {key : String} {r r' : Registry EntitlementNode}
    (h : r'.isDependable key = true → r.isDependable key = true) : emerges key r r' = false := by
  rw [emerges]
  cases hnow : r'.isDependable key with
  | true => rw [h hnow]; rfl
  | false => simp

theorem getLastD_append {α : Type} (xs ys : List α) (x : α) :
    (xs ++ ys).getLastD x = ys.getLastD (xs.getLastD x) := by
  induction xs generalizing x with
  | nil => rfl
  | cons y xs ih => rw [List.cons_append, List.getLastD_cons, List.getLastD_cons, ih]

theorem emergences_append (key : String) (r : Registry EntitlementNode)
    (xs ys : List (Registry EntitlementNode)) : emergences key r (xs ++ ys) =
      emergences key r xs ++ emergences key (xs.getLastD r) ys := by
  induction xs generalizing r with
  | nil => rfl
  | cons x xs ih =>
    rw [List.cons_append, emergences, emergences, List.getLastD_cons, ih]
    split <;> rfl

theorem announcements_eq {ν : Type} (r : Registry ν) (key : String) :
    r.announcements key = r.directory.filter fun a => a.announced? = some key := by
  rw [announcements, directory, List.filter_filter]
  refine List.filter_congr fun a _ => ?_
  by_cases hkind : a.kind = Action.directoryPublish <;> simp [Action.announced?, hkind]

/-! ## Books -/

/-- The books of what the directory is told of an entitlement: the values with which it emerges
are asked to be published, in this order, after what was owed before, and but for what is owed in
the end. -/
structure Balanced (key : String) (r : Registry EntitlementNode) (owed : List Json)
    (states : List (Registry EntitlementNode)) (owed' : List Json) : Prop where
  balance : ∃ gained said : List Json,
    (emergences key r states).map (·.value? key) = gained.map some ∧
    (states.getLastD r).announcements key =
      r.announcements key ++ said.map (announcement EntitlementNode key) ∧
    owed ++ gained = said ++ owed'

variable {r r' r₀ s s' : Registry EntitlementNode} {key : String} {owed owed' owed'' : List Json}
  {xs ys : List (Registry EntitlementNode)} {t : Task} {tasks rest : List Task}

theorem balanced_nil : Balanced key r owed [] owed :=
  ⟨[], [], rfl, by simp, by simp⟩

/-- Nothing is asked for, and nothing emerges. -/
theorem balanced_quiet (hdependable : s'.isDependable key = true → s.isDependable key = true)
    (hsaid : s'.announcements key = s.announcements key) : Balanced key s owed [s'] owed := by
  have hnone := emerges_eq_false hdependable
  exact ⟨[], [], by simp [emergences, hnone], by simpa using hsaid, by simp⟩

/-- Books that follow one another. -/
theorem Balanced.append (h : Balanced key r owed xs owed')
    (h' : Balanced key (xs.getLastD r) owed' ys owed'') :
    Balanced key r owed (xs ++ ys) owed'' := by
  obtain ⟨gained, said, hvalues, hsaid, hsum⟩ := h
  obtain ⟨gained', said', hvalues', hsaid', hsum'⟩ := h'
  refine ⟨gained ++ gained', said ++ said', ?_, ?_, ?_⟩
  · rw [emergences_append, List.map_append, List.map_append, hvalues, hvalues']
  · rw [getLastD_append, hsaid', hsaid, List.map_append, List.append_assoc]
  · calc owed ++ (gained ++ gained') = (owed ++ gained) ++ gained' := (List.append_assoc ..).symm
      _ = said ++ (owed' ++ gained') := by rw [hsum, List.append_assoc]
      _ = said ++ said' ++ owed'' := by rw [hsum', List.append_assoc]

theorem Balanced.cons (h : Balanced key r owed [r'] owed') (h' : Balanced key r' owed' ys owed'') :
    Balanced key r owed (r' :: ys) owed'' := h.append h'

/-! ## Steps -/

/-- The request for an entitlement waits, behind tasks that leave the entitlement alone, or there
is none. -/
inductive Owing (r₀ : Registry EntitlementNode) (key : String) (s : Registry EntitlementNode) :
    List Task → List Json → Prop
  | nothing {tasks : List Task} (hnone : .perform key .announce ∉ tasks) : Owing r₀ key s tasks []
  | value {front back : List Task} {x : Json}
    (hfront : ∀ t ∈ front,
      t.Beside r₀ key ∨ ∃ signal wide, t = .perform key (.broadcast signal wide))
    (hback : .perform key .announce ∉ back) (hvalue : s.value? key = some x) :
    Owing r₀ key s (front ++ .perform key .announce :: back) [x]

theorem Owing.eq_nil (h : Owing r₀ key s [] owed) : owed = [] := by
  generalize htasks : ([] : List Task) = tasks at h
  cases h with
  | nothing => rfl
  | value => simp at htasks

/-- A step asks the directory for the entitlement only if it announces that. -/
theorem announcements_step (h : t ≠ .perform key .announce) :
    (s.step t).1.announcements key = s.announcements key := by
  have hnone : (s.requests t).filter (fun a => a.announced? = some key) = [] := by
    unfold requests
    split
    · next k =>
      have hne : k ≠ key := fun he => h (he ▸ rfl)
      cases s.value? k <;> simp [announced?_announcement, hne]
    · rfl
  rw [announcements_eq, announcements_eq, directory_step distinct_entitlement, List.filter_append,
    hnone, List.append_nil]

/-- Only telling a node changes it. -/
theorem get?_step (h : ∀ notice, t ≠ .tell key notice) : (s.step t).1.get? key = s.get? key := by
  by_cases hnode : key = t.node
  · cases t with
    | tell k notice => exact absurd (hnode ▸ rfl) (h notice)
    | perform k effect =>
      have hstep := steps_step s (.perform k effect)
      generalize (s.step (.perform k effect)).1 = s₁, (s.step (.perform k effect)).2 = more
        at hstep ⊢
      cases hstep with
      | valueless | announced | validated | unregistered | queued | rejected | lacking | uncached
      | compiled => rfl
      | broadcast =>
        obtain ⟨published, hpublished⟩ := silent_publishSignal s k _ _
        rw [hpublished]
        rfl
  · exact (spared_step s hnode).get?_eq

/-- A step that does not tell the entitlement anything, while nothing is owed. -/
theorem balanced_step_untold (hnone : .perform key .announce ∉ t :: rest)
    (htold : ∀ notice, t ≠ .tell key notice) :
    Owing r₀ key (s.step t).1 ((s.step t).2 ++ rest) [] ∧
      Balanced key s [] [(s.step t).1] [] := by
  rw [List.mem_cons, not_or] at hnone
  refine ⟨.nothing (List.not_mem_append (fun hu => ?_) hnone.2), balanced_quiet (fun hnow => ?_) ?_⟩
  · obtain ⟨notice, n, he, -⟩ := exists_told_of_announce hu
    exact htold notice he
  · rwa [isDependable, get?_step htold] at hnow
  · exact announcements_step (Ne.symm hnone.1)

/-- A node takes the shape that it answers with. -/
theorem step_tell {n : EntitlementNode} (hn : s.get? key = some n) (notice : Notice) :
    (s.step (.tell key notice)).1.get? key = some (answer n notice).2 ∧
      (s.step (.tell key notice)).2 = (answer n notice).1.map (.perform key) := by
  have hset : (s.setNode key (answer n notice).2).get? key = some (answer n notice).2 := by
    simp [get?, setNode, KeyMap.find?_insert]
  simp only [Registry.step, tell, hn, and_true]
  split <;> exact hset

/-- An entitlement emerges, while nothing is owed. Its value is owed from now on, unless the
entitlement keeps to itself: then its dependents are told, but not the directory. -/
theorem balanced_rise {n after : EntitlementNode} (hn : s.get? key = some n)
    (hafter : s'.get? key = some after) (hwas : n.has .dependable = false)
    (hnow : after.has .dependable = true) (hheld : after.compiled.isSome = true)
    (hsaid : s'.announcements key = s.announcements key) (hrest : .perform key .announce ∉ rest) :
    ∃ owed, Owing r₀ key s' (after.announce.map (.perform key) ++ rest) owed ∧
      Balanced key s [] [s'] owed := by
  have hemerges : emerges key s s' = !after.has .implicit := by
    rw [emerges, isDependable, isDependable, isImplicit, hn, hafter]
    show (!n.has .dependable && after.has .dependable && !after.has .implicit) = _
    rw [hwas, hnow]
    rfl
  cases hflag : after.has .implicit with
  -- An implicit entitlement does not emerge, and announces nothing.
  | true =>
    rw [hflag] at hemerges
    refine ⟨[], .nothing ?_, [], [], by simp [emergences, hemerges], by simpa using hsaid, rfl⟩
    simpa [EntitlementNode.announce, hflag] using hrest
  -- Otherwise the request is among the tasks, and the value that it is about is there.
  | false =>
    rw [hflag] at hemerges
    obtain ⟨x, hx⟩ := Option.isSome_iff_exists.1 hheld
    have hvalue : s'.value? key = some x := by
      rw [value?, view?_of_get? hafter]
      exact hx
    refine ⟨[x], ?_, [x], [], by simp [emergences, hemerges, hvalue], by simpa using hsaid, rfl⟩
    have htasks : after.announce.map (Task.perform key) ++ rest =
        [.perform key (.broadcast .validated false)] ++ .perform key .announce :: rest := by
      simp [EntitlementNode.announce, hflag]
    rw [htasks]
    exact .value (by simp) hrest hvalue

/-- An entitlement is told what it expects, while nothing is owed. -/
theorem balanced_step_told (hw : Wired s) {notice : Notice} (hfrom : notice.FromNode key)
    (hexpected : (Task.tell key notice).Expected s) (hrest : .perform key .announce ∉ rest) :
    ∃ owed, Owing r₀ key (s.step (.tell key notice)).1
        ((s.step (.tell key notice)).2 ++ rest) owed ∧
      Balanced key s [] [(s.step (.tell key notice)).1] owed := by
  have hsaid : (s.step (.tell key notice)).1.announcements key = s.announcements key :=
    announcements_step (by simp)
  cases hn : s.get? key with
  | none =>
    have hstep : s.step (.tell key notice) = (s, []) := by simp only [Registry.step, tell, hn]
    rw [hstep]
    exact ⟨[], .nothing hrest, balanced_quiet id rfl⟩
  | some n =>
    have hkey : n.entitlement.id = key := hw.key_eq key _ (view?_of_get? hn)
    have hannounces := n.announces_answer (hkey.symm ▸ hfrom) (hexpected _ (view?_of_get? hn))
    obtain ⟨hget, htasks⟩ := step_tell hn notice
    generalize (s.step (.tell key notice)).1 = s', (s.step (.tell key notice)).2 = more at *
    generalize (answer n notice).2 = after, (answer n notice).1 = effects at *
    subst htasks
    -- Either the entitlement rises, or it neither emerges nor announces anything.
    cases hannounces with
    | rise hwas hnow hheld => exact balanced_rise hn hget hwas hnow hheld hsaid hrest
    | rest hkept hquiet =>
      refine ⟨[], .nothing (List.not_mem_append (fun hu => ?_) hrest), balanced_quiet ?_ hsaid⟩
      · obtain ⟨e, he, heq⟩ := List.mem_map.1 hu
        exact hquiet ((Task.perform.inj heq).2 ▸ he)
      · rw [isDependable, isDependable, hn, hget]
        exact hkept

/-- While the request waits, the entitlement is left alone. -/
theorem balanced_step_waiting (hw : Wired r₀) (hl : Linked r₀ s)
    (ht : t.Beside r₀ key ∨ ∃ signal wide, t = .perform key (.broadcast signal wide))
    (owed : List Json) :
    (s.step t).1.value? key = s.value? key ∧ Balanced key s owed [(s.step t).1] owed ∧
      ∀ u ∈ (s.step t).2, u.Beside r₀ key := by
  -- The task cannot be the request itself, as nothing lies above itself.
  have hne : t ≠ .perform key .announce := by
    rintro rfl
    rcases ht with (⟨signal, he⟩ | habove) | ⟨signal, wide, he⟩
    · simp at he
    · exact hw.not_reaches_self key habove
    · simp at he
  -- Tasks beside the entitlement do not touch it, and leave only such tasks.
  have hkept : (s.step t).1.view? key = s.view? key ∧ ∀ u ∈ (s.step t).2, u.Beside r₀ key := by
    rcases ht with hbeside | ⟨signal, wide, rfl⟩
    · have hws : Wired s := hw.of_frame hl.toFrame hl.links?_eq
      obtain ⟨haside, hmore⟩ := hws.aside_step ⟨.refl s, rfl, rfl⟩ (hl.beside_iff.2 hbeside)
      exact ⟨haside.view?_eq, fun u hu => hl.beside_iff.1 (hmore u hu)⟩
    · have hsilent := silent_publishSignal s key signal wide
      exact ⟨hsilent.alike.view?_eq key,
        fun u hu => hw.beside_of_mem_dispatch (hl.trans (linked_of_silent hsilent)) hu⟩
  obtain ⟨hview, hmore⟩ := hkept
  refine ⟨by rw [value?, hview, value?], balanced_quiet (fun hnow => ?_) (announcements_step hne),
    hmore⟩
  rwa [isDependable_congr hview] at hnow

/-- Every step keeps the books. -/
theorem Owing.step (h : Owing r₀ key s (t :: rest) owed) (hw : Wired r₀) (hl : Linked r₀ s)
    (hproper : t.Proper) (hexpected : t.Expected s) :
    ∃ owed', Owing r₀ key (s.step t).1 ((s.step t).2 ++ rest) owed' ∧
      Balanced key s owed [(s.step t).1] owed' := by
  generalize htasks : t :: rest = tasks at h
  cases h with
  | nothing hnone =>
    subst htasks
    by_cases htold : ∃ notice, t = .tell key notice
    · obtain ⟨notice, rfl⟩ := htold
      rw [List.mem_cons, not_or] at hnone
      have hws : Wired s := hw.of_frame hl.toFrame hl.links?_eq
      exact balanced_step_told hws hproper hexpected hnone.2
    · exact ⟨[], balanced_step_untold hnone fun notice he => htold ⟨notice, he⟩⟩
  | @value front back x hfront hback hvalue =>
    cases front with
    | nil =>
      -- It is the turn of the request.
      obtain ⟨rfl, rfl⟩ := List.cons.inj htasks
      have hget : (s.step (.perform key .announce)).1.get? key = s.get? key := get?_step (by simp)
      refine ⟨[], .nothing hback, [], [x], ?_, ?_, rfl⟩
      · have hnone : emerges key s (s.step (.perform key .announce)).1 = false :=
          emerges_eq_false fun hnow => by rwa [isDependable, hget] at hnow
        simp [emergences, hnone]
      · show (s.step (.perform key .announce)).1.announcements key = _
        rw [announcements_eq, announcements_eq, directory_step distinct_entitlement,
          List.filter_append]
        simp [requests, hvalue, announced?_announcement]
    | cons u front =>
      rw [List.cons_append] at htasks
      obtain ⟨rfl, rfl⟩ := List.cons.inj htasks
      obtain ⟨hturn, hlater⟩ := List.forall_mem_cons.1 hfront
      obtain ⟨hsame, hbalanced, hmore⟩ := balanced_step_waiting hw hl hturn [x]
      refine ⟨[x], ?_, hbalanced⟩
      rw [← List.append_assoc]
      refine .value (List.forall_mem_append.2 ⟨fun u hu => .inl (hmore u hu), hlater⟩) hback ?_
      rw [hsame, hvalue]

/-! ## Runs -/

/-- A cascade keeps the books: when it is over, nothing is owed. -/
theorem balanced_path (hw : Wired r₀) {bound : Nat} (hl : Linked r₀ s)
    (hproper : ∀ t ∈ tasks, t.Proper)
    (hexpected : ∀ m ∈ Agenda.moments Registry.step bound s tasks, m.2.Expected m.1)
    (hrun : Agenda.run Registry.step bound s tasks = (s', [])) (h : Owing r₀ key s tasks owed) :
    Balanced key s owed (Agenda.path Registry.step bound s tasks) [] := by
  -- What is owed is carried along the path.
  induction bound generalizing s tasks owed with
  | zero =>
    cases tasks with
    | nil =>
      obtain rfl := h.eq_nil
      exact balanced_nil
    | cons t rest => simp [Agenda.run] at hrun
  | succ n ih =>
    cases tasks with
    | nil =>
      obtain rfl := h.eq_nil
      rw [Agenda.path_nil]
      exact balanced_nil
    | cons t rest =>
      obtain ⟨ht, hrest⟩ := List.forall_mem_cons.1 hproper
      rw [Agenda.moments_succ, List.forall_mem_cons] at hexpected
      rw [Agenda.run_succ] at hrun
      obtain ⟨owed', hnext, hbalanced⟩ := h.step hw hl ht hexpected.1
      have hws : Wired s := hw.of_frame hl.toFrame hl.links?_eq
      have hmore : ∀ u ∈ (s.step t).2 ++ rest, u.Proper :=
        List.forall_mem_append.2 ⟨fun u hu => hws.proper_of_mem_step hu, hrest⟩
      rw [Agenda.path_succ]
      exact hbalanced.cons (ih (hl.trans (linked_step s t)) hmore hexpected.2 hrun hnext)

/-! ## Calls -/

/-- Nothing becomes dependable before the first task of an operation. -/
theorem Coherent.isDependable_opening {verifier : Option Verifier} (h : Coherent verifier r)
    {c : Call EntitlementNode}
    (hfresh : ∀ n, c = .add n → ∃ definition, NodeKind.ofDefinition definition = n)
    (hnow : (r.opening c).1.isDependable key = true) : r.isDependable key = true := by
  have hopens := opens_opening r c
  generalize (r.opening c).1 = r', (r.opening c).2 = tasks at hopens hnow
  have hsame : Unmoved r r' → r.isDependable key = true :=
    fun hu => (hu.isDependable_eq key).symm.trans hnow
  have hsilent : Silent r r' → r.isDependable key = true := fun hs => hsame hs.alike.toUnmoved
  -- Only what is entered, replaced or reset looks different, and none of these is dependable unless
  -- it was before.
  cases hopens with
  | stale => exact hnow
  | refused | collected => exact hsilent ⟨_, rfl⟩
  | deleted | customized => exact hsilent (silent_publishSignal r _ _ true)
  | fetched | shared => exact hnow
  | failed | unmet | arrived => exact hnow
  | adopted hn _ hneeds =>
    exact hsame ((alike_setNode_patch hn hneeds).trans (Silent.alike ⟨_, rfl⟩)).toUnmoved
  | @entered n hnew hcheck =>
    obtain ⟨definition, rfl⟩ := hfresh n rfl
    have he := h.entered definition hnew hcheck
    rw [isDependable_set he.view?_eq] at hnow
    split at hnow
    · rw [← he.fallen_eq, NodeView.fallen_dependable] at hnow
      simp at hnow
    · exact hnow
  | patched hn hcheck =>
    obtain ⟨v', hr⟩ := h.replaced_patched hn hcheck
    rw [isDependable_set hr.view?_eq] at hnow
    split at hnow
    · next hkey => rw [hkey, isDependable_of_view? hr.before, ← hr.dependable_eq, hnow]
    · exact hnow
  | cleared =>
    rw [isDependable_eq, view?_resetAll] at hnow
    cases hv : r.view? key with
    | none => simp [hv] at hnow
    | some v => simp [hv, NodeView.forgotten, NodeView.dependable] at hnow

/-- Nothing becomes dependable when a node is taken out in the end. -/
theorem isDependable_closing {settled : Registry EntitlementNode} (hw : Wired settled)
    {c : Call EntitlementNode} (hnow : (r.closing settled c).isDependable key = true) :
    settled.isDependable key = true := by
  cases c with
  | delete k =>
    simp only [closing] at hnow
    split at hnow
    · split at hnow
      · exact hnow
      · next n hn =>
        obtain ⟨-, hview, -⟩ := uninstall_spec hw (view?_of_get? hn)
        change ∀ i, (settled.uninstall k (Node.dependencies n)).view? i = _ at hview
        rw [isDependable_eq, hview] at hnow
        split at hnow
        · simp at hnow
        · rwa [isDependable_eq]
    · exact hnow
  | add | update | customize | clearCache | apply | takeOutbox | collect | share => exact hnow

end Registry

/-! ## Sessions -/

namespace Session

open Registry

/-- The registries that a session leads through, event by event. -/
def trail {ν : Type} [Node ν] [NodeKind ν] (s : Session ν) :
    List (Event ν) → List (Registry ν)
  | [] => []
  | event :: rest =>
    (match event.call? s with
      | none => []
      | some c => s.registry.passed c) ++ (s.step event).trail rest

variable {s : Session EntitlementNode} {verifier : Option Verifier}

theorem Event.fresh_of_call? {event : Event EntitlementNode} {c : Call EntitlementNode}
    (hc : event.call? s = some c) :
    c ≠ .collect ∧ ∀ n, c = .add n → ∃ definition, NodeKind.ofDefinition definition = n := by
  cases event with
  | operate operation =>
    obtain rfl := Option.some.inj hc
    exact ⟨by cases operation <;> simp [Operation.toCall],
      fun n hn => operation.exists_definition hn⟩
  | takeOutbox =>
    obtain rfl := Option.some.inj hc
    exact ⟨by simp, by simp⟩
  | answer place result =>
    obtain ⟨job, -, rfl⟩ := Option.map_eq_some_iff.1 hc
    exact ⟨by simp, by simp⟩

/-- A call keeps the books. -/
theorem Invariant.balanced_passed (h : s.Invariant verifier) (hs : Structured s.registry)
    {event : Event EntitlementNode} {c : Call EntitlementNode} (hc : event.call? s = some c)
    (key : String) : Balanced key s.registry [] (s.registry.passed c) [] := by
  obtain ⟨hcollect, hfresh⟩ := Event.fresh_of_call? hc
  have hopens := opens_opening s.registry c
  have hw : Wired (s.registry.opening c).1 := (hs.opening c).toWired
  have hsettled := hs.exists_settled c
  have hlast : (Agenda.path Registry.step ((s.registry.opening c).1.cascadeBound
      (s.registry.opening c).2) (s.registry.opening c).1 (s.registry.opening c).2).getLastD
        (s.registry.opening c).1 = (s.registry.opening c).1.settle (s.registry.opening c).2 := by
    rw [Agenda.getLastD_path, hsettled]
  -- Neither the beginning nor the end of the call has anything to do with the directory.
  have hopening : Balanced key s.registry [] [(s.registry.opening c).1] [] :=
    balanced_quiet (h.coherent.isDependable_opening hfresh)
      (by
        rw [announcements_eq, announcements_eq,
          hopens.directory_eq distinct_entitlement hcollect])
  have hpath := balanced_path hw (.refl _) hopens.proper (h.expected hc) hsettled
    (.nothing fun hu => hopens.ne_announce _ hu key rfl)
  have hclosing : Balanced key ((s.registry.opening c).1.settle (s.registry.opening c).2) []
      [s.registry.call c] [] := by
    refine balanced_quiet (fun hnow => ?_) ?_
    · have hl := linked_settle (s.registry.opening c).1 (s.registry.opening c).2
      rw [call_eq_closing] at hnow
      exact isDependable_closing (hw.of_frame hl.toFrame hl.links?_eq) hnow
    · rw [announcements_eq, announcements_eq, call_eq_closing, directory_closing]
  refine (hopening.cons hpath).append ?_
  rw [List.getLastD_cons]
  exact hlast.symm ▸ hclosing

/-- A session keeps the books. -/
theorem Invariant.balanced_trail (h : s.Invariant verifier) (hs : Structured s.registry)
    (events : List (Event EntitlementNode)) (key : String) :
    Balanced key s.registry [] (s.trail events) [] ∧
      (s.trail events).getLastD s.registry = (s.run events).registry := by
  -- The books of a call are added to those of the calls after it.
  induction events generalizing s with
  | nil => exact ⟨balanced_nil, rfl⟩
  | cons event rest ih =>
    have hregistry := registry_step s event
    have hnext : Structured (s.step event).registry := by
      rw [hregistry]
      split
      · exact hs
      · exact hs.call _
    obtain ⟨hlater, hend⟩ := ih (h.step event) hnext
    show Balanced key s.registry [] (_ ++ (s.step event).trail rest) [] ∧
      (_ ++ (s.step event).trail rest).getLastD s.registry = ((s.step event).run rest).registry
    rw [getLastD_append]
    cases hc : event.call? s with
    | none =>
      rw [hc] at hregistry
      rw [hregistry] at hlater hend
      exact ⟨hlater, hend⟩
    | some c =>
      rw [hc] at hregistry
      have hlast : (s.registry.passed c).getLastD s.registry = (s.step event).registry := by
        rw [passed, getLastD_append, hregistry]
        rfl
      refine ⟨(h.balanced_passed hs hc key).append ?_, ?_⟩
      · rw [hlast]
        exact hlater
      · rw [hlast]
        exact hend

/-- In a session all that is asked of the directory is to publish values. -/
theorem requested_run (h : Requested s.registry) (events : List (Event EntitlementNode)) :
    Requested (s.run events).registry := by
  induction events using List.reverseRecOn with
  | nil => exact h
  | append_singleton events event ih =>
    rw [run_concat, registry_step]
    cases event.call? (s.run events) with
    | none => exact ih
    | some c => exact ih.call distinct_entitlement c

/-- What the directory is told in a session of entitlements: for each time that an entitlement
becomes dependable while it is not implicit, and in this order, it is asked once to publish, under
the name of the entitlement, the value that the entitlement holds then. It is told nothing else. A
registry of profiles tells the directory nothing, whatever is done to it. Generations do not wrap:
this is about fewer than `2 ^ 64` compile requests. -/
theorem announced_run (config : EngineConfig) (verifier : Option Verifier) :
    (∀ (events : List (Event EntitlementNode)) (key : String),
      let s : Session EntitlementNode := start config verifier
      ∃ values : List Json,
        (emergences key s.registry (s.trail events)).map (·.value? key) = values.map some ∧
        (s.run events).registry.announcements key =
          values.map (announcement EntitlementNode key)) ∧
    (∀ events : List (Event EntitlementNode),
      Requested ((start config verifier).run events).registry) ∧
    (∀ calls : List (Call ProfileNode), (reached config verifier calls).directory = []) := by
  refine ⟨fun events key => ?_, fun events => ?_, directory_reached_profile config verifier⟩
  · have hinvariant := invariant_start (ν := EntitlementNode) config verifier
    have hs : Structured (start config verifier : Session EntitlementNode).registry :=
      structured_fresh config verifier
    obtain ⟨⟨gained, said, hvalues, hsaid, hsum⟩, hend⟩ :=
      hinvariant.balanced_trail hs events key
    obtain rfl : gained = said := by simpa using hsum
    rw [hend] at hsaid
    exact ⟨gained, hvalues, hsaid⟩
  · exact requested_run (fun a ha => absurd ha List.not_mem_nil) events

/-- An entitlement emerges when it is entered, but not when it is switched off and then on again as
an implicit one. -/
example :
    let s : Session EntitlementNode := start {} none
    let events : List (Event EntitlementNode) :=
      [.operate (.add ({ id := "base" } : Entitlement)), .operate (.customize "base" .empty),
        .operate (.customize "base" (.active ||| .implicit))]
    ((emergences "base" s.registry (s.trail events)).length,
      ((s.run events).registry.announcements "base").length) = (1, 1) := by
  decide +kernel

end Session

end LayeredAccess
