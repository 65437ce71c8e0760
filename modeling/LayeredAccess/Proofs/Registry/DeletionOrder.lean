/-
  LayeredAccess.Proofs.Registry.DeletionOrder

  Who hears of a deletion, and in which order. The channel is told listener by
  listener, as they have subscribed (`Structured.heard_eq`), and each is done
  with all that follows before the next one hears. So a dependent that stands
  ahead of the node that is deleted says that it has become invalid before the
  node does, if it was dependable (`Coherent.not_subjectFirst`); one that was
  not has nothing to say (`Structured.subjectFirst`).
-/
import LayeredAccess.Proofs.Registry.Ledger
import LayeredAccess.Proofs.Registry.Precedence
import LayeredAccess.Proofs.Registry.Returning
import Mathlib.Data.Set.List

namespace LayeredAccess

/-! ## Sorts of tasks -/

namespace Agenda

variable {σ τ : Type} {step : σ → τ → σ × List τ} {s s' : σ} {tasks : List τ}

/-- If no task of some sort is left by another, then a run does the tasks of that sort with which
it begins, in order. -/
theorem filterMap_moments_eq {κ : Type} {P : σ → List τ → Prop} (sort : τ → Option κ)
    (hstep : ∀ s t rest, P s (t :: rest) → P (step s t).1 ((step s t).2 ++ rest))
    (hnone : ∀ s t rest, P s (t :: rest) → ∀ u ∈ (step s t).2, sort u = none) {bound : Nat}
    (h : P s tasks) (hrun : run step bound s tasks = (s', [])) :
    (moments step bound s tasks).filterMap (fun m => sort m.2) = tasks.filterMap sort := by
  induction bound generalizing s tasks with
  | zero =>
    cases tasks with
    | nil => rfl
    | cons t rest => simp [run] at hrun
  | succ n ih =>
    cases tasks with
    | nil => simp
    | cons t rest =>
      have hmore : (step s t).2.filterMap sort = [] :=
        List.filterMap_eq_nil_iff.2 (hnone s t rest h)
      have hrest := ih (hstep s t rest h) (run_succ n s t rest ▸ hrun)
      rw [List.filterMap_append, hmore, List.nil_append] at hrest
      rw [moments_succ, List.filterMap_cons, List.filterMap_cons, hrest]

/-- What every step with a task of some sort keeps holds when all are finished, if such tasks only
leave tasks of that sort. -/
theorem Finishes.invariant_of {P : σ → Prop} {Q : τ → Prop}
    (hstep : ∀ s t, P s → Q t → P (step s t).1 ∧ ∀ u ∈ (step s t).2, Q u)
    (h : Finishes step s tasks s') (hs : P s) (htasks : ∀ t ∈ tasks, Q t) : P s' := by
  induction h with
  | nil => exact hs
  | cons _ _ ih ih' =>
    obtain ⟨ht, hrest⟩ := List.forall_mem_cons.1 htasks
    obtain ⟨hnext, hmore⟩ := hstep _ _ hs ht
    exact ih' (ih hnext hmore) hrest

end Agenda

/-- Losses make nodes invalid, and nothing worse. -/
theorem NodeView.Answers.eq_invalidated {verifies : Bool} {v v' : NodeView} {notice : Notice}
    {effects : List Effect} (h : v.Answers verifies notice effects v') (hnotice : notice.IsLoss) :
    ∀ e ∈ effects, ∃ wide, e = .broadcast .invalidated wide := by
  cases h with
  | echo | unasked | invalidated => simp
  | added | received | accepted | validated | updated | customized =>
    simp [Notice.IsLoss, Registry.IsLoss] at hnotice
  | deleted hloss => cases hloss <;> simp
  | learnt hlearns =>
    cases hlearns with
    | nothing | noted => simp
    | regained => simp [Notice.IsLoss, Registry.IsLoss] at hnotice
    | lost => split <;> simp

namespace Registry

open Relation

/-- The listener that hears of a deletion when a task is done. -/
def Task.hears : Task → Option Listener
  | .tell k (.own .deleted .registry) => some (.owner k)
  | .tell k (.dependency _ .deleted) => some (.dependent k)
  | _ => none

variable {ν : Type} [Node ν]

/-- During the deletion of a node, no other has been said to be invalid by the time the followers
of the node learn that it is. -/
def SubjectFirst (r : Registry ν) (key : String) : Prop :=
  ((r.delete key).2.published.drop r.published.length).Pairwise fun earlier later =>
    isInvalid ν later = true → later.id = some key → isInvalid ν earlier = true →
      earlier.id = some key

variable [NodeKind ν] {r r' s s' : Registry ν} {key j : String}

/-! ## Hearing in turn -/

section Turns

/-- A task of a deletion: what is told is a loss, and nothing but the beginning of the call speaks
of the deletion itself. -/
structure Task.OfDeletion (t : Task) : Prop where
  proper : t.Proper
  isLoss : t.IsLoss
  ne_deleted : ∀ k wide, t ≠ .perform k (.broadcast .deleted wide)

omit [Node ν] [NodeKind ν] in
theorem ofDeletion_of_mem_dispatch {u : Task} (hu : u ∈ r.dispatch key .deleted .registry) :
    u.OfDeletion := by
  obtain ⟨l, -, rfl⟩ := List.mem_map.1 hu
  cases l <;> exact ⟨trivial, .inr rfl, by simp⟩

variable [LawfulNode ν] [CandidNode ν]

/-- In the course of a deletion nobody hears of it but those who are told in the beginning. -/
theorem Wired.hears_of_mem_step (hw : Wired r) {t u : Task} (ht : t.OfDeletion)
    (hu : u ∈ (r.step t).2) : u.OfDeletion ∧ u.hears = none := by
  have hproper := hw.proper_of_mem_step hu
  have hloss := hw.isLoss_of_mem_step ht.proper ht.isLoss hu
  -- The answers to losses are invalidations, which do not speak of the deletion.
  cases ensues_of_mem_step hu with
  | @told k notice n e hn he =>
    obtain ⟨v', hanswers, -⟩ := hw.exists_answers hn ht.proper
    obtain ⟨wide, rfl⟩ := hanswers.eq_invalidated ht.isLoss e he
    exact ⟨⟨hproper, hloss, by simp⟩, rfl⟩
  | @broadcast k signal wide _ hu =>
    have hsignal : signal ≠ .deleted := fun hs => ht.ne_deleted k wide (hs ▸ rfl)
    obtain ⟨l, -, rfl⟩ := List.mem_map.1 hu
    cases l with
    | owner i => exact ⟨⟨hproper, hloss, by simp⟩, by cases signal <;> rfl⟩
    | dependent i =>
      refine ⟨⟨hproper, hloss, by simp⟩, ?_⟩
      cases signal with
      | deleted => exact absurd rfl hsignal
      | added | updated | compiled | validated | invalidated | customized => rfl
  | validated | compiled => exact ht.isLoss.elim

variable [LinkedNode ν]

/-- All who listen to the channel of a node hear of its deletion, in the order in which they have
subscribed. -/
theorem Structured.heard_eq (h : Structured r) (hmay : r.deletable key = true) :
    (r.course (.delete key)).filterMap (fun m => m.2.hears) = r.listenersOf key := by
  let told := r.publishSignal key .deleted true
  have hopening : r.opening (.delete key) = (told, told.dispatch key .deleted .registry) :=
    opening_delete hmay
  have hrun := h.exists_settled (.delete key)
  have hw : Wired (r.opening (.delete key)).1 := (h.opening (.delete key)).toWired
  rw [hopening] at hrun hw
  let P : Registry ν → List Task → Prop := fun s ts => Wired s ∧ ∀ t ∈ ts, t.OfDeletion
  -- Only the tasks that the call begins with are heard.
  have hcourse : (r.course (.delete key)).filterMap (fun m => m.2.hears) =
      (told.dispatch key .deleted .registry).filterMap Task.hears := by
    rw [course, hopening]
    refine Agenda.filterMap_moments_eq (P := P) Task.hears (fun s t rest hP => ?_)
      (fun s t rest hP u hu => ?_) ⟨hw, fun u hu => ofDeletion_of_mem_dispatch hu⟩ hrun
    · obtain ⟨ht, hrest⟩ := List.forall_mem_cons.1 hP.2
      have hl := linked_step s t
      exact ⟨hP.1.of_frame hl.toFrame hl.links?_eq, List.forall_mem_append.2
        ⟨fun u hu => (hP.1.hears_of_mem_step ht hu).1, hrest⟩⟩
    · exact (hP.1.hears_of_mem_step (hP.2 t List.mem_cons_self) hu).2
  have hlisteners : told.listenersOf key = r.listenersOf key :=
    (silent_publishSignal r key .deleted true).listenersOf_eq key
  rw [hcourse, dispatch, List.filterMap_map, hlisteners]
  refine (List.filterMap_congr fun l _ => ?_).trans List.filterMap_some
  cases l <;> rfl

omit [LawfulNode ν] [CandidNode ν] [LinkedNode ν] in
/-- A node is the first to hear of its deletion if and only if no dependent is ahead of it. -/
theorem Wired.head?_eq_owner_iff (hw : Wired r) (hmay : r.deletable key = true) :
    (r.listenersOf key).head? = some (.owner key) ↔ ∀ j, ¬ r.Ahead key j := by
  obtain ⟨n, hn, -⟩ := deletable_iff.1 hmay
  have howner : .owner key ∈ r.listenersOf key :=
    (hw.mem_listenersOf key _).2 ⟨rfl, by rw [view?_of_get? hn]; rfl⟩
  have hlistens := hw.mem_listenersOf key
  have hnodup := hw.nodup key
  unfold Ahead
  -- The channel is not empty, as the node listens to it.
  cases hlist : r.listenersOf key with
  | nil =>
    rw [hlist] at howner
    simp at howner
  | cons l ls =>
    rw [hlist] at howner hlistens hnodup
    rw [List.head?_cons, Option.some.injEq]
    constructor
    · rintro rfl j hahead
      cases hahead with
      | cons _ hrest => exact (List.nodup_cons.1 hnodup).1 (hrest.subset (by simp))
    · intro hfirst
      cases l with
      | owner i => rw [((hlistens (.owner i)).1 List.mem_cons_self).1]
      | dependent j =>
        refine absurd ?_ (hfirst j)
        have hlater : .owner key ∈ ls := (List.mem_cons.1 howner).resolve_left (by simp)
        exact (List.singleton_sublist.2 hlater).cons_cons (.dependent j)

end Turns

/-! ## What goes on beside a node -/

section Aside

omit [NodeKind ν] in
/-- What has been published is not taken back. -/
theorem prefix_step (r : Registry ν) (t : Task) : r.published <+: (r.step t).1.published := by
  have hstep := steps_step r t
  generalize (r.step t).1 = r₁, (r.step t).2 = more at hstep ⊢
  cases hstep with
  | absent | valueless | validated | unregistered | queued => exact List.prefix_rfl
  | told => simp only [published_reshape, List.prefix_rfl]
  | broadcast =>
    unfold publishSignal
    split
    · exact (List.prefix_append _ _).trans (List.prefix_append _ _)
    · exact List.prefix_append _ _
  | announced | rejected | lacking | uncached | compiled => exact List.prefix_append _ _

omit [NodeKind ν] in
theorem prefix_of_finishes {tasks : List Task} (h : Agenda.Finishes step s tasks s') :
    s.published <+: s'.published :=
  h.invariant_of (P := fun s' => s.published <+: s'.published) (Q := fun _ => True)
    (fun s' t hs' _ => ⟨hs'.trans (prefix_step s' t), fun _ _ => trivial⟩) List.prefix_rfl
    fun _ _ => trivial

omit [NodeKind ν] in
/-- A node that says that it is invalid has said so in the end. -/
theorem prefix_of_invalidated {rest : List Task} {wide : Bool}
    (h : Agenda.Finishes step s (.perform j (.broadcast .invalidated wide) :: rest) s') :
    s.published ++ invalidNotices ν j false <+: s'.published := by
  cases h with
  | cons hleft hrest =>
    refine List.IsPrefix.trans ?_ ((prefix_of_finishes hleft).trans (prefix_of_finishes hrest))
    show _ <+: (s.publishSignal j .invalidated wide).published
    cases wide with
    | false => exact List.prefix_rfl
    | true => exact List.prefix_append _ _

/-- What has been done has left a node and what its followers know of it alone. -/
structure Aside (key : String) (s s' : Registry ν) : Prop where
  linked : Linked s s'
  view?_eq : s'.view? key = s.view? key
  actionsOf_eq : s'.actionsOf key = s.actionsOf key

/-- Tasks that leave a node alone: it hears what it has said itself, or they are about nodes that
depend on it. -/
def Task.Beside (r : Registry ν) (key : String) (t : Task) : Prop :=
  (∃ signal, t = .tell key (.own signal (.node key))) ∨ TransGen r.DependsOn t.node key

/-- What a node says leaves it alone. -/
theorem Wired.beside_of_mem_dispatch (hw : Wired r) (hl : Linked r s) {signal : Signal} {t : Task}
    (ht : t ∈ s.dispatch key signal (.node key)) : t.Beside r key := by
  obtain ⟨l, hlisten, rfl⟩ := List.mem_map.1 ht
  have hlistens := ((hw.of_frame hl.toFrame hl.links?_eq).mem_listenersOf key l).1 hlisten
  cases l with
  | owner k =>
    obtain rfl : k = key := hlistens.1
    exact .inl ⟨signal, rfl⟩
  | dependent j =>
    obtain ⟨v, hv, hmem⟩ := hlistens
    obtain ⟨m, hm, rfl⟩ := exists_get? hv
    exact .inr (.single ((dependsOn_congr (hl.links?_eq j) key).1 ⟨m, hm, hmem⟩))

/-- What leaves a node alone goes by the links. -/
theorem Linked.beside_iff (h : Linked r s) {t : Task} : t.Beside s key ↔ t.Beside r key := by
  have hdepends : s.DependsOn = r.DependsOn := by
    funext a b
    exact propext (dependsOn_congr (h.links?_eq a) b)
  unfold Task.Beside
  rw [hdepends]

variable [LawfulNode ν] [LinkedNode ν]

/-- Tasks that leave a node alone lead to such tasks. -/
theorem Wired.aside_step (hw : Wired r) (h : Aside key r s) {t : Task} (ht : t.Beside r key) :
    Aside key r (s.step t).1 ∧ ∀ u ∈ (s.step t).2, u.Beside r key := by
  have hws : Wired s := hw.of_frame h.linked.toFrame h.linked.links?_eq
  have hlinked := h.linked.trans (linked_step s t)
  -- Either the node hears its own echo, or the task is about a node above it.
  rcases ht with ⟨signal, rfl⟩ | habove
  · have hactions : (s.step (.tell key (.own signal (.node key)))).1.actionsOf key =
        r.actionsOf key := by
      rw [actionsOf, Registry.step, published_tell]
      exact h.actionsOf_eq
    cases hn : s.get? key with
    | none =>
      have hstep : s.step (.tell key (.own signal (.node key))) = (s, []) := by
        simp only [Registry.step, tell, hn]
      rw [hstep]
      exact ⟨h, by simp⟩
    | some n =>
      have hsome : (s.view? key).isSome = true := by
        rw [view?_of_get? hn]
        rfl
      obtain ⟨s₁, htell, ha⟩ := hws.tell_echo hsome signal
      have hstep : s.step (.tell key (.own signal (.node key))) = (s₁, []) := htell
      rw [hstep] at hactions hlinked ⊢
      exact ⟨⟨hlinked, (ha.view?_eq key).trans h.view?_eq, hactions⟩, by simp⟩
  · have hne : key ≠ t.node := by
      rintro rfl
      exact hw.not_reaches_self t.node habove
    have hspared := spared_step s hne
    refine ⟨⟨hlinked, ?_, hspared.actionsOf_eq.trans h.actionsOf_eq⟩, fun u hu => .inr ?_⟩
    · rw [view?, hspared.get?_eq]
      exact h.view?_eq
    · have hreaches := hws.reaches_of_mem_step hu
      rw [h.linked.reaches_eq] at hreaches
      rcases hreaches with heq | hmore
      · exact heq ▸ habove
      · exact hmore.trans habove

theorem Wired.aside_of_finishes (hw : Wired r) {tasks : List Task}
    (htasks : ∀ t ∈ tasks, t.Beside r key) (hl : Linked r s)
    (h : Agenda.Finishes step s tasks s') : Aside key s s' := by
  have hws : Wired s := hw.of_frame hl.toFrame hl.links?_eq
  exact h.invariant_of (fun s₁ t hs₁ ht => hws.aside_step hs₁ ht) ⟨.refl s, rfl, rfl⟩
    fun t ht => hl.beside_iff.2 (htasks t ht)

end Aside

/-! ## The turns of a deletion -/

section Deletion

/-- How a dependent is told that a node is deleted. -/
def deletionTo (key j : String) : Task := .tell j (.dependency key .deleted)

/-- The channel of a node: those who are ahead of it, the node, and the others. -/
theorem Wired.exists_channel (hw : Wired r) (hmay : r.deletable key = true) :
    ∃ pre post : List String,
      r.listenersOf key = pre.map .dependent ++ .owner key :: post.map .dependent ∧
        pre.Nodup ∧ ∀ j, r.Ahead key j ↔ j ∈ pre := by
  obtain ⟨n, hn, -⟩ := deletable_iff.1 hmay
  have howner : .owner key ∈ r.listenersOf key :=
    (hw.mem_listenersOf key _).2 ⟨rfl, by rw [view?_of_get? hn]; rfl⟩
  obtain ⟨ls, ls', hlist⟩ := List.append_of_mem howner
  have hnodup := hw.nodup key
  rw [hlist, List.nodup_middle, List.nodup_cons, List.mem_append, not_or] at hnodup
  obtain ⟨⟨hpre, hpost⟩, hnodup⟩ := hnodup
  -- All but the node itself are dependents.
  have hdependent : ∀ l ∈ r.listenersOf key, l ≠ .owner key → l ∈ Set.range Listener.dependent := by
    intro l hl hne
    cases l with
    | owner k => exact absurd (congrArg _ ((hw.mem_listenersOf key _).1 hl).1) hne
    | dependent j => exact ⟨j, rfl⟩
  have hexists : ∀ xs : List Listener, (∀ l ∈ xs, l ∈ r.listenersOf key) → .owner key ∉ xs →
      ∃ js : List String, js.map .dependent = xs := by
    intro xs hxs hnot
    have hrange : xs ∈ Set.range (List.map Listener.dependent) := by
      rw [Set.range_list_map]
      exact fun l hl => hdependent l (hxs l hl) fun he => hnot (he ▸ hl)
    exact hrange
  obtain ⟨pre, rfl⟩ := hexists ls (fun l hl => hlist ▸ List.mem_append_left _ hl) hpre
  obtain ⟨post, rfl⟩ := hexists ls'
    (fun l hl => hlist ▸ List.mem_append_right _ (List.mem_cons_of_mem _ hl)) hpost
  refine ⟨pre, post, hlist, (hnodup.sublist (List.sublist_append_left _ _)).of_map _, fun j => ?_⟩
  have hplace : r.listenersOf key =
      pre.map Listener.dependent ++ [.owner key] ++ post.map .dependent := by simp [hlist]
  rw [Ahead, hplace, pair_sublist_append hpost, pair_sublist_concat_self hpre]
  exact List.mem_map_of_injective fun _ _ h => Listener.dependent.inj h

variable [LawfulNode ν] [CandidNode ν] [LinkedNode ν]

/-- In a deletion the node is told between those who are ahead of it and the others. -/
theorem Structured.exists_turns (h : Structured r) (hmay : r.deletable key = true)
    {pre post : List String}
    (hlist : r.listenersOf key = pre.map .dependent ++ .owner key :: post.map .dependent) :
    ∃ before settled,
      Agenda.Finishes step (r.publishSignal key .deleted true) (pre.map (deletionTo key)) before ∧
      Agenda.Finishes step before
        (.tell key (.own .deleted .registry) :: post.map (deletionTo key)) settled ∧
      (r.delete key).2.published = settled.published := by
  let told := r.publishSignal key .deleted true
  obtain ⟨n, hn, hcheck⟩ := deletable_iff.1 hmay
  obtain ⟨-, m, -, heq⟩ := exists_delete hn hcheck
  have hopening : r.opening (.delete key) = (told, told.dispatch key .deleted .registry) :=
    opening_delete hmay
  have hfinishes := Agenda.finishes_of_run (h.exists_settled (.delete key))
  rw [hopening] at hfinishes
  change Agenda.Finishes step told (told.dispatch key .deleted .registry) _ at hfinishes
  -- The tasks are those of the channel, in its order.
  have htasks : told.dispatch key .deleted .registry =
      pre.map (deletionTo key) ++
        .tell key (.own .deleted .registry) :: post.map (deletionTo key) := by
    have hlisteners : told.listenersOf key = r.listenersOf key :=
      (silent_publishSignal r key .deleted true).listenersOf_eq key
    rw [dispatch, hlisteners, hlist, List.map_append, List.map_cons, List.map_map, List.map_map]
    rfl
  have hpublished : (r.delete key).2.published =
      (told.settle (told.dispatch key .deleted .registry)).published := by
    rw [heq, published_uninstall]
  rw [htasks] at hfinishes hpublished
  obtain ⟨before, hbefore, hafter⟩ := hfinishes.split
  exact ⟨before, _, hbefore, hafter, hpublished⟩

omit [LinkedNode ν] in
/-- A dependent that is not dependable has nothing to say when the node is deleted. -/
theorem step_undependable (key : String) (hj : s.isDependable j = false) :
    ∃ s₁, s.step (deletionTo key j) = (s₁, []) ∧ s₁.published = s.published ∧
      ∀ i, s.isDependable i = false → s₁.isDependable i = false := by
  cases hn : s.get? j with
  | none =>
    refine ⟨s, ?_, rfl, fun _ hi => hi⟩
    simp only [deletionTo, Registry.step, tell, hn]
  | some n =>
    obtain ⟨effects, v', hlearns, hreacts⟩ := CandidNode.learns n key .deleted
    obtain ⟨s₁, htell, hc⟩ := tell_eq hn hreacts
    have hplain : (Node.view n).dependable = false :=
      (isDependable_of_view? (view?_of_get? hn)).symm.trans hj
    -- Whatever it learns, it was not dependable before, and so it says nothing.
    have hquiet : effects = [] ∧ v'.dependable = false := by
      cases hlearns with
      | nothing => exact ⟨rfl, hplain⟩
      | lost => exact ⟨by rw [hplain, if_neg Bool.false_ne_true], NodeView.fallen_dependable _⟩
      | noted => exact ⟨rfl, hplain⟩
    obtain ⟨rfl, hafter⟩ := hquiet
    refine ⟨s₁, htell, published_of_tell htell, fun i hi => ?_⟩
    rw [isDependable_set hc.view?_eq]
    split
    · exact hafter
    · exact hi

/-- Those who are not dependable are told, and nothing comes of it. -/
theorem Wired.finishes_undependable (hw : Wired s) {js : List String}
    (hjs : ∀ j ∈ js, s.isDependable j = false)
    (h : Agenda.Finishes step s (js.map (deletionTo key)) s') :
    Linked s s' ∧ s'.published = s.published ∧ ∀ i ∉ js, s'.get? i = s.get? i := by
  -- Each of those who are told leaves no tasks, so the next one is told at once.
  induction js generalizing s with
  | nil =>
    cases h with
    | nil => exact ⟨.refl _, rfl, fun _ _ => rfl⟩
  | cons j js ih =>
    obtain ⟨hj, hrest⟩ := List.forall_mem_cons.1 hjs
    obtain ⟨s₁, hstep, hpublished, hkept⟩ := step_undependable key hj
    have hl := linked_step s (deletionTo key j)
    have hspared := fun i (hi : i ≠ j) => (spared_step s (t := deletionTo key j) hi).get?_eq
    rw [List.map_cons] at h
    cases h with
    | cons hleft hfinishes =>
      rw [hstep] at hleft hl hspared
      cases hleft with
      | nil =>
        have hw₁ : Wired s₁ := hw.of_frame hl.toFrame hl.links?_eq
        obtain ⟨hl', hpublished', hsame⟩ := ih hw₁ (fun i hi => hkept i (hrest i hi)) hfinishes
        refine ⟨hl.trans hl', hpublished'.trans hpublished, fun i hi => ?_⟩
        rw [List.mem_cons, not_or] at hi
        exact (hsame i hi.2).trans (hspared i hi.1)

omit [Node ν] [NodeKind ν] [LawfulNode ν] [CandidNode ν] [LinkedNode ν] in
/-- What has been published in addition, if the followers of a node have been told nothing. -/
theorem exists_news (hkept : s.published <+: s'.published)
    (h : s'.actionsOf key = s.actionsOf key) :
    ∃ news, s'.published = s.published ++ news ∧ ∀ a ∈ news, a.id ≠ some key := by
  obtain ⟨news, hnews⟩ := hkept
  refine ⟨news, hnews.symm, fun a ha hid => ?_⟩
  rw [actionsOf, actionsOf, ← hnews, List.filter_append, List.append_right_eq_self,
    List.filter_eq_nil_iff] at h
  refine h a ha (decide_eq_true ?_)
  simp [Action.route, hid]

variable [SpeakingNode ν]

omit [CandidNode ν] in
/-- In its turn the node tells its followers that it is invalid, unless it is not dependable; it
does so first and but once. -/
theorem Wired.exists_own_turn (hw : Wired s) (hkey : (s.view? key).isSome = true)
    {post : List String} (hpost : ∀ j ∈ post, s.DependsOn j key)
    (h : Agenda.Finishes step s
      (.tell key (.own .deleted .registry) :: post.map (deletionTo key)) s') :
    ∃ own, (own = invalidNotices ν key false ∨ (own = [] ∧ s.isDependable key = false)) ∧
      ∃ news, s'.published = s.published ++ own ++ news ∧ ∀ a ∈ news, a.id ≠ some key := by
  obtain ⟨v, hv⟩ := Option.isSome_iff_exists.1 hkey
  obtain ⟨n, hn, rfl⟩ := exists_get? hv
  obtain ⟨loss, hloss, hreacts⟩ := LawfulNode.deleted n
  obtain ⟨s₁, htell, -⟩ := tell_eq hn hreacts
  have hstep : s.step (.tell key (.own .deleted .registry)) = (s₁, loss.map (.perform key)) := htell
  have hl := linked_step s (.tell key (.own .deleted .registry))
  have hpublished : s₁.published = s.published := published_of_tell htell
  have hbeside : ∀ t ∈ post.map (deletionTo key), t.Beside s key := by
    intro t ht
    obtain ⟨j, hj, rfl⟩ := List.mem_map.1 ht
    exact .inr (.single (hpost j hj))
  have hanswer : (answer n (.own .deleted .registry)).1 = loss ++ [] := by
    rw [List.append_nil]
    exact hreacts.effects_eq
  cases h with
  | cons hleft hrest =>
    rw [hstep] at hleft hl
    rcases loss_eq hloss hanswer with rfl | ⟨rfl, hplain⟩
    · -- The node hears what it says itself, and so do those who depend on it.
      cases hleft with
      | cons hleft hnil =>
        cases hnil with
        | nil =>
          let s₂ := s₁.publishSignal key .invalidated false
          have hl₂ : Linked s s₂ := hl.trans (linked_of_silent (silent_publishSignal _ _ _ _))
          have hfinishes := Agenda.Finishes.append hleft hrest
          have haside := hw.aside_of_finishes (List.forall_mem_append.2
            ⟨fun t ht => hw.beside_of_mem_dispatch hl₂ ht, hbeside⟩) hl₂ hfinishes
          obtain ⟨news, hnews, hnone⟩ :=
            exists_news (prefix_of_finishes hfinishes) haside.actionsOf_eq
          refine ⟨_, .inl rfl, news, ?_, hnone⟩
          rw [hnews, ← hpublished]
          rfl
    · cases hleft with
      | nil =>
        have haside := hw.aside_of_finishes hbeside hl hrest
        obtain ⟨news, hnews, hnone⟩ := exists_news (prefix_of_finishes hrest) haside.actionsOf_eq
        refine ⟨[], .inr ⟨rfl, ?_⟩, news, ?_, hnone⟩
        · rw [isDependable_of_view? hv, hplain]
        · rw [hnews, hpublished, List.append_nil]

omit [CandidNode ν] in
theorem Structured.exists_own_turn (h : Structured r) (hmay : r.deletable key = true)
    {pre post : List String}
    (hlist : r.listenersOf key = pre.map .dependent ++ .owner key :: post.map .dependent)
    (hl : Linked r s) (hfinishes : Agenda.Finishes step s
      (.tell key (.own .deleted .registry) :: post.map (deletionTo key)) s') :
    ∃ own, (own = invalidNotices ν key false ∨ (own = [] ∧ s.isDependable key = false)) ∧
      ∃ news, s'.published = s.published ++ own ++ news ∧ ∀ a ∈ news, a.id ≠ some key := by
  obtain ⟨n, hn, -⟩ := deletable_iff.1 hmay
  have hw : Wired s := h.toWired.of_frame hl.toFrame hl.links?_eq
  have hkey : (s.view? key).isSome = true := by
    rw [← contains_iff, contains_eq, hl.links?_eq, ← contains_eq, contains, hn]
    rfl
  refine hw.exists_own_turn hkey (fun j hj => ?_) hfinishes
  rw [dependsOn_congr (hl.links?_eq j), ← h.consistent.dependent_iff, hlist]
  exact List.mem_append_right _ (List.mem_cons_of_mem _ (List.mem_map_of_mem hj))

/-- If nobody is dependable who is ahead of the node that is deleted, then no other is said to be
invalid before it. -/
theorem Structured.subjectFirst (h : Structured r) (hmay : r.deletable key = true)
    (hahead : ∀ j, r.Ahead key j → r.isDependable j = false) : r.SubjectFirst key := by
  obtain ⟨pre, post, hlist, -, hpre⟩ := h.exists_channel hmay
  obtain ⟨before, settled, hbefore, hafter, hpublished⟩ := h.exists_turns hmay hlist
  have ha := (silent_publishSignal r key .deleted true).alike
  have hl₀ := linked_of_silent (silent_publishSignal r key .deleted true)
  have hw₀ := h.toWired.of_frame hl₀.toFrame hl₀.links?_eq
  obtain ⟨intro, hintro, hquiet⟩ : Notified r (r.publishSignal key .deleted true) [] :=
    notified_publishSignal_of_ne r key true (by simp [Signal.label])
  have hundependable : ∀ j ∈ pre, (r.publishSignal key .deleted true).isDependable j = false :=
    fun j hj => (ha.isDependable_eq j).trans (hahead j ((hpre j).2 hj))
  obtain ⟨hl, hsame, -⟩ := hw₀.finishes_undependable hundependable hbefore
  obtain ⟨own, hown, news, hnews, hnone⟩ :=
    h.exists_own_turn hmay hlist (hl₀.trans hl) hafter
  -- What is published falls into three parts: the deletion itself, what the node says in its turn,
  -- and news of others.
  have hall : (r.delete key).2.published.drop r.published.length = intro ++ (own ++ news) := by
    rw [hpublished, hnews, hsame, hintro, List.append_assoc, List.append_assoc, List.drop_left]
  have hintro' : ∀ a ∈ intro, ¬ isInvalid ν a = true := fun a ha =>
    List.filter_eq_nil_iff.1 hquiet a ha
  rw [SubjectFirst, hall]
  refine List.pairwise_append.2 ⟨?_, List.pairwise_append.2 ⟨?_, ?_, ?_⟩, ?_⟩
  · exact List.pairwise_of_forall_mem_list fun a _ b hb hinvalid => absurd hinvalid (hintro' b hb)
  · rcases hown with rfl | ⟨rfl, -⟩
    · exact List.pairwise_singleton _ _
    · exact .nil
  · exact List.pairwise_of_forall_mem_list fun a _ b hb _ hid => absurd hid (hnone b hb)
  · exact fun a _ b hb _ hid => absurd hid (hnone b hb)
  · exact fun a ha b _ _ _ hinvalid => absurd hinvalid (hintro' a ha)

variable {verifier : Option Verifier}

omit [CandidNode ν] [LinkedNode ν] [SpeakingNode ν] in
/-- Whoever is dependable depends on nodes that are dependable. -/
theorem Coherent.isDependable_of_dependsOn (h : Coherent verifier r) (hj : r.isDependable j = true)
    (hdep : r.DependsOn j key) : r.isDependable key = true := by
  obtain ⟨n, hn, hmem⟩ := hdep
  have hv := view?_of_get? hn
  rw [isDependable_of_view? hv] at hj
  have hfits := h.fits j _ hv
  exact (h.ready_iff hv).1 (hfits.ready_of_compiled (hfits.compiled_of_dependable hj)) key hmem

omit [CandidNode ν] [LinkedNode ν] [SpeakingNode ν] in
/-- A dependable node that is told that a dependency is deleted says that it is invalid. -/
theorem Coherent.finishes_dependable (h : Coherent verifier r) (hj : r.isDependable j = true)
    (hdep : r.DependsOn j key) (hsame : s.get? j = r.get? j) {rest : List Task}
    (hfinishes : Agenda.Finishes step s (deletionTo key j :: rest) s') :
    s.published ++ invalidNotices ν j false <+: s'.published := by
  obtain ⟨n, hn, hmem⟩ := hdep
  have hv := view?_of_get? hn
  have hfits := h.fits j _ hv
  rw [isDependable_of_view? hv] at hj
  have hlost := LawfulNode.lost n key .deleted (.inr rfl) hfits.sound hmem (hfits.known key hmem)
  rw [hj, if_pos rfl] at hlost
  obtain ⟨s₁, htell, -⟩ := tell_eq (hsame.trans hn) hlost
  have hstep : s.step (deletionTo key j) =
      (s₁, [.perform j (.broadcast .invalidated true)]) := htell
  have hpublished : s₁.published = s.published := published_of_tell htell
  cases hfinishes with
  | cons hleft hrest =>
    rw [hstep] at hleft
    rw [← hpublished]
    exact (prefix_of_invalidated hleft).trans (prefix_of_finishes hrest)

/-- If somebody is dependable who is ahead of the node that is deleted, then somebody says that it
is invalid before the node does, which does so too. -/
theorem Coherent.exists_earlier (h : Coherent verifier r) (hs : Structured r)
    (hmay : r.deletable key = true) (hahead : r.Ahead key j) (hj : r.isDependable j = true) :
    ∃ i intro other news, i ≠ key ∧ (r.delete key).2.published.drop r.published.length =
      intro ++ invalidNotices ν i false ++ (other ++ invalidNotices ν key false ++ news) := by
  obtain ⟨pre, post, hlist, hnodup, hpre⟩ := hs.exists_channel hmay
  obtain ⟨before, settled, hbefore, hafter, hpublished⟩ := hs.exists_turns hmay hlist
  have hl₀ := linked_of_silent (silent_publishSignal r key .deleted true)
  have h₀ := h.of_unmoved (silent_publishSignal r key .deleted true).alike.toUnmoved
  obtain ⟨intro, hintro, -⟩ : Notified r (r.publishSignal key .deleted true) [] :=
    notified_publishSignal_of_ne r key true (by simp [Signal.label])
  have hdep₀ : ∀ i, .dependent i ∈ r.listenersOf key →
      (r.publishSignal key .deleted true).DependsOn i key := by
    intro i hi
    exact (dependsOn_congr (hl₀.links?_eq i) key).2 ((hs.consistent.dependent_iff key i).1 hi)
  have hj₀ : (r.publishSignal key .deleted true).isDependable j = true :=
    ((silent_publishSignal r key .deleted true).alike.isDependable_eq j).trans hj
  generalize r.publishSignal key .deleted true = r₀ at *
  have hw₀ := h₀.wired
  -- The first of those ahead who are dependable has its say before the node has its turn.
  obtain ⟨i, hfind⟩ := Option.isSome_iff_exists.1
    (List.find?_isSome.2 ⟨j, (hpre j).1 hahead, hj₀⟩ : (pre.find? r₀.isDependable).isSome = true)
  obtain ⟨hi, js, js', rfl, hjs⟩ := List.find?_eq_some_iff_append.1 hfind
  have hdepi : r₀.DependsOn i key := hdep₀ i (by rw [hlist]; simp)
  have hbeside : ∀ t ∈ (js ++ i :: js').map (deletionTo key), t.Beside r₀ key := by
    intro t ht
    obtain ⟨k, hk, rfl⟩ := List.mem_map.1 ht
    exact .inr (.single (hdep₀ k (hlist ▸ List.mem_append_left _ (List.mem_map_of_mem hk))))
  have haside := hw₀.aside_of_finishes hbeside (.refl r₀) hbefore
  rw [List.map_append, List.map_cons] at hbefore
  obtain ⟨mid, hmid, hlater⟩ := hbefore.split
  obtain ⟨-, hsame, hget⟩ :=
    hw₀.finishes_undependable (fun k hk => by simpa using hjs k hk) hmid
  have hnot : i ∉ js := fun hin => (List.nodup_append.1 hnodup).2.2 i hin i List.mem_cons_self rfl
  obtain ⟨other, hother⟩ := h₀.finishes_dependable hi hdepi (hget i hnot) hlater
  -- The node is still as it was, and dependable like all on which others build.
  have hkey : before.isDependable key = true :=
    (isDependable_congr haside.view?_eq).trans (h₀.isDependable_of_dependsOn hi hdepi)
  obtain ⟨own, hown, news, hnews, -⟩ :=
    hs.exists_own_turn hmay hlist (hl₀.trans haside.linked) hafter
  obtain rfl : own = invalidNotices ν key false := by
    refine hown.resolve_right fun hplain => ?_
    rw [hkey] at hplain
    simp at hplain
  refine ⟨i, intro, other, news, ?_, ?_⟩
  · rintro rfl
    exact hw₀.not_reaches_self i (.single hdepi)
  · rw [hpublished, hnews, ← hother, hsame, hintro]
    simp

theorem Coherent.not_subjectFirst (h : Coherent verifier r) (hs : Structured r)
    (hmay : r.deletable key = true) (hahead : r.Ahead key j) (hj : r.isDependable j = true) :
    ¬ r.SubjectFirst key := by
  obtain ⟨i, intro, other, news, hne, hall⟩ := h.exists_earlier hs hmay hahead hj
  intro hfirst
  rw [SubjectFirst, hall, List.append_assoc] at hfirst
  have hpair := (List.pairwise_append.1 (List.pairwise_append.1 hfirst).2.1).2.2
    { kind := actionKind ν "Invalid", id := some i, payload := none } List.mem_cons_self
    { kind := actionKind ν "Invalid", id := some key, payload := none } (by simp [invalidNotices])
  have hid : some i = some key :=
    hpair (beq_self_eq_true _) rfl (beq_self_eq_true _)
  exact hne (Option.some.inj hid)

end Deletion

/-! ## Deletions -/

/-- How a deletion is heard. -/
structure Heard (r : Registry ν) (key : String) : Prop where
  /-- Everybody on the channel hears of it, in the order of subscription. -/
  heard_eq : (r.course (.delete key)).filterMap (fun m => m.2.hears) = r.listenersOf key
  first_iff : ((r.course (.delete key)).filterMap fun m => m.2.hears).head? = some (.owner key) ↔
    ∀ j, ¬ r.Ahead key j
  subjectFirst : (∀ j, r.Ahead key j → r.isDependable j = false) → r.SubjectFirst key

variable [LinkedNode ν]

/-- What may be deleted is deleted. -/
theorem isOk_delete_iff : (r.delete key).1.isOk = true ↔ r.deletable key = true := by
  constructor
  · intro hok
    rw [isOk_delete, Bool.and_eq_true] at hok
    exact hok.1
  · intro hmay
    obtain ⟨n, hn, hcheck⟩ := deletable_iff.1 hmay
    obtain ⟨-, m, -, heq⟩ := exists_delete hn hcheck
    rw [heq]
    rfl

variable [LawfulNode ν] [CandidNode ν] [SpeakingNode ν]

theorem Structured.heard (h : Structured r) (hok : (r.delete key).1.isOk = true) :
    Heard r key := by
  have hmay := isOk_delete_iff.1 hok
  refine ⟨h.heard_eq hmay, ?_, fun hahead => h.subjectFirst hmay hahead⟩
  rw [h.heard_eq hmay]
  exact h.toWired.head?_eq_owner_iff hmay

theorem Coherent.subjectFirst_iff {verifier : Option Verifier} (h : Coherent verifier r)
    (hs : Structured r) (hok : (r.delete key).1.isOk = true) :
    r.SubjectFirst key ↔ ∀ j, r.Ahead key j → r.isDependable j = false := by
  have hmay := isOk_delete_iff.1 hok
  refine ⟨fun hfirst j hahead => ?_, fun hahead => hs.subjectFirst hmay hahead⟩
  rw [← Bool.not_eq_true]
  exact fun hj => h.not_subjectFirst hs hmay hahead hj hfirst

end Registry

namespace Session

open Registry

/-- Whatever has been done to a registry of entitlements or of profiles, a deletion is heard by all
on the channel of the node in the order in which they have subscribed. So the node is the first to
hear of it unless a dependent has been waiting for it: one that depended on it when it was entered
and has kept its dependencies since. If no such dependent is dependable, then nobody is said to be
invalid before the node; and in a session only then. Generations do not wrap: this is about fewer
than `2 ^ 64` compile requests. -/
theorem heard_run (config : EngineConfig) (verifier : Option Verifier) :
    (∀ (calls : List (Call EntitlementNode)) (key : String),
      let r := reached config verifier calls
      (r.delete key).1.isOk = true → Heard r key ∧ ∀ j, r.Ahead key j ↔
        ∃ before c after, Waited (reached config verifier) calls key j before c after) ∧
    (∀ (calls : List (Call ProfileNode)) (key : String),
      let r := reached config verifier calls
      (r.delete key).1.isOk = true → Heard r key ∧ ∀ j, r.Ahead key j ↔
        ∃ before c after, Waited (reached config verifier) calls key j before c after) ∧
    (∀ (events : List (Event EntitlementNode)) (key : String),
      let reach := fun events => ((start config verifier).run events).registry
      let r : Registry EntitlementNode := reach events
      (r.delete key).1.isOk = true →
        (r.SubjectFirst key ↔ ∀ j, r.Ahead key j → r.isDependable j = false) ∧
        ∀ j, r.Ahead key j ↔ ∃ before e after, Waited reach events key j before e after) ∧
    (∀ (events : List (Event ProfileNode)) (key : String),
      let reach := fun events => ((start config verifier).run events).registry
      let r : Registry ProfileNode := reach events
      (r.delete key).1.isOk = true →
        (r.SubjectFirst key ↔ ∀ j, r.Ahead key j → r.isDependable j = false) ∧
        ∀ j, r.Ahead key j ↔ ∃ before e after, Waited reach events key j before e after) := by
  refine ⟨?_, ?_, ?_, ?_⟩
  · intro calls key r hok
    have h : Structured r := structured_reached config verifier calls
    exact ⟨h.heard hok, fun j => ahead_reached_iff config verifier calls key j⟩
  · intro calls key r hok
    have h : Structured r := structured_reached config verifier calls
    exact ⟨h.heard hok, fun j => ahead_reached_iff config verifier calls key j⟩
  · intro events key reach r hok
    have h : Coherent verifier r := ((invariant_start config verifier).run events).coherent
    exact ⟨h.subjectFirst_iff (structured_run config verifier events) hok,
      fun j => ahead_run_iff config verifier events key j⟩
  · intro events key reach r hok
    have h : Coherent verifier r := ((invariant_start config verifier).run events).coherent
    exact ⟨h.subjectFirst_iff (structured_run config verifier events) hok,
      fun j => ahead_run_iff config verifier events key j⟩

/-- A node is deleted that stands between its dependents on its channel: one was entered before it
and one after it. -/
theorem heard_run_between :
    let b : Entitlement := { id := "b", dependencies := ["a"] }
    let a : Entitlement := { id := "a" }
    let c : Entitlement := { id := "c", dependencies := ["a"] }
    let b' : Profile := { name := "b", dependencies := ["a"] }
    let a' : Profile := { name := "a" }
    let c' : Profile := { name := "c", dependencies := ["a"] }
    let r : Registry EntitlementNode := ((start {} none).run
      [.operate (.add b), .operate (.add a), .operate (.add c)]).registry
    let r' : Registry ProfileNode := ((start {} none).run
      [.operate (.add b'), .operate (.add a'), .operate (.add c')]).registry
    r.listenersOf "a" = [.dependent "b", .owner "a", .dependent "c"] ∧
      r'.listenersOf "a" = [.dependent "b", .owner "a", .dependent "c"] ∧
      Heard r "a" ∧ Heard r' "a" ∧
      (r.SubjectFirst "a" ↔ ∀ j, r.Ahead "a" j → r.isDependable j = false) ∧
      (r'.SubjectFirst "a" ↔ ∀ j, r'.Ahead "a" j → r'.isDependable j = false) := by
  intro b a c b' a' c' r r'
  have hok : (r.delete "a").1.isOk = true := by decide +kernel
  have hok' : (r'.delete "a").1.isOk = true := by decide +kernel
  obtain ⟨hcalls, hcalls', hevents, hevents'⟩ := heard_run {} none
  exact ⟨by decide +kernel, by decide +kernel, (hcalls [.add _, .add _, .add _] "a" hok).1,
    (hcalls' [.add _, .add _, .add _] "a" hok').1,
    (hevents [.operate (.add b), .operate (.add a), .operate (.add c)] "a" hok).1,
    (hevents' [.operate (.add b'), .operate (.add a'), .operate (.add c')] "a" hok').1⟩

end Session

namespace Registry

/-- A dependent that has been waiting for a node hears of its deletion before the node, and is said
to be invalid before it. -/
theorem subject_not_first :
    let b : EntitlementNode :=
      NodeKind.ofDefinition ({ id := "b", dependencies := ["a"] } : Entitlement)
    let a : EntitlementNode := NodeKind.ofDefinition ({ id := "a" } : Entitlement)
    let r := reached {} none [.add b, .add a]
    (r.delete "a").1.isOk = true ∧
      (r.course (.delete "a")).filterMap (fun m => m.2.hears) = [.dependent "b", .owner "a"] ∧
      ¬ r.SubjectFirst "a" := by
  intro b a r
  have hok : (r.delete "a").1.isOk = true := by decide +kernel
  have hmay := isOk_delete_iff.1 hok
  have hlisteners : r.listenersOf "a" = [.dependent "b", .owner "a"] := by decide +kernel
  have hs : Structured r := structured_reached {} none _
  have h : Coherent none r :=
    ((coherent_fresh {} none).sound_operateAll [.add _, .add _]).coherent
  have hahead : r.Ahead "a" "b" := by
    rw [Ahead, hlisteners]
  exact ⟨hok, (hs.heard_eq hmay).trans hlisteners,
    h.not_subjectFirst hs hmay hahead (by decide +kernel)⟩

end Registry

end LayeredAccess
