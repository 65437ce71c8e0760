/-
  LayeredAccess.Proofs.Registry.Truthful

  What those who follow nodes have been told, while a cascade is going on.

  It is true of all nodes but one, which is about to say or to be told what has
  happened; whatever is to be said is said at once (`Truthful`). A node that is
  to be removed is the other exception: it has been said to be gone, and nothing
  that follows says otherwise. Every step leaves behind what is true
  (`Truthful.step`).
-/
import LayeredAccess.Proofs.Registry.Ending
import LayeredAccess.Proofs.Registry.LastActions

namespace LayeredAccess

namespace Registry

variable {ν : Type} [Node ν] [NodeKind ν] {r r' : Registry ν} {gone : String → Prop}
  {t : Task} {tasks : List Task}

/-! ## What holds within a cascade -/

/-- What has to hold for a task that is done next. -/
def Ripe (r : Registry ν) : Task → Prop
  | .perform k (.broadcast s _) =>
    (s = .validated ∧ r.isDependable k = true) ∨ (s = .invalidated ∧ r.isDependable k = false)
  | .tell k (.own (.compiled x) .registry) => r.toldValue? k = some x
  | .tell k (.own .validated .registry) => (r.value? k).isSome = true ∨ r.view? k = none
  | .tell k (.own .added .registry) => ∀ v, r.view? k = some v → v.verified = false
  | .tell k (.own _ (.node j)) => j = k
  | _ => True

/-- The tasks that may wait, whatever is done meanwhile. -/
def Task.Calm : Task → Prop
  | .perform _ (.broadcast _ _) => False
  | .tell _ (.own (.compiled _) .registry) => False
  | .tell _ (.own .validated .registry) => False
  | .tell _ (.own .added .registry) => False
  | .tell k (.own _ (.node j)) => j = k
  | _ => True

/-- Does a task speak of a node? -/
def Task.SpeaksOf (k : String) : Task → Prop
  | .perform j (.broadcast _ _) => j = k
  | _ => False

/-- Does a task bring a node its value? -/
def Task.Brings (k : String) : Task → Prop
  | .tell j (.own (.compiled _) .registry) => j = k
  | _ => False

/-- Nodes are brought values by being told of them. -/
theorem brings_tell_iff {j k : String} {notice : Notice} : (Task.tell j notice).Brings k ↔
    (∃ x, notice = .own (.compiled x) .registry) ∧ j = k := by
  refine ⟨fun h => ?_, ?_⟩
  · unfold Task.Brings at h
    split at h
    · next heq =>
      obtain ⟨rfl, rfl⟩ := Task.tell.inj heq
      exact ⟨⟨_, rfl⟩, h⟩
    · exact h.elim
  · rintro ⟨⟨x, rfl⟩, rfl⟩
    exact rfl

/-- What followers have been told is true of all nodes but the one that the next task is about.
The nodes that are `gone` have been said to be, and all that is left to do is to tell of losses. -/
structure Truthful (gone : String → Prop) (r : Registry ν) (tasks : List Task) : Prop where
  wired : Wired r
  held : ∀ k v, r.view? k = some v → v.verified = true → v.compiled.isSome = true
  seems_eq : ∀ k, ¬ gone k → (∀ t, tasks.head? = some t → ¬ t.SpeaksOf k) →
    r.seemsDependable k = r.isDependable k
  told_eq : ∀ k x, r.value? k = some x → (∀ t, tasks.head? = some t → ¬ t.Brings k) →
    r.toldValue? k = some x
  ripe : ∀ t, tasks.head? = some t → r.Ripe t
  calm : ∀ t ∈ tasks.tail, t.Calm
  farewell : ∀ k, gone k → r.seemsDependable k = false ∧ ∀ t ∈ tasks, t.IsLoss

theorem Task.Calm.ripe (h : t.Calm) (r : Registry ν) : r.Ripe t := by
  cases t with
  | perform k effect =>
    cases effect with
    | broadcast => exact h.elim
    | compile | validate | announce => trivial
  | tell k notice =>
    cases notice with
    | dependency => trivial
    | own s origin =>
      cases origin with
      | node j => cases s <;> exact h
      | registry =>
        cases s with
        | compiled | validated | added => exact h.elim
        | updated | deleted | customized | invalidated => trivial

theorem Ripe.proper (h : r.Ripe t) : t.Proper := by
  cases t with
  | perform => trivial
  | tell k notice =>
    cases notice with
    | dependency => trivial
    | own s origin =>
      cases origin with
      | registry => trivial
      | node j => cases s <;> exact h

/-- The first task apart from those that wait. -/
theorem Truthful.single (h : Truthful gone r (t :: tasks)) : Truthful gone r [t] :=
  ⟨h.wired, h.held, h.seems_eq, h.told_eq, h.ripe, by simp, fun k hk =>
    ⟨(h.farewell k hk).1, fun u hu => (h.farewell k hk).2 u (by simp_all)⟩⟩

/-- Tasks that have waited come after those that are done first. -/
theorem Truthful.append {rest : List Task} (h : Truthful gone r tasks)
    (hrest : ∀ t ∈ rest, t.Calm) (hloss : ∀ k, gone k → ∀ t ∈ rest, t.IsLoss) :
    Truthful gone r (tasks ++ rest) := by
  cases tasks with
  | cons u us =>
    refine ⟨h.wired, h.held, h.seems_eq, h.told_eq, h.ripe, ?_, fun k hk => ?_⟩
    · exact List.forall_mem_append.2 ⟨h.calm, hrest⟩
    · exact ⟨(h.farewell k hk).1,
        List.forall_mem_append.2 ⟨(h.farewell k hk).2, hloss k hk⟩⟩
  | nil =>
    have hfirst : ∀ t, rest.head? = some t → t.Calm :=
      fun t ht => hrest t (List.mem_of_mem_head? ht)
    refine ⟨h.wired, h.held, fun k hk _ => h.seems_eq k hk (by simp),
      fun k x hx _ => h.told_eq k x hx (by simp), fun t ht => (hfirst t ht).ripe r,
      fun t ht => hrest t (List.mem_of_mem_tail ht), fun k hk => ⟨(h.farewell k hk).1, hloss k hk⟩⟩

/-! ## Standing -/

/-- How far a node has come: its value, whether this has been verified, and whether the node takes
part. -/
def standing? (r : Registry ν) (k : String) : Option (Option Json × Bool × Bool) :=
  (r.view? k).map fun v => (v.compiled, v.verified, v.inputs.active)

theorem standing?_of_view? (h : r'.view? = r.view?) : r'.standing? = r.standing? := by
  funext k
  rw [standing?, h, standing?]

theorem value?_eq_standing? (r : Registry ν) (k : String) :
    r.value? k = (r.standing? k).bind (·.1) := by
  rw [value?, standing?, Option.bind_map]
  rfl

theorem value?_of_standing? {k : String} (h : r'.standing? k = r.standing? k) :
    r'.value? k = r.value? k := by
  rw [value?_eq_standing?, h, value?_eq_standing?]

theorem isDependable_of_standing? [LawfulNode ν] {k : String}
    (h : r'.standing? k = r.standing? k) : r'.isDependable k = r.isDependable k := by
  have hstanding (s : Registry ν) :
      s.isDependable k = (s.standing? k).any fun e => e.2.2 && e.2.1 := by
    rw [isDependable_eq, standing?, Option.any_map]
    rfl
  rw [hstanding, h, hstanding]

theorem view?_publishSignal (r : Registry ν) (key : String) (s : Signal) (wide : Bool) :
    (r.publishSignal key s wide).view? = r.view? := by
  obtain ⟨published, hp⟩ := silent_publishSignal r key s wide
  exact view?_congr_nodes (by rw [hp])

/-! ## Telling a node -/

theorem view?_reshape (r : Registry ν) (k : String) (n m : ν) (j : String) :
    (r.reshape k n m).view? j = if j = k then some (Node.view m) else r.view? j := by
  rw [view?_congr_nodes (r := r.setNode k m) (nodes_reshape r k n m), view?_setNode]

omit [NodeKind ν] in
theorem untold_reshape (r : Registry ν) (k : String) (n m : ν) : Untold r (r.reshape k n m) :=
  untold_of_published (published_reshape r k n m)

omit [Node ν] [NodeKind ν] in
/-- A node that has nothing to say about itself is as dependable as before. -/
theorem dependable_eq_of_says {v v' : NodeView} {effects : List Effect} {k : String}
    (h : v.Says v' effects)
    (hquiet : ∀ t, (effects.map (Task.perform k)).head? = some t → ¬ t.SpeaksOf k) :
    v'.dependable = v.dependable := by
  cases h with
  | nothing _ hsame => exact hsame
  | gain | loss => exact absurd rfl (hquiet _ rfl)

/-- What a node says first is true, and it asks for nothing that has to be done at once. -/
theorem ripe_and_calm_of_says {v v' : NodeView} {effects : List Effect} {k : String}
    (h : v.Says v' effects) (hnow : r.isDependable k = v'.dependable) :
    (∀ t, (effects.map (Task.perform k)).head? = some t → r.Ripe t) ∧
      ∀ t ∈ (effects.map (Task.perform k)).tail, t.Calm := by
  have hcalm : ∀ es, NodeView.Hushed es → ∀ t ∈ es.map (Task.perform k), t.Calm := by
    intro es hes t ht
    obtain ⟨e, he, rfl⟩ := List.mem_map.1 ht
    cases e with
    | broadcast s wide => exact hes s wide he
    | compile | validate | announce => trivial
  -- Only the first effect can speak of the standing of the node, and it says what is so.
  cases h with
  | nothing hhushed =>
    have hall := hcalm effects hhushed
    exact ⟨fun t ht => (hall t (List.mem_of_mem_head? ht)).ripe r,
      fun t ht => hall t (List.mem_of_mem_tail ht)⟩
  | gain hdep hhushed =>
    refine ⟨fun t ht => ?_, hcalm _ hhushed⟩
    obtain rfl := Option.some.inj ht
    exact .inl ⟨rfl, hnow.trans hdep⟩
  | loss hdep hhushed =>
    refine ⟨fun t ht => ?_, hcalm _ hhushed⟩
    obtain rfl := Option.some.inj ht
    exact .inr ⟨rfl, hnow.trans hdep⟩

variable [LawfulNode ν]

omit [LawfulNode ν] in
/-- A task that says nothing, and brings nothing to a node, need not be done. -/
theorem Truthful.drop (h : Truthful gone r [t]) (hspeaks : ∀ k, ¬ t.SpeaksOf k)
    (hbrings : ∀ k, t.Brings k → r.view? k = none) : Truthful gone r [] := by
  refine ⟨h.wired, h.held, fun k hk _ => ?_, fun k x hx _ => ?_, by simp, by simp,
    fun k hk => ⟨(h.farewell k hk).1, by simp⟩⟩
  · exact h.seems_eq k hk fun u hu => Option.some.inj hu ▸ hspeaks k
  · refine h.told_eq k x hx fun u hu hu' => ?_
    obtain rfl := Option.some.inj hu
    rw [value?, hbrings k hu'] at hx
    simp at hx

omit [LawfulNode ν] in
/-- A request says nothing, and brings nothing by itself. -/
theorem Truthful.request {key : String} {effect : Effect}
    (h : Truthful gone r [.perform key effect]) (hrequest : ∀ s wide, effect ≠ .broadcast s wide) :
    Truthful gone r [] := by
  refine h.drop (fun k hk => ?_) fun k hk => hk.elim
  cases effect with
  | broadcast s wide => exact hrequest s wide rfl
  | compile | validate | announce => exact hk

/-- Nothing that matters to followers has happened. -/
theorem Truthful.of_same (h : Truthful gone r []) (hw : Wired r')
    (hstanding : r'.standing? = r.standing?) (hsame : SameTidings r r') :
    Truthful gone r' [] := by
  refine ⟨hw, fun k v hv hverified => ?_, fun k hk _ => ?_, fun k x hx _ => ?_, by simp, by simp,
    fun k hk => ⟨?_, by simp⟩⟩
  · have hk := congrFun hstanding k
    rw [standing?, hv, Option.map_some, eq_comm, standing?, Option.map_eq_some_iff] at hk
    obtain ⟨w, hw, heq⟩ := hk
    simp only [Prod.mk.injEq] at heq
    rw [← heq.1]
    exact h.held k w hw (heq.2.1.trans hverified)
  · rw [hsame.seemsDependable_eq, isDependable_of_standing? (congrFun hstanding k)]
    exact h.seems_eq k hk (by simp)
  · rw [value?_of_standing? (congrFun hstanding k)] at hx
    rw [hsame.toldValue?_eq]
    exact h.told_eq k x hx (by simp)
  · rw [hsame.seemsDependable_eq]
    exact (h.farewell k hk).1

omit [LawfulNode ν] in
/-- A task that may be done at once comes up. -/
theorem Truthful.ask (h : Truthful gone r []) (hripe : r.Ripe t)
    (hloss : ∀ k, gone k → t.IsLoss) : Truthful gone r [t] := by
  refine ⟨h.wired, h.held, fun k hk _ => h.seems_eq k hk (by simp),
    fun k x hx _ => h.told_eq k x hx (by simp), fun u hu => Option.some.inj hu ▸ hripe, by simp,
    fun k hk => ⟨(h.farewell k hk).1, fun u hu => ?_⟩⟩
  obtain rfl := List.mem_singleton.1 hu
  exact hloss k hk

omit [LawfulNode ν] in
/-- A node that counts as verified when it has been told something holds a value. -/
theorem Truthful.isSome_of_answers {k : String} {notice : Notice} {v v' : NodeView}
    {effects : List Effect} {verifies : Bool} (h : Truthful gone r [.tell k notice])
    (hv : r.view? k = some v) (hanswers : v.Answers verifies notice effects v')
    (hverified : v'.verified = true) : v'.compiled.isSome = true := by
  refine hanswers.compiled_of_verified (h.held k v hv) (fun he => ?_) hverified
  subst he
  rcases (h.ripe _ rfl : (r.value? k).isSome = true ∨ r.view? k = none) with hasked | hunknown
  · rwa [value?, hv] at hasked
  · simp [hv] at hunknown

omit [LawfulNode ν] in
/-- The value that a node holds when it has been told something is the one it was told of last. -/
theorem Truthful.toldValue?_of_answers {k : String} {notice : Notice} {v v' : NodeView}
    {effects : List Effect} {verifies : Bool} {x : Json}
    (h : Truthful gone r [.tell k notice]) (hv : r.view? k = some v)
    (hanswers : v.Answers verifies notice effects v') (hx : v'.compiled = some x) :
    r.toldValue? k = some x := by
  by_cases hbrings : (Task.tell k notice).Brings k
  · obtain ⟨⟨y, rfl⟩, -⟩ := brings_tell_iff.1 hbrings
    rw [hanswers.compiled_eq_some] at hx
    obtain rfl := Option.some.inj hx
    exact h.ripe _ rfl
  · refine h.told_eq k x ?_ fun u hu => Option.some.inj hu ▸ hbrings
    rcases hanswers.compiled_eq with hnone | hsame | ⟨y, rfl, -⟩
    · simp [hnone] at hx
    · rw [value?, hv]
      exact hsame.symm.trans hx
    · exact absurd rfl hbrings

/-- A node is told something, and will say what has become of it. -/
theorem Truthful.told [LinkedNode ν] [CandidNode ν] {k : String} {notice : Notice} {n : ν}
    (h : Truthful gone r [.tell k notice]) (hn : r.get? k = some n)
    (hw : Wired (r.reshape k n (answer n notice).2)) :
    Truthful gone (r.reshape k n (answer n notice).2)
      ((answer n notice).1.map (.perform k)) := by
  have hv := view?_of_get? hn
  have hripe := h.ripe _ rfl
  obtain ⟨v', hanswers, hview⟩ := h.wired.exists_answers hn hripe.proper
  have huntold := untold_reshape r k n (answer n notice).2
  have hviews := view?_reshape r k n (answer n notice).2
  rw [hview] at hviews
  generalize r.reshape k n (answer n notice).2 = r' at hw huntold hviews ⊢
  generalize (answer n notice).1 = effects at hanswers ⊢
  have hother : ∀ j, j ≠ k → r'.view? j = r.view? j := fun j hj => (hviews j).trans (if_neg hj)
  have hself : r'.view? k = some v' := (hviews k).trans (if_pos rfl)
  have hsays : (Node.view n).Says v' effects :=
    hanswers.says fun he => by
      subst he
      exact hripe _ hv
  have hdep : r'.isDependable k = v'.dependable := isDependable_of_view? hself
  obtain ⟨hfirst, hlater⟩ := ripe_and_calm_of_says hsays hdep
  -- Each clause is about the node itself, which has answered, or another, which is as before.
  refine ⟨hw, fun j w hj => ?held, fun j hj hquiet => ?seems_eq, fun j x hx _ => ?told_eq, hfirst,
    hlater, fun j hj => ⟨?farewell, fun u hu => ?farewell_tasks⟩⟩
  case held =>
    by_cases hjk : j = k
    · subst hjk
      obtain rfl := Option.some.inj (hself.symm.trans hj)
      exact h.isSome_of_answers hv hanswers
    · exact h.held j w (hother j hjk ▸ hj)
  case seems_eq =>
    rw [huntold.seemsDependable_eq,
      h.seems_eq j hj fun u hu => Option.some.inj hu ▸ show ¬ False from id]
    by_cases hjk : j = k
    · subst hjk
      rw [hdep, dependable_eq_of_says hsays hquiet, isDependable_of_view? hv]
    · rw [isDependable_congr (hother j hjk)]
  case told_eq =>
    rw [huntold.toldValue?_eq]
    by_cases hjk : j = k
    · subst hjk
      rw [value?, hself] at hx
      exact h.toldValue?_of_answers hv hanswers hx
    · rw [value?, hother j hjk, ← value?] at hx
      refine h.told_eq j x hx fun u hu hbrings => hjk ?_
      obtain rfl := Option.some.inj hu
      exact (brings_tell_iff.1 hbrings).2.symm
  case farewell =>
    rw [huntold.seemsDependable_eq]
    exact (h.farewell j hj).1
  case farewell_tasks =>
    obtain ⟨e, he, rfl⟩ := List.mem_map.1 hu
    exact hanswers.isLoss ((h.farewell j hj).2 _ List.mem_cons_self) e he

/-! ## Steps -/

omit [LawfulNode ν] in
/-- Those who are told of what a node has said may be told of it whenever it is their turn. -/
theorem Wired.calm_of_mem_dispatch (h : Wired r) {key : String} {s : Signal} {u : Task}
    (hu : u ∈ r.dispatch key s (.node key)) : u.Calm := by
  obtain ⟨l, hl, rfl⟩ := List.mem_map.1 hu
  have hlistens := (h.mem_listenersOf key l).1 hl
  cases l with
  | owner k => cases s <;> exact hlistens.1.symm
  | dependent k => trivial

/-- A node says that it has become dependable, or that it is not dependable any more. -/
theorem Truthful.spoken {key : String} {s : Signal} {wide : Bool}
    (h : Truthful gone r [.perform key (.broadcast s wide)])
    (hw : Wired (r.publishSignal key s wide)) :
    Truthful gone (r.publishSignal key s wide)
      ((r.publishSignal key s wide).dispatch key s (.node key)) := by
  have hview := view?_publishSignal r key s wide
  -- What is said is what is so, and it is not about values.
  have htrue : s.label ∈ standingLabels ∧ decide (s.label = "Validate Ok") = r.isDependable key ∧
      s.label ≠ "Compile Ok" := by
    rcases (h.ripe _ rfl : (s = .validated ∧ _) ∨ (s = .invalidated ∧ _)) with
      ⟨rfl, hdep⟩ | ⟨rfl, hdep⟩ <;> rw [hdep] <;> decide
  have hcalm : ∀ u ∈ (r.publishSignal key s wide).dispatch key s (.node key), u.Calm :=
    fun u hu => hw.calm_of_mem_dispatch hu
  refine ⟨hw, fun k v hv => h.held k v (hview ▸ hv), fun k hk _ => ?_, fun k x hx _ => ?_,
    fun u hu => (hcalm u (List.mem_of_mem_head? hu)).ripe _,
    fun u hu => hcalm u (List.mem_of_mem_tail hu), fun k hk => ⟨?_, fun u hu => ?_⟩⟩
  · rw [seemsDependable_publishSignal, isDependable_congr (congrFun hview k)]
    by_cases hkey : k = key
    · rw [if_pos ⟨hkey, htrue.1⟩, htrue.2.1, hkey]
    · rw [if_neg fun hc => hkey hc.1]
      exact h.seems_eq k hk fun u hu => Option.some.inj hu ▸ Ne.symm hkey
  · rw [toldValue?_publishSignal, if_neg fun hc => htrue.2.2 hc.2]
    rw [value?, hview] at hx
    exact h.told_eq k x hx fun u hu => Option.some.inj hu ▸ id
  · obtain ⟨hsilent, hloss⟩ := h.farewell k hk
    have hs : IsLoss s := hloss _ List.mem_cons_self
    rw [seemsDependable_publishSignal]
    split
    · rcases hs with rfl | rfl <;> rfl
    · exact hsilent
  · exact isLoss_of_mem_dispatch ((h.farewell k hk).2 _ List.mem_cons_self) hu

/-- A value has come. -/
theorem Truthful.brought {key : String} {value : Json} (h : Truthful gone r [])
    (hnone : ∀ k, ¬ gone k) (hw : Wired r') (hview : r'.view? = r.view?)
    (hpublished : r'.published = (r.publishSignal key (.compiled value) false).published) :
    Truthful gone r' [.tell key (.own (.compiled value) .registry)] := by
  have hsame : Untold (r.publishSignal key (.compiled value) false) r' :=
    untold_of_published hpublished
  have htold : ∀ j, r'.toldValue? j = if j = key then some value else r.toldValue? j := by
    intro j
    rw [hsame.toldValue?_eq, toldValue?_publishSignal]
    exact if_congr (and_iff_left rfl) rfl rfl
  -- A value by itself says nothing of the standing.
  have hstanding : ∀ j, r'.seemsDependable j = r.seemsDependable j := by
    intro j
    rw [hsame.seemsDependable_eq, seemsDependable_publishSignal]
    exact if_neg fun hc => by simp [Signal.label, standingLabels] at hc
  refine ⟨hw, fun k v hv => h.held k v (hview ▸ hv), fun k hk _ => ?_, fun k x hx hbrings => ?_,
    fun u hu => ?_, by simp, fun k hk => absurd hk (hnone k)⟩
  · rw [hstanding, isDependable_congr (congrFun hview k)]
    exact h.seems_eq k hk (by simp)
  · have hk : k ≠ key := fun hk => hbrings _ rfl hk.symm
    rw [htold, if_neg hk]
    rw [value?, hview] at hx
    exact h.told_eq k x hx (by simp)
  · obtain rfl := Option.some.inj hu
    show r'.toldValue? key = some value
    rw [htold, if_pos rfl]

variable [LinkedNode ν] [CandidNode ν]

/-- A task by itself leaves what is true behind. -/
theorem Truthful.step_single (h : Truthful gone r [t]) :
    Truthful gone (r.step t).1 (r.step t).2 := by
  have hl := linked_step r t
  have hw : Wired (r.step t).1 := h.wired.of_frame hl.toFrame hl.links?_eq
  have hstep := steps_step r t
  generalize (r.step t).1 = r', (r.step t).2 = more at hw hstep ⊢
  -- Apart from notices and values, nothing that is published says anything of a node.
  cases hstep with
  | @absent key notice hn =>
    have hview : r.view? key = none := by rw [view?, hn, Option.map_none]
    exact h.drop (fun _ => id) fun k hk => (brings_tell_iff.1 hk).2 ▸ hview
  | told hn => exact h.told hn hw
  | broadcast => exact h.spoken hw
  | valueless he => rcases he with rfl | rfl <;> exact h.request (by simp)
  | unregistered => exact h.request (by simp)
  | announced =>
    exact (h.request (by simp)).of_same hw rfl (untold_publish r rfl).sameTidings
  | rejected | lacking =>
    exact (h.request (by simp)).of_same hw rfl
      (untold_publishError r _ _ _).sameTidings
  | @queued key n =>
    have huntold : Untold r ((r.bumpGeneration key).2.queueJob (r.nextJob key n)) :=
      untold_of_published rfl
    exact (h.request (by simp)).of_same hw rfl huntold.sameTidings
  | @uncached key n missing =>
    have huntold : Untold r ({ (r.bumpGeneration key).2 with
        compiler := (r.compiler.compile (r.nextJob key n)).2 } : Registry ν) :=
      untold_of_published rfl
    exact (h.request (by simp)).of_same hw rfl
      (huntold.trans (untold_publishError _ _ _ _)).sameTidings
  | @validated key n value hn hvalue =>
    refine (h.request (by simp)).ask (.inl ?_) fun k hk =>
      ((h.farewell k hk).2 _ List.mem_cons_self).elim
    rw [value?, view?_of_get? hn]
    exact Option.isSome_iff_exists.2 ⟨value, hvalue⟩
  | compiled =>
    exact (h.request (by simp)).brought
      (fun k hk => (h.farewell k hk).2 _ List.mem_cons_self) hw rfl rfl

/-- What followers have been told stays true, step by step. -/
theorem Truthful.step (h : Truthful gone r (t :: tasks)) :
    Truthful gone (r.step t).1 ((r.step t).2 ++ tasks) :=
  h.single.step_single.append h.calm fun k hk u hu =>
    (h.farewell k hk).2 u (List.mem_cons_of_mem t hu)

end Registry

end LayeredAccess
