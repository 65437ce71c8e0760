/-
  LayeredAccess.Proofs.Registry.LossOrder

  Who is told of a loss, and in which order. When a node stops being
  dependable, the news spread from dependents to their dependents
  (`Spreading`): every node that loses its standing says so once, and each
  learns of it from a node that has said so before.

  What follows a gain says nothing of losses (`notified_run_of_gain`).
-/
import LayeredAccess.Proofs.Node.Effects
import LayeredAccess.Proofs.Registry.Coherence
import LayeredAccess.Proofs.Registry.Steps
import LayeredAccess.Proofs.Registry.Structure

namespace LayeredAccess.Registry

variable {ν : Type} [Node ν]

/-! ## Notices of invalid nodes -/

/-- Does an action tell of an invalid node? -/
def isInvalid (ν : Type) [Node ν] (a : Action) : Bool := a.kind == actionKind ν "Invalid"

/-- What is published of a node that has become invalid: a notice to its followers, and a wide
one to those who follow the kind. -/
def invalidNotices (ν : Type) [Node ν] (key : String) (wide : Bool) : List Action :=
  { kind := actionKind ν "Invalid", id := some key, payload := none } ::
    if wide then
      [{ kind := actionKind ν "Invalid", id := none, payload := some (.mkObj [("id", .str key)]) }]
    else []

/-- Between two moments just some notices of invalid nodes have been published, in this order,
whatever else has been. -/
def Notified (r r' : Registry ν) (notices : List Action) : Prop :=
  ∃ news, r'.published = r.published ++ news ∧ news.filter (isInvalid ν) = notices

variable {r r' r'' : Registry ν}

theorem notified_of_published (h : r'.published = r.published) : Notified r r' [] :=
  ⟨[], by rw [h, List.append_nil], rfl⟩

theorem Notified.trans {xs ys : List Action} (h : Notified r r' xs) (h' : Notified r' r'' ys) :
    Notified r r'' (xs ++ ys) := by
  obtain ⟨news, hnews, rfl⟩ := h
  obtain ⟨news', hnews', rfl⟩ := h'
  exact ⟨news ++ news', by rw [hnews', hnews, List.append_assoc], List.filter_append ..⟩

theorem Notified.trans_nil {xs : List Action} (h : Notified r r' xs) (h' : Notified r' r'' []) :
    Notified r r'' xs := by
  simpa using h.trans h'

theorem notified_publish (r : Registry ν) (a : Action) :
    Notified r (r.publish a) (if isInvalid ν a then [a] else []) :=
  ⟨[a], rfl, by cases h : isInvalid ν a <;> simp [h]⟩

/-- Actions are of different kinds if their labels differ. -/
theorem actionKind_inj {label label' : String} :
    actionKind ν label = actionKind ν label' ↔ label = label' :=
  String.append_right_inj _

theorem isInvalid_lifecycle (label : String) (id : Option String) (payload : Option Json) :
    isInvalid ν { kind := actionKind ν label, id, payload } = decide (label = "Invalid") := by
  rw [isInvalid, Bool.eq_iff_iff, beq_iff_eq, decide_eq_true_eq, actionKind_inj]

theorem notified_publish_of_ne (r : Registry ν) {label : String} (h : label ≠ "Invalid")
    (id : Option String) (payload : Option Json) :
    Notified r (r.publish { kind := actionKind ν label, id, payload }) [] := by
  simpa [isInvalid_lifecycle, h] using
    notified_publish r { kind := actionKind ν label, id, payload }

/-- A request to the directory is none of the notices of a kind, which end in other letters. -/
theorem directoryPublish_ne_actionKind {label : String} (hlabel : label.toList ≠ [])
    (hlast : label.toList.getLast? ≠ some 'w') : Action.directoryPublish ≠ actionKind ν label := by
  intro h
  have hend : (actionKind ν label).toList.getLast? = label.toList.getLast? := by
    rw [actionKind, Action.lifecycleKind, String.toList_append,
      List.getLast?_append_of_ne_nil _ hlabel]
  rw [← h] at hend
  exact hlast hend.symm

theorem isInvalid_directoryPublish (payload : Option Json) :
    isInvalid ν { kind := Action.directoryPublish, id := none, payload } = false := by
  rw [isInvalid, beq_eq_false_iff_ne]
  exact directoryPublish_ne_actionKind (by decide) (by decide)

theorem notified_publishSignal_of_ne (r : Registry ν) (k : String) {s : Signal} (wide : Bool)
    (h : s.label ≠ "Invalid") : Notified r (r.publishSignal k s wide) [] := by
  have hnarrow : Notified r (r.publishNarrow k s) [] := notified_publish_of_ne r h _ _
  unfold publishSignal
  split
  · exact hnarrow.trans_nil (notified_publish_of_ne _ h _ _)
  · exact hnarrow

theorem notified_publishSignal (r : Registry ν) (k : String) (wide : Bool) :
    Notified r (r.publishSignal k .invalidated wide) (invalidNotices ν k wide) := by
  cases wide with
  | false => exact ⟨_, rfl, by simp [invalidNotices, isInvalid_lifecycle, Signal.label]⟩
  | true =>
    refine ⟨invalidNotices ν k true, ?_, ?_⟩
    · show r.published ++ _ ++ _ = _
      rw [List.append_assoc]
      rfl
    · simp [invalidNotices, isInvalid_lifecycle]

/-- Telling a node publishes nothing. -/
theorem published_tell (r : Registry ν) (k : String) (notice : Notice) :
    (r.tell k notice).1.published = r.published := by
  unfold tell
  split
  · rfl
  · exact published_reshape r k _ _

theorem published_of_tell {k : String} {notice : Notice} {tasks : List Task}
    (h : r.tell k notice = (r', tasks)) : r'.published = r.published := by
  rw [← published_tell r k notice, h]

/-! ## What follows a gain -/

/-- The tasks that speak of gains. -/
def Task.IsGain : Task → Prop
  | .tell _ notice => notice.IsGain
  | .perform _ effect => effect.IsGain

theorem Signal.IsGain.label_ne {s : Signal} (h : s.IsGain) : s.label ≠ "Invalid" := by
  cases s with
  | compiled | validated => simp [Signal.label]
  | added | updated | deleted | invalidated | customized => exact h.elim

variable [SpeakingNode ν]

/-- A task that speaks of a gain leads to such tasks, and publishes no notice of an invalid
node. -/
theorem Steps.isGain {t : Task} {more : List Task} (h : Steps r t r' more) (ht : t.IsGain) :
    Notified r r' [] ∧ ∀ u ∈ more, u.IsGain := by
  -- What is published on the way is of other kinds.
  cases h with
  | absent | valueless | unregistered | queued => exact ⟨notified_of_published rfl, by simp⟩
  | told =>
    refine ⟨notified_of_published (published_reshape ..), fun u hu => ?_⟩
    obtain ⟨e, he, rfl⟩ := List.mem_map.1 hu
    exact SpeakingNode.gain_answer _ ht e he
  | broadcast =>
    refine ⟨notified_publishSignal_of_ne r _ _ (Signal.IsGain.label_ne ht), fun u hu => ?_⟩
    obtain ⟨l, -, rfl⟩ := List.mem_map.1 hu
    cases l <;> exact ht
  | announced _ payload =>
    have hpublish :=
      notified_publish r { kind := Action.directoryPublish, payload := some payload }
    rw [isInvalid_directoryPublish, if_neg Bool.false_ne_true] at hpublish
    exact ⟨hpublish, by simp⟩
  | validated =>
    exact ⟨notified_of_published rfl, by simp [Task.IsGain, Notice.IsGain, Signal.IsGain]⟩
  | rejected | lacking => exact ⟨notified_publish_of_ne r (by simp) _ _, by simp⟩
  | uncached =>
    refine ⟨Notified.trans_nil ?_ (notified_publish_of_ne _ (by simp) _ _), by simp⟩
    exact notified_of_published rfl
  | compiled =>
    refine ⟨Notified.trans_nil ?_ (notified_publishSignal_of_ne _ _ false ?_), ?_⟩
    · exact notified_of_published rfl
    · simp [Signal.label]
    · simp [Task.IsGain, Notice.IsGain, Signal.IsGain]

/-- What follows gains tells of no invalid node. -/
theorem notified_run_of_gain {tasks : List Task} (h : ∀ t ∈ tasks, t.IsGain) (bound : Nat)
    (r : Registry ν) : Notified r (Agenda.run step bound r tasks).1 [] := by
  refine Agenda.run_invariant_of (P := fun r' => Notified r r' []) (Q := Task.IsGain)
    (fun r' t hr' ht => ?_) bound r tasks (notified_of_published rfl) h
  obtain ⟨hnotified, htasks⟩ := (steps_step r' t).isGain ht
  exact ⟨hr'.trans_nil hnotified, htasks⟩

/-! ## What single tasks of a falling cascade do -/

omit [SpeakingNode ν]

section Tasks

variable [NodeKind ν] [LawfulNode ν] {verifier : Option Verifier} {width : Nat}
  {height : String → Nat} {bound : Nat} {doomed : String → Prop} {rest : List Task}

/-- A node that is told of a lost dependency stops being dependable, and says so if it was. -/
theorem Falling.step_dependency {n d : String} {s : Signal}
    (h : Falling verifier width height bound doomed r (.tell n (.dependency d s) :: rest)) :
    ∃ r', r.step (.tell n (.dependency d s)) =
        (r', if r.isDependable n then [.perform n (.broadcast .invalidated true)] else []) ∧
      (∀ k, r'.isDependable k = if k = n then false else r.isDependable k) ∧
      r'.published = r.published := by
  obtain ⟨hs, -, ⟨v, hv, hd⟩, -⟩ := h.allowed _ List.mem_cons_self
  obtain ⟨m, hm, rfl⟩ := exists_get? hv
  have hfits := h.steady.fits n _ hv
  obtain ⟨r', htell, hc⟩ :=
    tell_eq hm (LawfulNode.lost m d s hs hfits.sound hd (hfits.known d hd))
  refine ⟨r', ?_, fun k => ?_, ?_⟩
  · rw [isDependable_of_view? hv]
    refine htell.trans ?_
    split <;> rfl
  · rw [isDependable_set hc.view?_eq, NodeView.fallen_dependable]
  · exact published_of_tell htell

/-- A node that is told of what it has told others stays as it is. -/
theorem Falling.step_echo {n : String} {s : Signal}
    (h : Falling verifier width height bound doomed r (.tell n (.own s (.node n)) :: rest)) :
    ∃ r', r.step (.tell n (.own s (.node n))) = (r', []) ∧
      (∀ k, r'.isDependable k = r.isDependable k) ∧ r'.published = r.published := by
  obtain ⟨hsome, -⟩ := h.allowed _ List.mem_cons_self
  obtain ⟨r', htell, ha⟩ := h.steady.wired.tell_echo hsome s
  exact ⟨r', htell, ha.isDependable_eq, published_of_tell htell⟩

omit [NodeKind ν] [LawfulNode ν] in
/-- What a node asks for when it loses its value because of news about itself. -/
theorem loss_eq [SpeakingNode ν] {n : ν} {s : Signal} {origin : Origin} {v : NodeView}
    {loss more : List Effect} (hloss : v.Loss loss)
    (hanswer : (answer n (.own s origin)).1 = loss ++ more) :
    loss = [.broadcast .invalidated false] ∨ (loss = [] ∧ v.dependable = false) := by
  cases hloss with
  | told wide =>
    cases wide with
    | false => exact .inl rfl
    | true =>
      refine absurd ?_ (SpeakingNode.narrow_answer n s origin .invalidated)
      rw [hanswer]
      exact List.mem_append_left _ List.mem_cons_self
  | silent hplain => exact .inr ⟨rfl, hplain⟩

/-- A node that is told of its deletion stops being dependable, and tells its followers if it
was. -/
theorem Falling.step_deleted [SpeakingNode ν] {n : String}
    (h : Falling verifier width height bound doomed r
      (.tell n (.own .deleted .registry) :: rest)) :
    ∃ r' more, r.step (.tell n (.own .deleted .registry)) = (r', more) ∧
      (more = [.perform n (.broadcast .invalidated false)] ∨ more = []) ∧
      (∀ k, k ≠ n → r'.isDependable k = r.isDependable k) ∧ r'.published = r.published := by
  obtain ⟨hsome, -⟩ := h.allowed _ List.mem_cons_self
  obtain ⟨v, hv⟩ := Option.isSome_iff_exists.1 hsome
  obtain ⟨m, hm, rfl⟩ := exists_get? hv
  obtain ⟨loss, hloss, hreacts⟩ := LawfulNode.deleted m
  obtain ⟨r', htell, hc⟩ := tell_eq hm hreacts
  refine ⟨r', _, htell, ?_, fun k hk => ?_, ?_⟩
  -- The node speaks of its loss, unless it has none.
  · have hanswer : (answer m (.own .deleted .registry)).1 = loss ++ [] := by
      rw [List.append_nil]
      exact hreacts.effects_eq
    rcases loss_eq hloss hanswer with rfl | ⟨rfl, -⟩
    · exact .inl rfl
    · exact .inr rfl
  · rw [isDependable_set hc.view?_eq, if_neg hk]
  · exact published_of_tell htell

end Tasks

/-! ## Spreading -/

/-- The nodes that are still to say that they have become invalid, or may do so. -/
def pending (tasks : List Task) : List String := tasks.filterMap fun
  | .perform k (.broadcast _ _) => some k
  | .tell k (.own .deleted .registry) => some k
  | _ => none

/-- A node has learnt of the loss of a certain node: from that node, or from another one on which
it depends and which is among those that have spoken earlier. -/
def Learnt (r : Registry ν) (lost : String) (earlier : List String) (k : String) : Prop :=
  r.DependsOn k lost ∨ ∃ d ∈ earlier, d ≠ lost ∧ r.DependsOn k d

theorem Learnt.mono {lost k : String} {earlier : List String} (h : Learnt r lost earlier k)
    (d : String) : Learnt r lost (earlier ++ [d]) k :=
  h.imp id fun ⟨e, he, hne, hk⟩ => ⟨e, List.mem_append_left _ he, hne, hk⟩

/-- What holds while the loss of a node spreads, where `told` are the nodes that have become
invalid and have said so, and `r₀` is the registry before. -/
structure Spreading [NodeKind ν] (verifier : Option Verifier) (width : Nat)
    (height : String → Nat) (doomed : String → Prop) (r₀ : Registry ν) (lost : String)
    (told : List String) (r : Registry ν) (tasks : List Task) : Prop where
  falling : Falling verifier width height (height lost) doomed r tasks
  doomed_eq : ∀ k, doomed k → k = lost
  links?_eq : ∀ k, k ≠ lost → r.links? k = r₀.links? k
  notified : Notified r₀ r (told.flatMap fun k => invalidNotices ν k (k ≠ lost))
  /-- The node itself speaks to its followers only, all others also to those of the kind. -/
  wide_eq : ∀ k s wide, .perform k (.broadcast s wide) ∈ tasks → wide = decide (k ≠ lost)
  nodup : (told ++ pending tasks).Nodup
  /-- Those who were dependable, and are not any more, have spoken or are about to. -/
  mem_iff : ∀ k, k ≠ lost → (k ∈ told ++ pending tasks ↔
    r₀.isDependable k = true ∧ r.isDependable k = false)
  isDependable_before : ∀ k, k ≠ lost → r.isDependable k = true → r₀.isDependable k = true
  learnt_pending : ∀ k ∈ pending tasks, k ≠ lost → Learnt r₀ lost told k
  learnt_told : ∀ before k after, told = before ++ k :: after → k ≠ lost →
    Learnt r₀ lost before k
  /-- Only those who have spoken are spoken of. -/
  spoken : ∀ n d s, .tell n (.dependency d s) ∈ tasks → d = lost ∨ d ∈ told
  given_up : doomed lost ∨ r.isDependable lost = false

theorem pending_cons (t : Task) (rest : List Task) :
    pending (t :: rest) = pending [t] ++ pending rest := by
  rw [pending, pending, pending, ← List.filterMap_append, List.singleton_append]

theorem pending_append (xs ys : List Task) : pending (xs ++ ys) = pending xs ++ pending ys :=
  List.filterMap_append

omit [Node ν] in
/-- What a node tells its channel is not to be said again. -/
theorem pending_dispatch (r : Registry ν) (d k : String) (s : Signal) :
    pending (r.dispatch d s (.node k)) = [] := by
  rw [pending, dispatch, List.filterMap_map, List.filterMap_eq_nil_iff]
  intro l _
  cases l <;> simp

section Spreads

variable [NodeKind ν] [LawfulNode ν] [LinkedNode ν] {verifier : Option Verifier} {width : Nat}
  {height : String → Nat} {doomed : String → Prop} {r₀ : Registry ν} {lost : String}
  {told : List String} {rest : List Task}

omit [LawfulNode ν] [LinkedNode ν] in
/-- A task that has made no difference to who is dependable is done. -/
theorem Spreading.of_quiet {t : Task} {more : List Task}
    (h : Spreading verifier width height doomed r₀ lost told r (t :: rest))
    (hfalling : Falling verifier width height (height lost) doomed r' (more ++ rest))
    (hlinks : ∀ k, r'.links? k = r.links? k)
    (hdependable : ∀ k, k ≠ lost → r'.isDependable k = r.isDependable k)
    (hpublished : r'.published = r.published)
    (hmore : ∀ u ∈ more, u = .perform lost (.broadcast .invalidated false))
    (hpending : (pending more).Sublist (pending [t]))
    (hother : ∀ k, k ≠ lost → k ∉ pending [t])
    (hgiven : doomed lost ∨ r'.isDependable lost = false) :
    Spreading verifier width height doomed r₀ lost told r' (more ++ rest) := by
  have hsub : (told ++ pending (more ++ rest)).Sublist (told ++ pending (t :: rest)) := by
    rw [pending_append, pending_cons t rest]
    exact (List.Sublist.refl told).append (hpending.append (.refl _))
  -- Whoever is about to speak, apart from the lost node, was so before.
  have hmem : ∀ k, k ≠ lost → (k ∈ pending (more ++ rest) ↔ k ∈ pending (t :: rest)) := by
    intro k hk
    rw [pending_append, pending_cons t rest, List.mem_append, List.mem_append]
    have hnot := hother k hk
    exact or_congr_left ⟨fun hin => absurd (hpending.subset hin) hnot, fun hin => absurd hin hnot⟩
  refine ⟨hfalling, h.doomed_eq, fun k hk => (hlinks k).trans (h.links?_eq k hk),
    h.notified.trans_nil (notified_of_published hpublished), fun k s wide hin => ?wide_eq,
    h.nodup.sublist hsub, fun k hk => ?mem_iff, fun k hk hdep => ?dependable,
    fun k hin hk => ?learnt_pending, h.learnt_told, fun n d s hin => ?spoken, hgiven⟩
  case wide_eq =>
    rcases List.mem_append.1 hin with hin | hin
    · obtain ⟨rfl, -, rfl⟩ : k = lost ∧ s = .invalidated ∧ wide = false := by
        simpa using hmore _ hin
      simp
    · exact h.wide_eq k s wide (List.mem_cons_of_mem _ hin)
  case mem_iff =>
    rw [List.mem_append, hmem k hk, ← List.mem_append, h.mem_iff k hk, hdependable k hk]
  case dependable => exact h.isDependable_before k hk (by rwa [← hdependable k hk])
  case learnt_pending => exact h.learnt_pending k ((hmem k hk).1 hin) hk
  case spoken =>
    rcases List.mem_append.1 hin with hin | hin
    · simpa using hmore _ hin
    · exact h.spoken n d s (List.mem_cons_of_mem _ hin)

omit [LawfulNode ν] [LinkedNode ν] in
/-- A node stops being dependable because it has lost a dependency. It is about to say so. -/
theorem Spreading.of_lost {n d : String} {s : Signal}
    (h : Spreading verifier width height doomed r₀ lost told r (.tell n (.dependency d s) :: rest))
    (hdep : r.isDependable n = true) {v : NodeView} (hv : r.view? n = some v)
    (hd : d ∈ v.inputs.dependencies) (hn : n ≠ lost)
    (hfalling : Falling verifier width height (height lost) doomed r'
      (.perform n (.broadcast .invalidated true) :: rest))
    (hlinks : ∀ k, r'.links? k = r.links? k)
    (hdependable : ∀ k, r'.isDependable k = if k = n then false else r.isDependable k)
    (hpublished : r'.published = r.published) :
    Spreading verifier width height doomed r₀ lost told r'
      (.perform n (.broadcast .invalidated true) :: rest) := by
  have hpending : pending (.perform n (.broadcast .invalidated true) :: rest) =
      n :: pending rest := rfl
  have hold : pending (.tell n (.dependency d s) :: rest) = pending rest := rfl
  have hmem_iff := h.mem_iff
  have hlearnt := h.learnt_pending
  have hnodup := h.nodup
  rw [hold] at hmem_iff hlearnt hnodup
  -- The node has not spoken before, since it was dependable until now.
  have hfresh : n ∉ told ++ pending rest := by
    rw [hmem_iff n hn, hdep]
    simp
  have hdepends : r₀.DependsOn n d := by
    obtain ⟨m, hm, rfl⟩ := exists_get? hv
    exact (dependsOn_congr (h.links?_eq n hn) d).1 ⟨m, hm, hd⟩
  refine ⟨hfalling, h.doomed_eq, fun k hk => (hlinks k).trans (h.links?_eq k hk),
    h.notified.trans_nil (notified_of_published hpublished), fun k s' wide hin => ?wide_eq, ?nodup,
    fun k hk => ?mem_iff, fun k hk hk' => ?dependable, fun k hin hk => ?learnt_pending,
    h.learnt_told, fun m e s' hin => ?spoken, h.given_up.imp id fun hlost => ?given_up⟩
  case wide_eq =>
    rcases List.mem_cons.1 hin with hin | hin
    · obtain ⟨rfl, -, rfl⟩ : k = n ∧ s' = .invalidated ∧ wide = true := by simpa using hin
      simp [hn]
    · exact h.wide_eq k s' wide (List.mem_cons_of_mem _ hin)
  case nodup =>
    rw [hpending]
    exact (List.perm_middle.nodup_iff).2 (List.nodup_cons.2 ⟨hfresh, hnodup⟩)
  case mem_iff =>
    rw [hpending, List.mem_append, List.mem_cons, or_left_comm, ← List.mem_append,
      hmem_iff k hk, hdependable]
    by_cases hkn : k = n
    · simp [hkn, h.isDependable_before n hn hdep]
    · simp [hkn]
  case dependable =>
    rw [hdependable] at hk'
    split at hk'
    · simp at hk'
    · exact h.isDependable_before k hk hk'
  case learnt_pending =>
    rw [hpending] at hin
    rcases List.mem_cons.1 hin with rfl | hin
    · rcases h.spoken k d s List.mem_cons_self with rfl | hd'
      · exact .inl hdepends
      · by_cases hdl : d = lost
        · exact .inl (hdl ▸ hdepends)
        · exact .inr ⟨d, hd', hdl, hdepends⟩
    · exact hlearnt k hin hk
  case spoken =>
    refine h.spoken m e s' (List.mem_cons_of_mem _ ?_)
    exact (List.mem_cons.1 hin).resolve_left (by simp)
  case given_up => rw [hdependable, if_neg (Ne.symm hn), hlost]

/-- A node is told of a lost dependency. -/
theorem Spreading.dependency {n d : String} {s : Signal} {more : List Task}
    (h : Spreading verifier width height doomed r₀ lost told r (.tell n (.dependency d s) :: rest))
    (hstep : r.step (.tell n (.dependency d s)) = (r', more))
    (hfalling : Falling verifier width height (height lost) doomed r' (more ++ rest)) :
    Spreading verifier width height doomed r₀ lost told r' (more ++ rest) := by
  obtain ⟨-, hlt, ⟨v, hv, hd⟩, -⟩ := h.falling.allowed _ List.mem_cons_self
  have hn : n ≠ lost := by
    rintro rfl
    exact Nat.lt_irrefl _ hlt
  have hlinked := linked_step r (.tell n (.dependency d s))
  rw [hstep] at hlinked
  obtain ⟨r'', hstep', hdependable, hpublished⟩ := h.falling.step_dependency
  obtain ⟨rfl, hmore⟩ := Prod.mk.inj (hstep.symm.trans hstep')
  -- A node that is not dependable has nothing to lose. One that is joins those about to speak.
  cases hdep : r.isDependable n with
  | false =>
    obtain rfl : more = [] := by rw [hmore, hdep, if_neg Bool.false_ne_true]
    have hsame : ∀ k, r'.isDependable k = r.isDependable k := by
      intro k
      rw [hdependable]
      split
      · next hk => rw [hk, hdep]
      · rfl
    exact h.of_quiet hfalling hlinked.links?_eq (fun k _ => hsame k) hpublished (by simp)
      (List.nil_sublist _) (fun k _ => by simp [pending]) (hsame lost ▸ h.given_up)
  | true =>
    obtain rfl : more = [.perform n (.broadcast .invalidated true)] := by
      rw [hmore, hdep, if_pos rfl]
    exact h.of_lost hdep hv hd hn hfalling hlinked.links?_eq hdependable hpublished

omit [LinkedNode ν] in
/-- A node says that it has become invalid. -/
theorem Spreading.broadcast {d : String} {s : Signal} {wide : Bool} {more : List Task}
    (h : Spreading verifier width height doomed r₀ lost told r
      (.perform d (.broadcast s wide) :: rest))
    (hstep : r.step (.perform d (.broadcast s wide)) = (r', more))
    (hfalling : Falling verifier width height (height lost) doomed r' (more ++ rest)) :
    Spreading verifier width height doomed r₀ lost (told ++ [d]) r' (more ++ rest) := by
  obtain ⟨rfl, -, -⟩ := h.falling.allowed _ List.mem_cons_self
  obtain ⟨rfl, rfl⟩ := Prod.mk.inj hstep.symm
  have hwide := h.wide_eq d .invalidated wide List.mem_cons_self
  have ha := (silent_publishSignal r d .invalidated wide).alike
  have hpending : pending ((r.publishSignal d .invalidated wide).dispatch d .invalidated
      (.node d) ++ rest) = pending rest := by
    rw [pending_append, pending_dispatch, List.nil_append]
  have hold : told ++ pending (.perform d (.broadcast .invalidated wide) :: rest) =
      told ++ [d] ++ pending rest := by
    rw [List.append_assoc]
    rfl
  have hnodup := h.nodup
  have hmem_iff := h.mem_iff
  rw [hold] at hnodup hmem_iff
  have hlearnt := h.learnt_pending
  have hfirst : pending (.perform d (.broadcast .invalidated wide) :: rest) = d :: pending rest :=
    rfl
  rw [hfirst] at hlearnt
  refine ⟨hfalling, h.doomed_eq, fun k hk => ?links, ?notified, fun k s' wide' hin => ?wide_eq,
    ?nodup, fun k hk => ?mem_iff, fun k hk hdep => ?dependable, fun k hin hk => ?learnt_pending,
    fun before k after heq hk => ?learnt_told, fun n e s' hin => ?spoken,
    (ha.isDependable_eq lost).symm ▸ h.given_up⟩
  case links =>
    rw [links?, ha.view?_eq, ← links?]
    exact h.links?_eq k hk
  case notified =>
    rw [List.flatMap_append, List.flatMap_singleton, ← hwide]
    exact h.notified.trans (notified_publishSignal r d wide)
  case wide_eq =>
    rcases List.mem_append.1 hin with hin | hin
    · obtain ⟨l, -, hl⟩ := List.mem_map.1 hin
      cases l <;> simp at hl
    · exact h.wide_eq k s' wide' (List.mem_cons_of_mem _ hin)
  case nodup => rwa [hpending]
  case mem_iff => rw [hpending, hmem_iff k hk, ha.isDependable_eq]
  case dependable => exact h.isDependable_before k hk (by rwa [← ha.isDependable_eq])
  case learnt_pending =>
    rw [hpending] at hin
    exact (hlearnt k (List.mem_cons_of_mem _ hin) hk).mono d
  case learnt_told =>
    -- The node that speaks has learnt of the loss from those who have spoken before.
    rcases List.eq_nil_or_concat after with rfl | ⟨after, e, rfl⟩
    · obtain ⟨rfl, hd⟩ := List.append_inj' heq rfl
      obtain rfl : d = k := by simpa using hd
      exact hlearnt d List.mem_cons_self hk
    · rw [List.concat_eq_append, ← List.cons_append, ← List.append_assoc] at heq
      exact h.learnt_told before k after (List.append_inj' heq rfl).1 hk
  case spoken =>
    rcases List.mem_append.1 hin with hin | hin
    · obtain ⟨l, -, hl⟩ := List.mem_map.1 hin
      cases l with
      | owner k => simp at hl
      | dependent k =>
        obtain ⟨-, rfl, -⟩ : k = n ∧ d = e ∧ _ := by simpa using hl
        exact .inr (by simp)
    · exact (h.spoken n e s' (List.mem_cons_of_mem _ hin)).imp id (List.mem_append_left _)

/-- Every task of a spreading loss can be done. -/
theorem Spreading.proceeds [SpeakingNode ν] {t : Task}
    (h : Spreading verifier width height doomed r₀ lost told r (t :: rest)) :
    ∃ r' more told', r.step t = (r', more) ∧
      1 + Agenda.total (Task.weight width height) more ≤ t.weight width height ∧
      Spreading verifier width height doomed r₀ lost told' r' (more ++ rest) := by
  obtain ⟨r', more, hstep, hfalling, hweight, -⟩ := h.falling.proceeds
  have hallowed := h.falling.allowed t List.mem_cons_self
  have hlinked := linked_step r t
  rw [hstep] at hlinked
  -- These are the only tasks that a falling cascade has.
  match t, hallowed with
  | .tell n (.dependency d s), _ =>
    exact ⟨r', more, told, hstep, hweight, h.dependency hstep hfalling⟩
  | .tell n (.own s origin), ⟨_, .inl horigin⟩ =>
    subst horigin
    obtain ⟨r'', hstep', hdependable, hpublished⟩ := h.falling.step_echo
    obtain ⟨rfl, rfl⟩ := Prod.mk.inj (hstep.symm.trans hstep')
    exact ⟨r', [], told, hstep, hweight, h.of_quiet hfalling hlinked.links?_eq
      (fun k _ => hdependable k) hpublished (by simp) (List.nil_sublist _)
      (fun k _ => by simp [pending]) (hdependable lost ▸ h.given_up)⟩
  | .tell n (.own s origin), ⟨_, .inr ⟨hs, horigin, hdoomed, _⟩⟩ =>
    subst hs horigin
    obtain rfl := h.doomed_eq n hdoomed
    obtain ⟨r'', more', hstep', hmore, hdependable, hpublished⟩ := h.falling.step_deleted
    obtain ⟨rfl, rfl⟩ := Prod.mk.inj (hstep.symm.trans hstep')
    refine ⟨r', more, told, hstep, hweight, h.of_quiet hfalling hlinked.links?_eq hdependable
      hpublished (fun u hu => ?_) ?_ (fun k hk => by simpa [pending] using hk) (.inl hdoomed)⟩
    · rcases hmore with rfl | rfl
      · simpa using hu
      · simp at hu
    · rcases hmore with rfl | rfl
      · exact .refl _
      · exact List.nil_sublist _
  | .perform d (.broadcast s wide), _ =>
    exact ⟨r', more, told ++ [d], hstep, hweight, h.broadcast hstep hfalling⟩

/-- A loss stops spreading, within the weight of its tasks. -/
theorem Spreading.run_eq [SpeakingNode ν] {tasks : List Task}
    (h : Spreading verifier width height doomed r₀ lost told r tasks) {steps : Nat}
    (hsteps : Agenda.total (Task.weight width height) tasks ≤ steps) :
    ∃ r' told', Agenda.run step steps r tasks = (r', []) ∧
      Spreading verifier width height doomed r₀ lost told' r' [] := by
  refine (Agenda.exists_run_eq
    (P := fun r' tasks' => ∃ told', Spreading verifier width height doomed r₀ lost told' r' tasks')
    (Task.weight width height) (fun s t rest hs => ?_) steps r tasks ⟨told, h⟩ hsteps).imp
    fun r' ⟨hrun, told', hend⟩ => ⟨told', hrun, hend⟩
  obtain ⟨told', h'⟩ := hs
  obtain ⟨r', more, told'', hstep, hweight, hnext⟩ := h'.proceeds
  exact ⟨1, r', more, Agenda.leads_of_step hstep, Nat.one_pos, hweight, told'', hnext⟩

end Spreads

end LayeredAccess.Registry
