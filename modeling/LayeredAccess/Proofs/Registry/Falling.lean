/-
  LayeredAccess.Proofs.Registry.Falling

  Cascades in which nodes lose their values.

  A node that is not dependable any more tells its dependents; each of them
  drops its value and tells its own dependents. While this goes on, a node may
  take a dependency to be dependable that is not, but then it is about to be
  told (`Falling.recorded_true`). At the end nobody is mistaken any more.
-/
import LayeredAccess.Proofs.Registry.ValueState

namespace LayeredAccess.Registry

variable {ν : Type} [Node ν] [NodeKind ν]

/-- Signals that speak of a loss. -/
def IsLoss (s : Signal) : Prop := s = .invalidated ∨ s = .deleted

/-- It is still to be told to a node that it has lost a dependency. -/
def Warned (tasks : List Task) (n d : String) : Prop :=
  (∃ s, IsLoss s ∧ .tell n (.dependency d s) ∈ tasks) ∨
    ∃ wide, .perform d (.broadcast .invalidated wide) ∈ tasks

/-- The tasks of a falling cascade, which only reaches nodes below a height. A doomed node is told
of its deletion; its dependents may learn of it before. -/
def FallingTask (height : String → Nat) (bound : Nat) (doomed : String → Prop) (r : Registry ν) :
    Task → Prop
  | .tell n (.dependency d s) => IsLoss s ∧ height n < bound ∧
      (∃ v, r.view? n = some v ∧ d ∈ v.inputs.dependencies) ∧
      (r.isDependable d = false ∨ doomed d)
  | .tell k (.own s origin) => (r.view? k).isSome ∧
      (origin = .node k ∨ (s = .deleted ∧ origin = .registry ∧ doomed k ∧ height k ≤ bound))
  | .perform d (.broadcast s _) => s = .invalidated ∧ r.isDependable d = false ∧ height d ≤ bound
  | .perform _ _ => False

/-- What holds while values are dropped. -/
structure Falling (verifier : Option Verifier) (width : Nat) (height : String → Nat) (bound : Nat)
    (doomed : String → Prop) (r : Registry ν) (tasks : List Task) : Prop where
  steady : Steady verifier r
  graded : Graded width height r
  recorded_true : ∀ n v, r.view? n = some v → ∀ d ∈ v.inputs.dependencies,
    v.recorded d = some true → r.isDependable d = true ∨ Warned tasks n d
  recorded_false : ∀ n v, r.view? n = some v → ∀ d ∈ v.inputs.dependencies,
    v.recorded d = some false → r.isDependable d = false ∨ doomed d
  ended : ∀ k, doomed k → .tell k (.own .deleted .registry) ∈ tasks ∨ r.value? k = none
  allowed : ∀ t ∈ tasks, FallingTask height bound doomed r t

variable {verifier : Option Verifier} {width : Nat} {height : String → Nat} {bound : Nat}
  {doomed : String → Prop} {r r' : Registry ν} {tasks rest : List Task}

theorem Warned.append_left {n d : String} (h : Warned tasks n d) (more : List Task) :
    Warned (more ++ tasks) n d := by
  rcases h with ⟨s, hs, ht⟩ | ⟨wide, ht⟩
  · exact .inl ⟨s, hs, List.mem_append_right _ ht⟩
  · exact .inr ⟨wide, List.mem_append_right _ ht⟩

/-- A task that has been done warns nobody any more. -/
theorem Warned.of_cons {t : Task} {n d : String} (h : Warned (t :: rest) n d) :
    Warned [t] n d ∨ Warned rest n d := by
  rcases h with ⟨s, hs, ht⟩ | ⟨wide, ht⟩
  · rcases List.mem_cons.1 ht with rfl | ht
    · exact .inl (.inl ⟨s, hs, List.mem_cons_self⟩)
    · exact .inr (.inl ⟨s, hs, ht⟩)
  · rcases List.mem_cons.1 ht with rfl | ht
    · exact .inl (.inr ⟨wide, List.mem_cons_self⟩)
    · exact .inr (.inr ⟨wide, ht⟩)

/-- What a node is told of itself warns nobody. -/
theorem not_warned_own (k : String) (s : Signal) (origin : Origin) (n d : String) :
    ¬ Warned [.tell k (.own s origin)] n d := by
  rintro (⟨s', -, hmem⟩ | ⟨wide, hmem⟩) <;> simp at hmem

/-- What a node is told of a dependency warns it of that dependency alone. -/
theorem Warned.eq_of_dependency {k e : String} {s : Signal} {n d : String}
    (h : Warned [.tell k (.dependency e s)] n d) : n = k ∧ d = e := by
  rcases h with ⟨s', -, hmem⟩ | ⟨wide, hmem⟩
  · simp only [List.mem_singleton, Task.tell.injEq, Notice.dependency.injEq] at hmem
    exact ⟨hmem.1, hmem.2.1⟩
  · simp at hmem

/-- Tasks stay tasks of a falling cascade while nodes only lose what they have. -/
theorem FallingTask.mono {t : Task} (h : FallingTask height bound doomed r t)
    (hdeps : ∀ k v, r.view? k = some v → ∃ v', r'.view? k = some v' ∧
      v'.inputs.dependencies = v.inputs.dependencies)
    (hdependable : ∀ k, r.isDependable k = false → r'.isDependable k = false) :
    FallingTask height bound doomed r' t := by
  have hsome : ∀ k, (r.view? k).isSome → (r'.view? k).isSome := by
    intro k hk
    obtain ⟨v, hv⟩ := Option.isSome_iff_exists.1 hk
    obtain ⟨v', hv', -⟩ := hdeps k v hv
    rw [hv']
    rfl
  -- A task asks for a node, a dependency or a lack of dependability, and all of these last.
  cases t with
  | tell n notice =>
    cases notice with
    | own s origin => exact ⟨hsome n h.1, h.2⟩
    | dependency d s =>
      obtain ⟨hs, hn, ⟨v, hv, hd⟩, hlost⟩ := h
      obtain ⟨v', hv', heq⟩ := hdeps n v hv
      exact ⟨hs, hn, ⟨v', hv', heq ▸ hd⟩, hlost.imp (hdependable d) id⟩
  | perform d effect =>
    cases effect with
    | broadcast s wide => exact ⟨h.1, hdependable d h.2.1, h.2.2⟩
    | compile => exact h
    | validate => exact h
    | announce => exact h

/-- What tasks lead to is added to those that are left. -/
theorem FallingTask.of_append {more : List Task}
    (hmore : ∀ t ∈ more, FallingTask height bound doomed r' t)
    (hrest : ∀ t ∈ rest, FallingTask height bound doomed r t)
    (hdeps : ∀ k v, r.view? k = some v → ∃ v', r'.view? k = some v' ∧
      v'.inputs.dependencies = v.inputs.dependencies)
    (hdependable : ∀ k, r.isDependable k = false → r'.isDependable k = false) :
    ∀ t ∈ more ++ rest, FallingTask height bound doomed r' t := by
  intro t ht
  rcases List.mem_append.1 ht with ht | ht
  · exact hmore t ht
  · exact (hrest t ht).mono hdeps hdependable

variable [LawfulNode ν]

/-- A step that concerns no node: what it leads to warns whom it has warned. -/
theorem Falling.of_alike {t : Task} {more : List Task}
    (h : Falling verifier width height bound doomed r (t :: rest)) (ha : Alike r r')
    (hwarned : ∀ n v d, r.view? n = some v → d ∈ v.inputs.dependencies → Warned [t] n d →
      Warned (more ++ rest) n d)
    (hdoomed : ∀ k, t ≠ .tell k (.own .deleted .registry))
    (hmore : ∀ u ∈ more, FallingTask height bound doomed r' u) :
    Falling verifier width height bound doomed r' (more ++ rest) := by
  refine ⟨h.steady.of_unmoved ha.toUnmoved, h.graded.of_unmoved ha.toUnmoved,
    fun n v hv d hd hr => ?_, fun n v hv d hd hr => ?_, fun k hk => ?_,
    FallingTask.of_append hmore (fun u hu => h.allowed u (List.mem_cons_of_mem _ hu))
      (fun k v hv => ⟨v, (ha.view?_eq k).trans hv, rfl⟩) fun k hk => by rwa [ha.isDependable_eq]⟩
  · rw [ha.view?_eq] at hv
    rw [ha.isDependable_eq]
    rcases h.recorded_true n v hv d hd hr with hdep | hw
    · exact .inl hdep
    · refine .inr (hw.of_cons.elim (hwarned n v d hv hd) fun hw => hw.append_left more)
  · rw [ha.view?_eq] at hv
    rw [ha.isDependable_eq]
    exact h.recorded_false n v hv d hd hr
  -- The task itself is no farewell, so those that were to come are still to come.
  · rcases h.ended k hk with ht | hvalue
    · refine .inl (List.mem_append_right _ ?_)
      exact (List.mem_cons.1 ht).resolve_left fun heq => hdoomed k heq.symm
    · exact .inr (by rw [value?, ha.view?_eq]; exact hvalue)

/-! ## Nodes that drop their values -/

/-- A task makes a node drop its value. The node tells its dependents if they could build on it
before. -/
structure Drops (verifier : Option Verifier) (doomed : String → Prop) (r r' : Registry ν)
    (t : Task) (more : List Task) (n : String) (v v' : NodeView) : Prop extends
    Changes r r' n v v' where
  key_eq : v'.key = v.key
  dependencies_eq : v'.inputs.dependencies = v.inputs.dependencies
  compiled_eq : v'.compiled = none
  fits : v'.Fits verifier
  /-- The task has not warned the node of what it still takes to be dependable. -/
  kept : ∀ d ∈ v.inputs.dependencies, v'.recorded d = some true →
    v.recorded d = some true ∧ ¬ Warned [t] n d
  learnt : ∀ d ∈ v.inputs.dependencies, v'.recorded d = some false →
    v.recorded d = some false ∨ r.isDependable d = false ∨ doomed d
  /-- The task warns no other node, and tells no other of its deletion. -/
  self : ∀ m d, Warned [t] m d → m = n
  sentenced : ∀ k, t = .tell k (.own .deleted .registry) → k = n
  told : v.dependable = true → ∃ wide, .perform n (.broadcast .invalidated wide) ∈ more

variable {t : Task} {more : List Task} {n : String} {v v' : NodeView}

theorem Drops.not_dependable (h : Drops verifier doomed r r' t more n v v') :
    r'.isDependable n = false := by
  rw [isDependable_of_view? ((h.view?_eq n).trans (if_pos rfl)),
    h.fits.dependable_eq_false h.compiled_eq]

theorem Drops.dependable_other (h : Drops verifier doomed r r' t more n v v') {j : String}
    (hj : j ≠ n) : r'.isDependable j = r.isDependable j := by
  rw [isDependable_set h.view?_eq, if_neg hj]

/-- No node becomes dependable. -/
theorem Drops.dependable_false (h : Drops verifier doomed r r' t more n v v') {k : String}
    (hk : r.isDependable k = false) : r'.isDependable k = false := by
  by_cases hkn : k = n
  · exact hkn ▸ h.not_dependable
  · exact (h.dependable_other hkn).trans hk

omit [LawfulNode ν] in
/-- Nodes keep their dependencies. -/
theorem Drops.exists_view? (h : Drops verifier doomed r r' t more n v v') {k : String}
    {w : NodeView} (hw : r.view? k = some w) :
    ∃ w', r'.view? k = some w' ∧ w'.inputs.dependencies = w.inputs.dependencies := by
  rw [h.view?_eq]
  split
  · next hkn =>
    subst hkn
    obtain rfl : v = w := Option.some.inj (h.before.symm.trans hw)
    exact ⟨v', rfl, h.dependencies_eq⟩
  · exact ⟨w, hw, rfl⟩

/-- Who takes a lost dependency to be dependable is still to be warned. -/
theorem Drops.recorded_true (hd : Drops verifier doomed r r' t more n v v')
    (h : Falling verifier width height bound doomed r (t :: rest)) {m d : String} {w : NodeView}
    (hw : r'.view? m = some w) (hmem : d ∈ w.inputs.dependencies)
    (hready : w.recorded d = some true) :
    r'.isDependable d = true ∨ Warned (more ++ rest) m d := by
  rw [hd.view?_eq] at hw
  split at hw
  -- The node itself only goes on as before.
  · next hm =>
    obtain rfl : v' = w := Option.some.inj hw
    subst hm
    rw [hd.dependencies_eq] at hmem
    obtain ⟨hold, hnot⟩ := hd.kept d hmem hready
    have hne : d ≠ m := fun he => h.steady.wired.not_mem_self hd.before (he ▸ hmem)
    rw [hd.dependable_other hne]
    exact (h.recorded_true m v hd.before d hmem hold).imp id
      fun hwarn => (hwarn.of_cons.resolve_left hnot).append_left more
  · next hm =>
    rcases h.recorded_true m w hw d hmem hready with hdep | hwarn
    -- The others are warned by what the node says, if it is the node that they rely on.
    · by_cases hdn : d = n
      · subst hdn
        rw [isDependable_of_view? hd.before] at hdep
        obtain ⟨wide, hwide⟩ := hd.told hdep
        exact .inr (.inr ⟨wide, List.mem_append_left _ hwide⟩)
      · exact .inl ((hd.dependable_other hdn).trans hdep)
    · have hrest := hwarn.of_cons.resolve_left fun hw => hm (hd.self m d hw)
      exact .inr (hrest.append_left more)

/-- What nodes take to be lost is lost. -/
theorem Drops.recorded_false (hd : Drops verifier doomed r r' t more n v v')
    (h : Falling verifier width height bound doomed r (t :: rest)) {m d : String} {w : NodeView}
    (hw : r'.view? m = some w) (hmem : d ∈ w.inputs.dependencies)
    (hready : w.recorded d = some false) : r'.isDependable d = false ∨ doomed d := by
  rw [hd.view?_eq] at hw
  split at hw
  · next hm =>
    obtain rfl : v' = w := Option.some.inj hw
    subst hm
    rw [hd.dependencies_eq] at hmem
    rcases hd.learnt d hmem hready with hold | hlost
    · exact (h.recorded_false m v hd.before d hmem hold).imp hd.dependable_false id
    · exact hlost.imp hd.dependable_false id
  · exact (h.recorded_false m w hw d hmem hready).imp hd.dependable_false id

omit [LawfulNode ν] in
/-- Doomed nodes hold no value, or are still to be told. -/
theorem Drops.ended (hd : Drops verifier doomed r r' t more n v v')
    (h : Falling verifier width height bound doomed r (t :: rest)) {k : String} (hk : doomed k) :
    .tell k (.own .deleted .registry) ∈ more ++ rest ∨ r'.value? k = none := by
  by_cases hkn : k = n
  · refine .inr ?_
    rw [value?, hd.view?_eq, if_pos hkn]
    exact hd.compiled_eq
  · rcases h.ended k hk with ht | hvalue
    · refine .inl (List.mem_append_right _ ?_)
      exact (List.mem_cons.1 ht).resolve_left fun heq => hkn (hd.sentenced k heq.symm)
    · refine .inr ?_
      rw [value?, hd.view?_eq, if_neg hkn]
      exact hvalue

theorem Falling.drop (h : Falling verifier width height bound doomed r (t :: rest))
    (hd : Drops verifier doomed r r' t more n v v')
    (hmore : ∀ u ∈ more, FallingTask height bound doomed r' u) :
    Falling verifier width height bound doomed r' (more ++ rest) where
  steady := h.steady.of_changes hd.toChanges hd.key_eq hd.dependencies_eq (.inl hd.compiled_eq)
    hd.fits
  graded := h.graded.set hd.toFrame hd.before hd.view?_eq hd.key_eq hd.dependencies_eq
  recorded_true _ _ hw _ hmem hready := hd.recorded_true h hw hmem hready
  recorded_false _ _ hw _ hmem hready := hd.recorded_false h hw hmem hready
  ended _ hk := hd.ended h hk
  allowed := FallingTask.of_append hmore (fun u hu => h.allowed u (List.mem_cons_of_mem _ hu))
    (fun _ _ hw => hd.exists_view? hw) fun _ hk => hd.dependable_false hk

omit [LawfulNode ν] in
/-- The tasks that tell a channel of a loss. -/
theorem fallingTask_dispatch (hg : Graded width height r) {d : String} {s : Signal}
    (hs : IsLoss s) (hheight : height d ≤ bound) (hd : r.isDependable d = false) :
    ∀ u ∈ r.dispatch d s (.node d), FallingTask height bound doomed r u := by
  intro u hu
  obtain ⟨l, hl, rfl⟩ := List.mem_map.1 hu
  have hlistens := (hg.wired.mem_listenersOf d l).1 hl
  cases l with
  | owner k =>
    obtain ⟨rfl, hk⟩ := hlistens
    exact ⟨hk, .inl rfl⟩
  | dependent k =>
    obtain ⟨v, hv, hmem⟩ := hlistens
    have hlt := hg.height_lt k v hv d hmem
    exact ⟨hs, by omega, ⟨v, hv, hmem⟩, .inl hd⟩

/-- A task of a falling cascade can be done: some node lapses, or nothing happens that matters. -/
def Falling.Proceeds (verifier : Option Verifier) (width : Nat) (height : String → Nat)
    (bound : Nat) (doomed : String → Prop) (r : Registry ν) (t : Task) (rest : List Task) : Prop :=
  ∃ r' more, r.step t = (r', more) ∧
    Falling verifier width height bound doomed r' (more ++ rest) ∧
    1 + Agenda.total (Task.weight width height) more ≤ t.weight width height ∧
    ∀ due, (∀ k, doomed k → k ∈ due) → r'.outlook due = r.outlook due ∨
      Outlook.Lapse (fun k => height k < bound ∨ doomed k) (r.outlook due) (r'.outlook due)

/-- A node is told that it has lost a dependency. -/
theorem Falling.lost {n d : String} {s : Signal}
    (h : Falling verifier width height bound doomed r (.tell n (.dependency d s) :: rest)) :
    Falling.Proceeds verifier width height bound doomed r (.tell n (.dependency d s)) rest := by
  obtain ⟨hs, hlt, ⟨v, hv, hd⟩, hlost⟩ := h.allowed _ List.mem_cons_self
  obtain ⟨m, hm, rfl⟩ := exists_get? hv
  have hfits := h.steady.fits n _ hv
  obtain ⟨r', htell, hc⟩ :=
    tell_eq hm (LawfulNode.lost m d s hs hfits.sound hd (hfits.known d hd))
  have hfits' : ((Node.view m).record d false).fallen.Fits verifier :=
    NodeView.fits_fallen (hfits.known_record d false)
  refine ⟨r', _, htell, ?_, ?_, fun due _ => .inr ?_⟩
  · refine h.drop ⟨hc, rfl, rfl, rfl, hfits', fun e he hr => ?kept, fun e he hr => ?learnt,
      fun j e hw => hw.eq_of_dependency.1, by simp, fun hdep => ⟨true, by simp [hdep]⟩⟩
      fun u hu => ?allowed
    -- What is recorded of other dependencies is what was recorded before.
    case kept =>
      rw [NodeView.fallen_recorded, NodeView.record_recorded] at hr
      split at hr
      · simp at hr
      · next hne => exact ⟨hr, fun hw => hne hw.eq_of_dependency.2⟩
    case learnt =>
      rw [NodeView.fallen_recorded, NodeView.record_recorded] at hr
      split at hr
      · next he => exact .inr (he ▸ hlost)
      · exact .inl hr
    case allowed =>
      split at hu
      · obtain rfl : u = .perform n (.broadcast .invalidated true) := by simpa using hu
        refine ⟨rfl, ?_, by omega⟩
        rw [isDependable_of_view? ((hc.view?_eq n).trans (if_pos rfl))]
        simp
      · simp at hu
  -- The node speaks at most once, and from above the dependency.
  · split
    · simp only [List.map_cons, List.map_nil, Agenda.total_cons, Agenda.total_nil, Task.weight]
      omega
    · simp [Task.weight]
  · rw [hc.outlook_eq_lapse rfl]
    refine .lapse rfl (fun hready => ?_) (.inl hlt)
    -- A node that has just lost a dependency is not ready.
    have hd' := of_decide_eq_true hready d hd
    simp [NodeView.record_recorded] at hd'

/-- A node is told of what it has told others. -/
theorem Falling.echo {n : String} {s : Signal}
    (h : Falling verifier width height bound doomed r (.tell n (.own s (.node n)) :: rest)) :
    Falling.Proceeds verifier width height bound doomed r (.tell n (.own s (.node n))) rest := by
  obtain ⟨hsome, -⟩ := h.allowed _ List.mem_cons_self
  obtain ⟨r', htell, ha⟩ := h.steady.wired.tell_echo hsome s
  refine ⟨r', _, htell, ?_, ?_, fun due _ => .inl (ha.outlook_eq due)⟩
  · exact h.of_alike ha (fun j w e _ _ hw => absurd hw (not_warned_own _ _ _ _ _))
      (fun k => by simp) (by simp)
  · cases s <;> simp [Task.weight]

/-- A doomed node is told of its deletion. -/
theorem Falling.deleted {n : String} (hdoomed : doomed n) (hle : height n ≤ bound)
    (h : Falling verifier width height bound doomed r
      (.tell n (.own .deleted .registry) :: rest)) :
    Falling.Proceeds verifier width height bound doomed r (.tell n (.own .deleted .registry))
      rest := by
  obtain ⟨hsome, -⟩ := h.allowed _ List.mem_cons_self
  obtain ⟨v, hv⟩ := Option.isSome_iff_exists.1 hsome
  obtain ⟨m, hm, rfl⟩ := exists_get? hv
  obtain ⟨loss, hloss, hreacts⟩ := LawfulNode.deleted m
  obtain ⟨r', htell, hc⟩ := tell_eq hm hreacts
  have hfits := h.steady.fits n _ hv
  refine ⟨r', _, htell, ?_, ?_, fun due hdue => .inr ?_⟩
  -- A doomed node keeps its records, and speaks if it was dependable.
  · refine h.drop ⟨hc, rfl, rfl, rfl, NodeView.fits_fallen hfits.known,
      fun e he hr => ⟨hr, not_warned_own _ _ _ _ _⟩, fun e he hr => .inl hr,
      fun j e hw => absurd hw (not_warned_own _ _ _ _ _), fun k hk => ?sentenced,
      fun hdep => ?told⟩ fun u hu => ?allowed
    case sentenced =>
      simp only [Task.tell.injEq] at hk
      exact hk.1.symm
    case told =>
      cases hloss with
      | told wide => exact ⟨wide, by simp⟩
      | silent hnot => simp [hnot] at hdep
    case allowed =>
      cases hloss with
      | told wide =>
        obtain rfl : u = .perform n (.broadcast .invalidated wide) := by simpa using hu
        refine ⟨rfl, ?_, hle⟩
        rw [isDependable_of_view? ((hc.view?_eq n).trans (if_pos rfl))]
        simp
      | silent hnot => simp at hu
  · cases hloss with
    | told wide =>
      simp only [List.map_cons, List.map_nil, Agenda.total_cons, Agenda.total_nil, Task.weight]
      omega
    | silent hnot => simp [Task.weight]
  · rw [hc.outlook_eq_lapse rfl]
    exact .lapse rfl (fun _ => hdue n hdoomed) (.inr hdoomed)

/-- A channel is told of a loss. -/
theorem Falling.broadcast {d : String} {s : Signal} {wide : Bool}
    (h : Falling verifier width height bound doomed r (.perform d (.broadcast s wide) :: rest)) :
    Falling.Proceeds verifier width height bound doomed r (.perform d (.broadcast s wide))
      rest := by
  obtain ⟨rfl, hnot, hle⟩ := h.allowed _ List.mem_cons_self
  have ha := (silent_publishSignal r d .invalidated wide).alike
  have hg := h.graded.of_unmoved ha.toUnmoved
  refine ⟨_, _, rfl, ?_, ?_, fun due _ => .inl (ha.outlook_eq due)⟩
  · refine h.of_alike ha (fun n v e hv he hwarned => ?_) (fun k => by simp)
      (fallingTask_dispatch hg (.inl rfl) hle ((ha.isDependable_eq d).trans hnot))
    -- Whoever the broadcast was to warn listens, and so is told by the dispatch.
    rcases hwarned with ⟨s', -, hmem⟩ | ⟨wide', hmem⟩
    · simp at hmem
    · obtain ⟨rfl, -⟩ : e = d ∧ wide' = wide := by simpa using hmem
      have hlisten : Listener.dependent n ∈
          (r.publishSignal e .invalidated wide).listenersOf e :=
        (hg.wired.mem_listenersOf e _).2 ⟨v, (ha.view?_eq n).trans hv, he⟩
      refine .inl ⟨.invalidated, .inl rfl, List.mem_append_left _ ?_⟩
      exact List.mem_map.2 ⟨_, hlisten, rfl⟩
  · have htotal := hg.total_dispatch_le d .invalidated
    simp only [Task.weight]
    omega

/-- Every task of a falling cascade can be done. -/
theorem Falling.proceeds {t : Task}
    (h : Falling verifier width height bound doomed r (t :: rest)) :
    Falling.Proceeds verifier width height bound doomed r t rest := by
  have hallowed := h.allowed t List.mem_cons_self
  match t, hallowed with
  | .tell n (.dependency d s), _ => exact h.lost
  | .tell n (.own s origin), ⟨_, .inl horigin⟩ =>
    subst horigin
    exact h.echo
  | .tell n (.own s origin), ⟨_, .inr ⟨hs, horigin, hdoomed, hle⟩⟩ =>
    subst hs horigin
    exact h.deleted hdoomed hle
  | .perform d (.broadcast s wide), _ => exact h.broadcast

/-- A falling cascade comes to an end. What is kept when nodes lapse still holds there. -/
theorem Falling.run_eq (h : Falling verifier width height bound doomed r tasks) {steps : Nat}
    (hsteps : Agenda.total (Task.weight width height) tasks ≤ steps) :
    ∃ r', Agenda.run Registry.step steps r tasks = (r', []) ∧
      Falling verifier width height bound doomed r' [] ∧
      ∀ (X : Outlook → Prop) (due : List String), (∀ k, doomed k → k ∈ due) →
        (∀ o o', Outlook.Lapse (fun k => height k < bound ∨ doomed k) o o' → X o → X o') →
        X (r.outlook due) → X (r'.outlook due) := by
  -- The invariant is carried along with what is kept, while the weight goes down.
  refine Agenda.exists_run_eq (P := fun r' tasks' =>
    Falling verifier width height bound doomed r' tasks' ∧
      ∀ (X : Outlook → Prop) (due : List String), (∀ k, doomed k → k ∈ due) →
        (∀ o o', Outlook.Lapse (fun k => height k < bound ∨ doomed k) o o' → X o → X o') →
        X (r.outlook due) → X (r'.outlook due))
    (Task.weight width height) (fun r' t rest ⟨h, hkept⟩ => ?_) steps r tasks
    ⟨h, fun X _ _ _ hr => hr⟩ hsteps
  obtain ⟨r'', more, hstep, hnext, hweight, hmove⟩ := h.proceeds
  refine ⟨1, r'', more, Agenda.leads_of_step hstep, Nat.one_pos, hweight, hnext,
    fun X due hdue hX hr => ?_⟩
  rcases hmove due hdue with heq | hlapse
  · exact heq ▸ hkept X due hdue hX hr
  · exact hX _ _ hlapse (hkept X due hdue hX hr)

/-- Nothing is left of a falling cascade but a coherent registry. -/
theorem Falling.coherent (h : Falling verifier width height bound doomed r []) :
    Coherent verifier r := by
  refine ⟨h.steady, fun n v hv d hd => ?_⟩
  obtain ⟨ready, hready⟩ := Option.isSome_iff_exists.1 ((h.steady.fits n v hv).known d hd)
  rw [hready]
  cases ready with
  | true =>
    -- No warnings are left, so what is recorded is true.
    rcases h.recorded_true n v hv d hd hready with hdep | ⟨s, -, ht⟩ | ⟨wide, ht⟩
    · rw [hdep]
    · simp at ht
    · simp at ht
  | false =>
    rcases h.recorded_false n v hv d hd hready with hdep | hdoomed
    · rw [hdep]
    · have hvalue := (h.ended d hdoomed).resolve_left (by simp)
      have hdep : r.isDependable d = false := by
        cases hdep : r.isDependable d with
        | false => rfl
        | true =>
          have := h.steady.value?_of_isDependable hdep
          simp [hvalue] at this
      rw [hdep]

end LayeredAccess.Registry
