/-
  LayeredAccess.Proofs.Registry.Changing

  Entering a node and changing it: a coherent registry is left behind, and what
  is done to the outlook is a chain of moves. A refused operation only
  publishes its error.
-/
import LayeredAccess.Proofs.Registry.Coherence

namespace LayeredAccess.Registry

variable {ν : Type} [Node ν] [NodeKind ν] [LawfulNode ν]
variable {verifier : Option Verifier} {r r' : Registry ν}

/-- An operation that leaves a coherent registry behind, going by moves. -/
structure Sound (verifier : Option Verifier) (r r' : Registry ν) : Prop where
  coherent : Coherent verifier r'
  evolves : Evolves r r'

theorem Coherent.sound_of_alike (h : Coherent verifier r) (ha : Alike r r') : Sound verifier r r' :=
  ⟨h.of_unmoved ha.toUnmoved, ha.evolves⟩

theorem Coherent.sound_refuse (h : Coherent verifier r) {α : Type} (label key : String)
    (e : EngineError) :
    Sound verifier r (r.refuse label key e : Except EngineError α × Registry ν).2 :=
  h.sound_of_alike (Silent.alike ⟨_, rfl⟩)

/-! ## Entering -/

/-- What a registry looks like in which a fresh node has just been told that it is entered. -/
theorem Coherent.of_entered {k : String} {v : NodeView} (h : Coherent verifier r)
    (hnew : r.view? k = none) (hw : Wired r') (hverifier : r'.verifier = r.verifier)
    (hview : ∀ j, r'.view? j = if j = k then some v else r.view? j)
    (hcompiled : ∀ j, r'.compiled? j = r.compiled? j) (hnone : v.compiled = none)
    (hfits : v.Fits verifier) (hrec : ∀ d ∈ v.inputs.dependencies,
      v.recorded d = some (r.isDependable d)) : Coherent verifier r' := by
  -- The cache holds nothing under the new key, and the node is not dependable yet.
  have hcached : r.compiled? k = none := by rw [h.compiled?_eq, value?, hnew]; rfl
  have hdependable : ∀ j, r'.isDependable j = r.isDependable j := by
    intro j
    rw [isDependable_set hview]
    split
    · next hj => rw [hj, hfits.dependable_eq_false hnone, isDependable_eq_false hnew]
    · rfl
  refine ⟨h.toSteady.replace hw hverifier hview (fun j => ?_) hfits, fun j w hv d hd => ?_⟩
  · rw [hcompiled]
    split
    · next hj => rw [hj, hcached, hnone]
    · rfl
  · rw [hdependable]
    rw [hview] at hv
    split at hv
    · obtain rfl : v = w := by simpa using hv
      exact hrec d hd
    · exact h.recorded_eq j w hv d hd

omit [LawfulNode ν] in
/-- A node without value may be compiled if it is ready. -/
theorem Coherent.rising_compileIfReady {k : String} {v : NodeView} {width : Nat}
    {height : String → Nat} (h : Coherent verifier r) (hg : Graded width height r)
    (hv : r.view? k = some v) (hnone : v.compiled = none) :
    Rising verifier width height (height k + 1) r (v.compileIfReady.map (.perform k)) := by
  let ks := if v.Ready then [k] else []
  have htasks : v.compileIfReady.map (Task.perform k) = ks.map (.perform · .compile) := by
    simp only [ks, NodeView.compileIfReady]
    split <;> rfl
  rw [htasks]
  refine h.rising hg ?_ fun j hj => ?_
  · simp only [ks]
    split <;> simp
  · simp only [ks] at hj
    split at hj
    · next hready =>
      obtain rfl : j = k := by simpa using hj
      exact ⟨Nat.lt_succ_self _, v, hv, hready, hnone⟩
    · simp at hj

/-- Compiling a node if it is ready, after moves that lead there. -/
theorem Coherent.sound_compile {r₁ : Registry ν} {k : String} {v : NodeView} {width steps : Nat}
    {height : String → Nat} (h : Coherent verifier r₁) (hg : Graded width height r₁)
    (hv : r₁.view? k = some v) (hnone : v.compiled = none)
    (hsteps : Task.weight width height (.perform k .compile) ≤ steps)
    (hmoves : ∀ X, Outlook.Kept X → X (r.outlook []) →
      X (r₁.outlook (if v.Ready then [k] else []))) :
    ∃ r', Agenda.run step steps r₁ (v.compileIfReady.map (.perform k)) = (r', []) ∧
      Sound verifier r r' := by
  have hrising := h.rising_compileIfReady hg hv hnone
  -- The cascade is that of one task at most.
  have hweight : Agenda.total (Task.weight width height) (v.compileIfReady.map (.perform k)) ≤
      steps := (total_compileIfReady_le _ v k).trans hsteps
  obtain ⟨r', hrun, hend, hkept⟩ := hrising.run_eq hweight
  refine ⟨r', hrun, hend.coherent, fun X hX hr => ?_⟩
  refine hkept X (fun o o' ha => hX o o' (.advance ha)) ?_
  rw [dueOf_compileIfReady]
  exact hmoves X hX hr

/-- A node that was not registered has taken its place, and has been told of its dependencies. -/
structure Entered (r r' : Registry ν) (k : String) (v : NodeView) : Prop where
  before : r.view? k = none
  wired : Wired r'
  view?_eq : ∀ j, r'.view? j = if j = k then some v else r.view? j
  compiled?_eq : ∀ j, r'.compiled? j = r.compiled? j
  config_eq : r'.config = r.config
  verifier_eq : r'.verifier = r.verifier
  outbox_eq : r'.outbox = r.outbox
  generation_eq : r'.generation = r.generation
  generations_eq : r'.generations = r.generations
  fallen_eq : v.fallen = v
  recorded_eq : ∀ d ∈ v.inputs.dependencies, v.recorded d = some (r.isDependable d)

omit [LawfulNode ν] in
/-- Publishing after a node has been entered. -/
theorem Entered.alike {r'' : Registry ν} {k : String} {v : NodeView} (h : Entered r r' k v)
    (ha : Alike r' r'') : Entered r r'' k v :=
  ⟨h.before, h.wired.of_frame ha.toFrame fun j => by rw [links?, ha.view?_eq, links?],
    fun j => (ha.view?_eq j).trans (h.view?_eq j),
    fun j => (ha.compiled?_eq j).trans (h.compiled?_eq j), ha.config_eq.trans h.config_eq,
    ha.verifier_eq.trans h.verifier_eq, ha.outbox_eq.trans h.outbox_eq,
    ha.generation_eq.trans h.generation_eq, ha.generations_eq.trans h.generations_eq, h.fallen_eq,
    h.recorded_eq⟩

/-- A fresh node that passes the checks is entered, and its entering is published. -/
theorem Coherent.entered (h : Coherent verifier r) (d : NodeKind.Definition ν)
    (hnew : r.contains (Node.key (NodeKind.ofDefinition d : ν)) = false)
    (hcheck : r.graph.check (Node.key (NodeKind.ofDefinition d : ν))
      (Node.dependencies (NodeKind.ofDefinition d : ν)) = .ok ()) :
    Entered r ((r.install (NodeKind.ofDefinition d)).publishSignal
        (Node.key (NodeKind.ofDefinition d : ν)) .added true)
      (Node.key (NodeKind.ofDefinition d : ν))
      ((Node.view (NodeKind.ofDefinition d : ν)).informed r.isDependable) := by
  obtain ⟨hw, hview, nodes, listeners, graph, hinstall⟩ := install_spec h.wired hnew hcheck
  have hfresh := LawfulNode.fresh (ν := ν) d
  have hplaced : Entered r (r.install (NodeKind.ofDefinition d))
      (Node.key (NodeKind.ofDefinition d : ν))
      ((Node.view (NodeKind.ofDefinition d : ν)).informed r.isDependable) := by
    refine ⟨view?_eq_none.2 hnew, hw, hview, fun j => by rw [hinstall]; rfl, by rw [hinstall],
      by rw [hinstall], by rw [hinstall], by rw [hinstall], by rw [hinstall], ?_,
      fun e he => if_pos he⟩
    show ((Node.view (NodeKind.ofDefinition d : ν)).fallen).informed r.isDependable = _
    rw [hfresh]
  exact hplaced.alike (silent_publishSignal _ _ _ _).alike

/-- A node that is told that it has been entered is switched on. It fits in with the others. -/
theorem Coherent.tell_entered {k : String} {v : NodeView} (h : Coherent verifier r)
    (he : Entered r r' k v) :
    ∃ r₂, r'.tell k (.own .added .registry) = (r₂, v.compileIfReady.map (.perform k)) ∧
      Turns r' r₂ k { v with inputs.active := true } ∧ Coherent verifier r₂ := by
  have hv' : r'.view? k = some v := (he.view?_eq k).trans (if_pos rfl)
  have hnone : v.compiled = none := by rw [← he.fallen_eq, NodeView.fallen_compiled]
  obtain ⟨m, hm, rfl⟩ := exists_get? hv'
  obtain ⟨r₂, htell, hc⟩ := tell_eq hm (LawfulNode.added m)
  generalize Node.view m = v at *
  have hturns := hc.turns fun hl => by simp [NodeView.Loses, hnone] at hl
  -- The node is the only one that looks different, and it fits.
  have hw₂ : Wired r₂ := he.wired.of_changes hc rfl rfl
  have hview₂ : ∀ j, r₂.view? j =
      if j = k then some { v with inputs.active := true } else r.view? j := by
    intro j
    rw [hc.view?_eq, he.view?_eq]
    split <;> rfl
  have hfits : ({ v with inputs.active := true } : NodeView).Fits verifier := by
    have hknown : ∀ d ∈ v.inputs.dependencies, (v.recorded d).isSome := by
      intro d hd
      rw [he.recorded_eq d hd]
      rfl
    have hfallen : v.fallen.Fits verifier := NodeView.fits_fallen hknown
    rw [he.fallen_eq] at hfallen
    exact hfallen.switch true
  exact ⟨r₂, htell, hturns, h.of_entered he.before hw₂ (hc.verifier_eq.trans he.verifier_eq) hview₂
    (fun j => (hturns.compiled?_eq j).trans (he.compiled?_eq j)) hnone hfits he.recorded_eq⟩

/-- A node that is told that it has been entered: it is switched on, and compiled if it is
ready. -/
theorem Coherent.sound_entered {k : String} {v : NodeView} (h : Coherent verifier r)
    (he : Entered r r' k v) : Sound verifier r (r'.deliver k .added) := by
  have hnone : v.compiled = none := by rw [← he.fallen_eq, NodeView.fallen_compiled]
  obtain ⟨r₂, htell, hturns, hcoherent₂⟩ := h.tell_entered he
  have hview₂ : ∀ j, r₂.view? j =
      if j = k then some { v with inputs.active := true } else r.view? j := by
    intro j
    rw [hturns.view?_eq, he.view?_eq]
    split <;> rfl
  -- In the outlook it lapses, after it has been found whether it is to be compiled.
  have hmoves : ∀ X, Outlook.Kept X → X (r.outlook []) →
      X (r₂.outlook (if v.Ready then [k] else [])) := by
    intro X hX hr
    have hvalue : r.value? k = none := by rw [value?, he.before]; rfl
    have hmode : r₂.isDeferred = r.isDeferred := by
      rw [hturns.isDeferred_eq, isDeferred, he.config_eq, isDeferred]
    have hlapse : r₂.outlook (if v.Ready then [k] else []) =
        (r.outlook (if v.Ready then [k] else [])).lapse k
          ({ v with inputs.active := true } : NodeView).outline := by
      refine outlook_eq_lapse hview₂ hmode (hturns.generation_eq.trans he.generation_eq)
        (hturns.generations_eq.trans he.generations_eq) ?_ _
      rw [hturns.outbox_eq, he.outbox_eq, hvalue]
      simp
    rw [hlapse]
    refine hX.lapse hnone (fun hready => ?_) (kept_ask hX hr k v.Ready)
    have hready' : v.Ready := of_decide_eq_true hready
    show k ∈ if v.Ready then [k] else []
    rw [if_pos hready']
    exact List.mem_cons_self
  obtain ⟨height, hg⟩ := hcoherent₂.wired.exists_graded
  obtain ⟨r₃, hrun, hsound⟩ := hcoherent₂.sound_compile (r := r) hg
    ((hview₂ k).trans (if_pos rfl)) hnone (hg.weight_le _) hmoves
  have hdeliver : r'.deliver k .added = r₃ := by
    refine deliver_eq htell hrun ?_
    rw [hturns.toFrame.reserve_eq he.wired.sorted]
    omega
  rw [hdeliver]
  exact hsound

theorem Coherent.sound_add (h : Coherent verifier r) (d : NodeKind.Definition ν) :
    Sound verifier r (r.add (NodeKind.ofDefinition d)).2 := by
  unfold add
  dsimp only
  split
  · exact h.sound_refuse _ _ _
  · next hnew =>
    split
    · exact h.sound_refuse _ _ _
    · next hcheck => exact h.sound_entered (h.entered d (Bool.eq_false_iff.2 hnew) hcheck)

/-! ## Changing -/

/-- A node has taken the place of another with the same key, and has been told of its
dependencies. It still holds the value of the other. -/
structure Replaced (r r' : Registry ν) (k : String) (v v' : NodeView) : Prop where
  before : r.view? k = some v
  wired : Wired r'
  view?_eq : ∀ j, r'.view? j = if j = k then some v' else r.view? j
  compiled?_eq : ∀ j, r'.compiled? j = r.compiled? j
  config_eq : r'.config = r.config
  verifier_eq : r'.verifier = r.verifier
  outbox_eq : r'.outbox = r.outbox
  generation_eq : r'.generation = r.generation
  generations_eq : r'.generations = r.generations
  value_eq : v'.compiled = v.compiled
  dependable_eq : v'.dependable = v.dependable
  recorded_eq : ∀ d ∈ v'.inputs.dependencies, v'.recorded d = some (r.isDependable d)

omit [LawfulNode ν] in
theorem Replaced.isDeferred_eq {k : String} {v v' : NodeView} (h : Replaced r r' k v v') :
    r'.isDeferred = r.isDeferred := by
  rw [isDeferred, h.config_eq, isDeferred]

omit [LawfulNode ν] in
/-- Publishing after a replacement. -/
theorem Replaced.alike {r'' : Registry ν} {k : String} {v v' : NodeView}
    (h : Replaced r r' k v v') (ha : Alike r' r'') : Replaced r r'' k v v' :=
  ⟨h.before, h.wired.of_frame ha.toFrame fun j => by rw [links?, ha.view?_eq, links?],
    fun j => (ha.view?_eq j).trans (h.view?_eq j),
    fun j => (ha.compiled?_eq j).trans (h.compiled?_eq j), ha.config_eq.trans h.config_eq,
    ha.verifier_eq.trans h.verifier_eq, ha.outbox_eq.trans h.outbox_eq,
    ha.generation_eq.trans h.generation_eq, ha.generations_eq.trans h.generations_eq, h.value_eq,
    h.dependable_eq, h.recorded_eq⟩

omit [LawfulNode ν] in
/-- A replaced node drops the value of the other. Nothing else becomes of the outlook. -/
theorem Replaced.of_fallen {r₂ : Registry ν} {k : String} {v v' : NodeView}
    (hr : Replaced r r' k v v') (h : Coherent verifier r) (hc : Changes r' r₂ k v' v'.fallen) :
    Steady verifier r₂ ∧ (∀ j, r₂.view? j = if j = k then some v'.fallen else r.view? j) ∧
      ∀ due, r₂.outlook due = (r.outlook due).lapse k v'.fallen.outline := by
  have hview₂ : ∀ j, r₂.view? j = if j = k then some v'.fallen else r.view? j := by
    intro j
    rw [hc.view?_eq, hr.view?_eq]
    split <;> rfl
  -- The cache forgets the value, if there is one.
  have hvalue : r.value? k = v'.compiled := by
    rw [value?, hr.before, hr.value_eq]
    rfl
  have hcompiled₂ : ∀ j, r₂.compiled? j = if j = k then v'.fallen.compiled else r.compiled? j := by
    intro j
    rw [hc.compiled?_eq, hr.compiled?_eq]
    by_cases hj : j = k
    · simp only [hj, true_and, if_true, h.compiled?_eq, hvalue, NodeView.Loses]
      cases v'.compiled <;> simp
    · simp [hj]
  have hknown : ∀ d ∈ v'.inputs.dependencies, (v'.recorded d).isSome := by
    intro d hd
    rw [hr.recorded_eq d hd]
    rfl
  refine ⟨?_, hview₂, fun due => ?_⟩
  · exact h.toSteady.replace (hr.wired.of_changes hc rfl rfl) (hc.verifier_eq.trans hr.verifier_eq)
      hview₂ hcompiled₂ (NodeView.fits_fallen hknown)
  · refine outlook_eq_lapse hview₂ (hc.isDeferred_eq.trans hr.isDeferred_eq)
      (hc.generation_eq.trans hr.generation_eq) (hc.generations_eq.trans hr.generations_eq) ?_ due
    rw [hc.outbox_eq, hr.outbox_eq, hvalue, hr.isDeferred_eq]
    simp [NodeView.Loses]

/-- The dependents of a replaced node learn that it has dropped its value. The node is none of
them, so it stays as it is. -/
theorem Replaced.exists_told {r₂ : Registry ν} {k : String} {v v' : NodeView} {width : Nat}
    {height : String → Nat} {loss : List Effect} (hr : Replaced r r' k v v')
    (h : Coherent verifier r) (hc : Changes r' r₂ k v' v'.fallen) (hg : Graded width height r₂)
    (hloss : v'.Loss loss) :
    ∃ r₃, Agenda.run step r₂.reserve r₂ (loss.map (.perform k)) = (r₃, []) ∧
      Coherent verifier r₃ ∧ Graded width height r₃ ∧
      (r₃.outlook []).outline? k = some v'.fallen.outline ∧
      ∀ X, Outlook.Kept X → ∀ due, X (r₂.outlook due) → X (r₃.outlook due) := by
  obtain ⟨hs₂, hview₂, -⟩ := hr.of_fallen h hc
  have hv₂ : r₂.view? k = some v'.fallen := (hview₂ k).trans (if_pos rfl)
  have hfalling : Falling verifier width height (height k) (fun _ => False) r₂
      (loss.map (.perform k)) := by
    refine h.falling hs₂ hg (fun j hj => (hview₂ j).trans (if_neg hj)) ?_ (fun w hw d hd => ?_) ?_
    · rw [isDependable_of_view? hv₂, NodeView.fallen_dependable]
    · obtain rfl : v'.fallen = w := by simpa [hv₂] using hw
      exact hr.recorded_eq d hd
    · cases hloss with
      | told wide => exact .inl ⟨wide, rfl⟩
      | silent hplain =>
        refine .inr ⟨rfl, ?_⟩
        rw [isDependable_of_view? hr.before, ← hr.dependable_eq, hplain]
  -- The reserve is enough for what is to be told.
  have hweight : Agenda.total (Task.weight width height) (loss.map (.perform k)) ≤
      r₂.reserve := by
    cases hloss with
    | told wide => simpa using hg.weight_le (.perform k (.broadcast .invalidated wide))
    | silent hplain => simp
  obtain ⟨r₃, hrun, hend, hkept⟩ := hfalling.run_eq hweight
  refine ⟨r₃, hrun, hend.coherent, hend.graded, ?_, fun X hX due => ?_⟩
  -- Whatever lapses lies above the node.
  · refine hkept (fun o => o.outline? k = some v'.fallen.outline) [] (fun _ hf => hf.elim) ?_
      (outline?_outlook hv₂)
    intro o o' hlapse ho
    have hself : ¬ (height k < height k ∨ False) := by simp
    exact (hlapse.outline?_eq hself).trans ho
  · exact hkept X due (fun _ hf => hf.elim) fun o o' hl => hX o o' (.lapse hl)

omit [LawfulNode ν] in
/-- A node that appears like a fallen one holds no value, and is as ready as that one was. -/
theorem exists_view?_of_outline {k : String} {v : NodeView} {due : List String}
    (h : (r.outlook due).outline? k = some v.fallen.outline) :
    ∃ w, r.view? k = some w ∧ w.compiled = none ∧ (w.Ready ↔ v.Ready) ∧
      w.compileIfReady = v.compileIfReady := by
  obtain ⟨w, hw, hline⟩ := Option.map_eq_some_iff.1 h
  have hready : w.Ready ↔ v.Ready := by
    simpa [NodeView.outline] using congrArg Outline.ready hline
  refine ⟨w, hw, congrArg Outline.compiled hline, hready, ?_⟩
  simp only [NodeView.compileIfReady, hready]

/-- A replaced node is told of it: it drops the value of the other, its dependents learn of the
loss, and it is compiled anew. -/
theorem Coherent.sound_updated {k : String} {v v' : NodeView} (h : Coherent verifier r)
    (hr : Replaced r r' k v v') : Sound verifier r (r'.deliver k .updated) := by
  have hv' : r'.view? k = some v' := (hr.view?_eq k).trans (if_pos rfl)
  obtain ⟨m, hm, rfl⟩ := exists_get? hv'
  obtain ⟨loss, hloss, hreacts⟩ := LawfulNode.updated m
  obtain ⟨r₂, htell, hc⟩ := tell_eq hm hreacts
  generalize Node.view m = v' at *
  obtain ⟨hs₂, -, houtlook₂⟩ := hr.of_fallen h hc
  obtain ⟨height, hg⟩ := hs₂.wired.exists_graded
  -- The cascade of losses
  obtain ⟨r₃, hrun₃, hcoherent₃, hg₃, hline, hkept₃⟩ := hr.exists_told h hc hg hloss
  obtain ⟨v₃, hv₃, hnone₃, hready₃, htasks⟩ := exists_view?_of_outline hline
  -- Compiling the node, which has been replaced, and asked for, before its dependents are told
  have hmoves : ∀ X, Outlook.Kept X → X (r.outlook []) →
      X (r₃.outlook (if v₃.Ready then [k] else [])) := by
    intro X hX hx
    refine hkept₃ X hX _ ?_
    rw [houtlook₂]
    refine hX.lapse rfl (fun hready => ?_) (kept_ask hX hx k v₃.Ready)
    show k ∈ if v₃.Ready then [k] else []
    rw [if_pos (hready₃.2 (of_decide_eq_true hready))]
    exact List.mem_cons_self
  obtain ⟨r₄, hrun₄, hsound⟩ := hcoherent₃.sound_compile (r := r) hg₃ hv₃ hnone₃
    (hg.weight_le (.perform k .compile)) hmoves
  have hdeliver : r'.deliver k .updated = r₄ := by
    refine deliver_eq htell ?_ (Nat.le_refl _)
    have hrun := Agenda.run_append hrun₃ (htasks ▸ hrun₄)
    rw [List.map_append, ← hc.toFrame.reserve_eq hr.wired.sorted, Nat.two_mul]
    exact hrun
  rw [hdeliver]
  exact hsound

omit [NodeKind ν] [LawfulNode ν] in
/-- Dependencies that a permitted patch installs fit into the graph. -/
theorem check_of_checkUpdate {k : String} {n : ν} {patch : Node.Patch ν}
    (h : r.checkUpdate k n patch = .ok ()) {ds : List String}
    (hds : Node.patchedDependencies patch = some ds) : r.graph.check k ds = .ok () := by
  unfold checkUpdate at h
  cases hc : Node.checkUpdate n with
  | error e => simp [hc, bind, Except.bind] at h
  | ok u =>
    simp only [hc, hds, bind, Except.bind] at h
    cases hg : r.graph.check k ds with
    | ok u => rfl
    | error e =>
      rw [hg] at h
      exact nomatch h

/-- A permitted patch replaces a node. -/
theorem Coherent.replaced (h : Coherent verifier r) {k : String} {n : ν} {patch : Node.Patch ν}
    (hn : r.get? k = some n) (hcheck : r.checkUpdate k n patch = .ok ()) :
    let after := (Node.applyPatch n patch).2
    ∃ v', Replaced r
      (if (Node.applyPatch n patch).1.dependenciesChanged then
        (r.setNode k after).relink k (Node.dependencies n) after else r.setNode k after)
      k (Node.view n) v' := by
  intro after
  have hv := view?_of_get? hn
  have hkey : Node.key n = k := h.wired.key_eq k _ hv
  obtain ⟨⟨inputs, hview, hactive⟩, hinstalled, hsame, -⟩ := LawfulNode.patched n patch
  have hkey' : Node.key after = k := by
    have hk : (Node.view after).key = (Node.view n).key := by rw [hview]
    exact hk.trans hkey
  have hvalue : (Node.view after).compiled = (Node.view n).compiled := by rw [hview]
  have hdependable : (Node.view after).dependable = (Node.view n).dependable := by
    rw [hview]
    show (inputs.active && _) = _
    rw [hactive]
    rfl
  split
  · next hchanged =>
    have hfits := check_of_checkUpdate hcheck (hinstalled hchanged)
    obtain ⟨hw, hview', nodes, listeners, graph, heq⟩ := relink_spec h.wired hv hkey' hfits
    change (r.setNode k after).relink k (Node.dependencies n) after = _ at heq
    refine ⟨_, hv, hw, hview', fun j => by rw [heq]; rfl, by rw [heq], by rw [heq], by rw [heq],
      by rw [heq], by rw [heq], hvalue, hdependable, fun d hd => ?_⟩
    -- The node itself is none of its dependencies.
    have hdk : d ≠ k := by
      have hself := hw.not_mem_self ((hview' k).trans (if_pos rfl))
      exact fun he => hself (he ▸ hd)
    have hready : (r.setNode k after).isDependable d = r.isDependable d :=
      isDependable_congr ((view?_setNode r k after d).trans (if_neg hdk))
    rw [← hready]
    exact if_pos hd
  · next hchanged =>
    have hdeps := hsame (by simpa using hchanged)
    refine ⟨Node.view after, hv, setNode_spec h.wired hv hkey' hdeps, view?_setNode r k after,
      fun _ => rfl, rfl, rfl, rfl, rfl, rfl, hvalue, hdependable, fun d hd => ?_⟩
    rw [← h.recorded_eq k _ hv d (hdeps ▸ hd), hview]

omit [LawfulNode ν] in
/-- A node that looks the same takes the place of another. -/
theorem alike_setNode {k : String} {n m : ν} (hn : r.get? k = some n)
    (hview : Node.view m = Node.view n) : Alike r (r.setNode k m) := by
  have hturns : Turns r (r.setNode k m) k (Node.view n) := by
    refine ⟨⟨rfl, rfl, rfl, rfl, fun hs => ⟨KeyMap.sorted_insert k m hs, ?_⟩⟩, fun j => ?_,
      fun _ => rfl, rfl, rfl, rfl⟩
    · exact KeyMap.length_insert hs (by rw [show KeyMap.find? r.nodes k = some n from hn]; rfl) m
    · rw [view?_setNode, hview]
  exact hturns.alike_self (view?_of_get? hn)

/-- A patch that changes nothing that matters leaves the registry as it looks. -/
theorem alike_setNode_patch {k : String} {n : ν} {patch : Node.Patch ν} (hn : r.get? k = some n)
    (hneeds : (Node.applyPatch n patch).1.needsRecompile = false) :
    Alike r (r.setNode k (Node.applyPatch n patch).2) := by
  obtain ⟨⟨inputs, hview, -⟩, -, -, hsame⟩ := LawfulNode.patched n patch
  have hinputs := hsame hneeds
  refine alike_setNode hn ?_
  rw [hview] at hinputs ⊢
  rw [show inputs = (Node.view n).inputs from hinputs]

theorem Coherent.sound_update (h : Coherent verifier r) (k : String) (patch : Node.Patch ν) :
    Sound verifier r (r.update k patch).2 := by
  unfold update
  split
  · exact h.sound_refuse _ _ _
  · next n hn =>
    split
    · exact h.sound_refuse _ _ _
    · next hcheck =>
      obtain ⟨v', hr⟩ := h.replaced hn hcheck
      dsimp only at hr ⊢
      generalize hr₁ : (if (Node.applyPatch n patch).1.dependenciesChanged = true then
        (r.setNode k (Node.applyPatch n patch).2).relink k (Node.dependencies n)
          (Node.applyPatch n patch).2
        else r.setNode k (Node.applyPatch n patch).2) = r₁ at hr ⊢
      -- Only if the value is dropped is there more to do than to publish.
      have ha : Alike r₁ (r₁.publishWide k .updated) := Silent.alike ⟨_, rfl⟩
      split
      · have ha' : Alike (r₁.publishWide k .updated)
            ((r₁.publishWide k .updated).publishNarrow k .updated) := Silent.alike ⟨_, rfl⟩
        exact h.sound_updated ((hr.alike ha).alike ha')
      · next hneeds =>
        have hneeds' := Bool.eq_false_iff.2 hneeds
        -- A patch that leaves the value alone leaves the dependencies alone.
        have hdeps : (Node.applyPatch n patch).1.dependenciesChanged = false := by
          simp only [PatchOutcome.needsRecompile, Bool.or_eq_false_iff] at hneeds'
          exact hneeds'.1.1
        rw [hdeps] at hr₁
        obtain rfl : r.setNode k (Node.applyPatch n patch).2 = r₁ := hr₁
        exact h.sound_of_alike ((alike_setNode_patch hn hneeds').trans ha)

end LayeredAccess.Registry
